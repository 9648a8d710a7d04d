import Mathlib.Data.List.Sort
import Mathlib.Data.List.DropRight
import Mathlib.Order.Lattice

/-! Paging over rows in strict key order. Toward older rows every request may see more
rows than the one before; toward newer rows the rows are fixed. -/

set_option autoImplicit false

namespace Vpsiner.Lib.Paging

variable {ρ κ : Type} [LinearOrder κ]

def Ascending (key : ρ → κ) (rows : List ρ) : Prop :=
  rows.Pairwise fun earlier later => key earlier < key later

variable {key : ρ → κ} {limit : Nat}

theorem Ascending.eq_of_mem_iff {left right : List ρ} (leftAscending : Ascending key left)
    (rightAscending : Ascending key right) (same : ∀ row, row ∈ left ↔ row ∈ right) :
    left = right := by
  have distinct : ∀ {rows : List ρ}, Ascending key rows → rows.Nodup := by
    intro rows ascending
    refine ascending.imp fun before equal => ?_
    rw [equal] at before
    exact lt_irrefl _ before
  refine List.Perm.eq_of_pairwise ?_ leftAscending rightAscending
    ((List.perm_ext_iff_of_nodup (distinct leftAscending) (distinct rightAscending)).mpr same)
  intro first second _ _ before after
  exact absurd before (lt_asymm after)

def below (key : ρ → κ) (bound : Option κ) (rows : List ρ) : List ρ :=
  rows.filter fun row => bound.all fun bound => decide (key row < bound)

def above (key : ρ → κ) (bound : κ) (rows : List ρ) : List ρ :=
  rows.filter fun row => decide (bound < key row)

theorem mem_below {bound : Option κ} {rows : List ρ} {row : ρ} :
    row ∈ below key bound rows ↔ row ∈ rows ∧ ∀ limit ∈ bound, key row < limit := by
  rw [below, List.mem_filter, Option.all_eq_true]
  simp only [decide_eq_true_eq, Option.mem_def]

theorem mem_above {bound : κ} {rows : List ρ} {row : ρ} :
    row ∈ above key bound rows ↔ row ∈ rows ∧ bound < key row := by
  rw [above, List.mem_filter, decide_eq_true_eq]

theorem Ascending.below {rows : List ρ} (ascending : Ascending key rows) (bound : Option κ) :
    Ascending key (below key bound rows) := ascending.filter _

theorem Ascending.above {rows : List ρ} (ascending : Ascending key rows) (bound : κ) :
    Ascending key (above key bound rows) := ascending.filter _

/-- The page at the newer end begins with its oldest row. -/
theorem Ascending.mem_rtake {rows : List ρ} (ascending : Ascending key rows) {first row : ρ}
    (oldest : (rows.rtake limit).head? = some first) (member : row ∈ rows)
    (reached : key first ≤ key row) : row ∈ rows.rtake limit := by
  have split : rows.rdrop limit ++ rows.rtake limit = rows := List.take_append_drop _ _
  rw [← split] at member
  cases List.mem_append.mp member with
  | inl dropped =>
      rw [← split] at ascending
      have before := (List.pairwise_append.mp ascending).2.2 row dropped first
        (List.mem_of_head? oldest)
      exact absurd reached (not_le.mpr before)
  | inr kept => exact kept

theorem Ascending.head?_le {rows : List ρ} (ascending : Ascending key rows) {first row : ρ}
    (oldest : rows.head? = some first) (member : row ∈ rows) : key first ≤ key row := by
  cases rows with
  | nil => cases member
  | cons head tail =>
      cases oldest
      cases List.mem_cons.mp member with
      | inl same => rw [same]
      | inr later => exact ((List.pairwise_cons.mp ascending).1 row later).le

/-- Ascending rows end with their greatest. -/
theorem Ascending.le_getLast? {rows : List ρ} (ascending : Ascending key rows) {last row : ρ}
    (newest : rows.getLast? = some last) (member : row ∈ rows) : key row ≤ key last := by
  obtain ⟨before, rfl⟩ := List.getLast?_eq_some_iff.mp newest
  cases List.mem_append.mp member with
  | inl older =>
      exact ((List.pairwise_append.mp ascending).2.2 row older last List.mem_cons_self).le
  | inr same => rw [List.mem_singleton.mp same]

theorem Ascending.rtake {rows : List ρ} (ascending : Ascending key rows) :
    Ascending key (rows.rtake limit) := ascending.sublist (List.drop_sublist _ _)

/-- A row that many rows come after is not on the page at the newer end. -/
theorem Ascending.mem_rdrop {rows many : List ρ} (ascending : Ascending key rows)
    (distinct : many.Nodup) {row : ρ} (member : row ∈ rows) (enough : limit ≤ many.length)
    (later : ∀ other ∈ many, other ∈ rows ∧ key row < key other) : row ∈ rows.rdrop limit := by
  have split : rows.rdrop limit ++ rows.rtake limit = rows := List.take_append_drop _ _
  have shown := member
  rw [← split] at shown
  cases List.mem_append.mp shown with
  | inl dropped => exact dropped
  | inr kept =>
      obtain ⟨first, oldest⟩ : ∃ first, (rows.rtake limit).head? = some first :=
        ⟨_, List.head?_eq_some_head (List.ne_nil_of_mem kept)⟩
      have reached : key first ≤ key row := ascending.rtake.head?_le oldest kept
      have page : row :: many ⊆ rows.rtake limit := by
        intro other among
        cases List.mem_cons.mp among with
        | inl same => exact same ▸ kept
        | inr after =>
            obtain ⟨present, beyond⟩ := later other after
            exact ascending.mem_rtake oldest present (reached.trans beyond.le)
      have fresh : row ∉ many := fun among => lt_irrefl _ (later row among).2
      have fits := (List.subperm_of_subset (List.nodup_cons.mpr ⟨fresh, distinct⟩) page).length_le
      have short : (rows.rtake limit).length ≤ limit := by
        rw [List.rtake, List.length_drop]
        omega
      rw [List.length_cons] at fits
      omega

/-- A page at the newer end leaves rows out exactly when some row is below its oldest. -/
theorem Ascending.exists_lt_iff {rows : List ρ} (ascending : Ascending key rows) {first : ρ}
    (oldest : (rows.rtake limit).head? = some first) :
    (∃ row ∈ rows, key row < key first) ↔ limit < rows.length := by
  constructor
  · intro earlier
    obtain ⟨row, member, before⟩ := earlier
    by_contra complete
    rw [List.rtake, Nat.sub_eq_zero_of_le (Nat.le_of_not_lt complete), List.drop_zero] at oldest
    exact absurd before (not_lt.mpr (ascending.head?_le oldest member))
  · intro more
    have split : rows.rdrop limit ++ rows.rtake limit = rows := List.take_append_drop _ _
    obtain ⟨row, dropped⟩ : ∃ row, row ∈ rows.rdrop limit := by
      apply List.exists_mem_of_length_pos
      rw [List.rdrop, List.length_take]
      omega
    rw [← split] at ascending
    exact ⟨row, List.mem_of_mem_take dropped, (List.pairwise_append.mp ascending).2.2 row dropped
      first (List.mem_of_head? oldest)⟩

/-- A page at the older end leaves rows out exactly when some row is above its newest. -/
theorem Ascending.exists_gt_iff {rows : List ρ} (ascending : Ascending key rows) {last : ρ}
    (newest : (rows.take limit).getLast? = some last) :
    (∃ row ∈ rows, key last < key row) ↔ limit < rows.length := by
  constructor
  · intro later
    obtain ⟨row, member, after⟩ := later
    by_contra complete
    rw [List.take_of_length_le (Nat.le_of_not_lt complete)] at newest
    exact absurd after (not_lt.mpr (ascending.le_getLast? newest member))
  · intro more
    obtain ⟨row, dropped⟩ : ∃ row, row ∈ rows.drop limit := by
      apply List.exists_mem_of_length_pos
      rw [List.length_drop]
      omega
    rw [← List.take_append_drop limit rows] at ascending
    exact ⟨row, List.mem_of_mem_drop dropped, (List.pairwise_append.mp ascending).2.2 last
      (List.mem_of_getLast? newest) row dropped⟩

/-- Requests toward older rows, each on its own view of the rows, until a view holds no
row beyond the page; the pages are collected with the later one first. -/
inductive OlderWalk (key : ρ → κ) (limit : Nat) :
    Option κ → List (List ρ) → List ρ → Prop where
  | last {bound : Option κ} {view : List ρ} (complete : (below key bound view).length ≤ limit) :
      OlderWalk key limit bound [view] (below key bound view)
  | more {bound : Option κ} {view : List ρ} {views : List (List ρ)} {first : ρ}
      {older : List ρ} (oldest : ((below key bound view).rtake limit).head? = some first)
      (rest : OlderWalk key limit (some (key first)) views older) :
      OlderWalk key limit bound (view :: views) (older ++ (below key bound view).rtake limit)

namespace OlderWalk

variable {bound : Option κ} {views : List (List ρ)} {collected : List ρ}

theorem mem_bound (walk : OlderWalk key limit bound views collected) :
    ∀ row ∈ collected, ∀ limit ∈ bound, key row < limit := by
  induction walk with
  | last complete =>
      intro row member
      exact (mem_below.mp member).2
  | more oldest rest ih =>
      intro row member
      have first := (mem_below.mp ((List.drop_sublist _ _).mem (List.mem_of_head? oldest))).2
      cases List.mem_append.mp member with
      | inl older =>
          intro limit present
          exact (ih row older _ rfl).trans (first limit present)
      | inr page => exact (mem_below.mp ((List.drop_sublist _ _).mem page)).2

theorem ascending (walk : OlderWalk key limit bound views collected)
    (ordered : ∀ view ∈ views, Ascending key view) : Ascending key collected := by
  induction walk with
  | last complete => exact (ordered _ List.mem_cons_self).below _
  | @more bound view _ _ _ oldest rest ih =>
      obtain ⟨here, later⟩ := List.forall_mem_cons.mp ordered
      have page : Ascending key ((Paging.below key bound view).rtake limit) := (here.below bound).rtake
      refine List.pairwise_append.mpr ⟨ih later, page, ?_⟩
      intro older olderMember row pageMember
      exact lt_of_lt_of_le (rest.mem_bound older olderMember _ rfl)
        (page.head?_le oldest pageMember)

theorem complete (walk : OlderWalk key limit bound views collected)
    (ordered : ∀ view ∈ views, Ascending key view) {row : ρ}
    (seen : ∀ view ∈ views, row ∈ view) (inside : ∀ limit ∈ bound, key row < limit) :
    row ∈ collected := by
  induction walk with
  | last complete => exact mem_below.mpr ⟨seen _ List.mem_cons_self, inside⟩
  | @more _ _ _ first _ oldest rest ih =>
      obtain ⟨here, later⟩ := List.forall_mem_cons.mp ordered
      obtain ⟨present, presentLater⟩ := List.forall_mem_cons.mp seen
      by_cases older : key row < key first
      · apply List.mem_append_left
        apply ih later presentLater
        intro limit same
        cases same
        exact older
      · apply List.mem_append_right
        exact (here.below _).mem_rtake oldest (mem_below.mpr ⟨present, inside⟩) (not_lt.mp older)

theorem sound (walk : OlderWalk key limit bound views collected) {row : ρ}
    (member : row ∈ collected) : ∃ view ∈ views, row ∈ view := by
  induction walk with
  | last complete => exact ⟨_, List.mem_cons_self, (mem_below.mp member).1⟩
  | more oldest rest ih =>
      cases List.mem_append.mp member with
      | inl older =>
          obtain ⟨view, present, found⟩ := ih older
          exact ⟨view, List.mem_cons_of_mem _ present, found⟩
      | inr page =>
          exact ⟨_, List.mem_cons_self, (mem_below.mp ((List.drop_sublist _ _).mem page)).1⟩

end OlderWalk

/-- Requests toward newer rows until no row is left beyond the page. -/
inductive NewerWalk (key : ρ → κ) (limit : Nat) (rows : List ρ) : κ → List ρ → Prop where
  | last {bound : κ} (complete : (above key bound rows).length ≤ limit) :
      NewerWalk key limit rows bound (above key bound rows)
  | more {bound : κ} {last : ρ} {newer : List ρ}
      (newest : ((above key bound rows).take limit).getLast? = some last)
      (rest : NewerWalk key limit rows (key last) newer) :
      NewerWalk key limit rows bound ((above key bound rows).take limit ++ newer)

private theorem above_eq_take_append {rows : List ρ} (ascending : Ascending key rows)
    {bound : κ} {last : ρ} (newest : ((above key bound rows).take limit).getLast? = some last) :
    above key bound rows = (above key bound rows).take limit ++ above key (key last) rows := by
  have beyond := (mem_above.mp ((List.take_sublist _ _).mem (List.mem_of_getLast? newest))).2
  obtain ⟨before, page⟩ := List.getLast?_eq_some_iff.mp newest
  have split := List.take_append_drop limit (above key bound rows)
  have ordered := ascending.above bound
  rw [← split] at ordered
  obtain ⟨pageOrdered, _, across⟩ := List.pairwise_append.mp ordered
  refine (ascending.above bound).eq_of_mem_iff ?_ ?_
  · refine List.pairwise_append.mpr ⟨pageOrdered, ascending.above _, ?_⟩
    intro row member later laterMember
    have reached : key row ≤ key last := by
      rw [page] at member pageOrdered
      cases List.mem_append.mp member with
      | inl earlier =>
          exact ((List.pairwise_append.mp pageOrdered).2.2 row earlier last
            List.mem_cons_self).le
      | inr same => rw [List.mem_singleton.mp same]
    exact lt_of_le_of_lt reached (mem_above.mp laterMember).2
  · intro row
    rw [List.mem_append]
    constructor
    · intro member
      rw [← split] at member
      cases List.mem_append.mp member with
      | inl kept => exact .inl kept
      | inr dropped =>
          have after := across last (List.mem_of_getLast? newest) row dropped
          exact .inr (mem_above.mpr
            ⟨(mem_above.mp ((List.drop_sublist _ _).mem dropped)).1, after⟩)
    · intro member
      cases member with
      | inl kept => exact (List.take_sublist _ _).mem kept
      | inr later =>
          obtain ⟨present, after⟩ := mem_above.mp later
          exact mem_above.mpr ⟨present, beyond.trans after⟩

theorem NewerWalk.collected_eq {rows collected : List ρ} {bound : κ}
    (walk : NewerWalk key limit rows bound collected) (ascending : Ascending key rows) :
    collected = above key bound rows := by
  induction walk with
  | last complete => rfl
  | more newest rest ih => rw [ih, ← above_eq_take_append ascending newest]

end Vpsiner.Lib.Paging
