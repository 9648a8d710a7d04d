import Mathlib.Data.List.Nodup
import Mathlib.Data.List.Induction
import Mathlib.Data.Int.Order.Basic
import Mathlib.Order.Basic

/-! Keyed series of timestamps and the cross-section of their last entries. -/

set_option autoImplicit false

namespace Vpsiner.Lib

variable {κ : Type}

def lastTimes (series : List (κ × List Int)) : List (κ × Int) :=
  series.filterMap fun entry => entry.2.getLast?.map fun ts => (entry.1, ts)

def newestTime (series : List (κ × List Int)) : Option Int :=
  (series.filterMap fun entry => entry.2.getLast?).max?

def allTimes (series : List (κ × List Int)) : List (κ × Int) :=
  series.flatMap fun entry => entry.2.map fun ts => (entry.1, ts)

/-- The series list, in order and once for each key, the times at which `holds`. -/
structure SeriesOf (holds : κ → Int → Prop) (series : List (κ × List Int)) : Prop where
  keys : (series.map Prod.fst).Nodup
  ordered : ∀ entry ∈ series, entry.2.Pairwise (· < ·)
  times : ∀ k ts, (∃ times, (k, times) ∈ series ∧ ts ∈ times) ↔ holds k ts

theorem getLast?_eq_some_iff_of_ordered {times : List Int} (ordered : times.Pairwise (· < ·))
    {ts : Int} : times.getLast? = some ts ↔ ts ∈ times ∧ ∀ other ∈ times, other ≤ ts := by
  cases times using List.reverseRecOn with
  | nil => simp
  | append_singleton front last =>
      obtain ⟨-, -, below⟩ := List.pairwise_append.mp ordered
      have greatest : ∀ other ∈ front ++ [last], other ≤ last := by
        intro other member
        rcases List.mem_append.mp member with earlier | final
        · exact (below other earlier last List.mem_cons_self).le
        · exact (List.mem_singleton.mp final).le
      rw [List.getLast?_concat, Option.some.injEq]
      constructor
      · rintro rfl
        exact ⟨by simp, greatest⟩
      · rintro ⟨member, upper⟩
        exact le_antisymm (upper last (by simp)) (greatest ts member)

namespace SeriesOf

variable {holds : κ → Int → Prop} {series : List (κ × List Int)}

private theorem times_of_key (of : SeriesOf holds series) {k : κ} {times : List Int}
    (member : (k, times) ∈ series) {ts : Int} : ts ∈ times ↔ holds k ts := by
  rw [← of.times]
  constructor
  · exact fun present => ⟨times, member, present⟩
  · rintro ⟨others, otherMember, present⟩
    have same := List.inj_on_of_nodup_map of.keys member otherMember rfl
    exact (Prod.mk.inj same).2 ▸ present

theorem mem_lastTimes (of : SeriesOf holds series) {k : κ} {ts : Int} :
    (k, ts) ∈ lastTimes series ↔ holds k ts ∧ ∀ other, holds k other → other ≤ ts := by
  simp only [lastTimes, List.mem_filterMap, Option.map_eq_some_iff, Prod.mk.injEq]
  constructor
  · rintro ⟨⟨_, times⟩, member, _, newest, rfl, rfl⟩
    obtain ⟨present, greatest⟩ :=
      (getLast?_eq_some_iff_of_ordered (of.ordered _ member)).mp newest
    exact ⟨(of.times_of_key member).mp present,
      fun other held => greatest other ((of.times_of_key member).mpr held)⟩
  · rintro ⟨held, greatest⟩
    obtain ⟨times, member, present⟩ := (of.times k ts).mpr held
    refine ⟨(k, times), member, ts, ?_, rfl, rfl⟩
    exact (getLast?_eq_some_iff_of_ordered (of.ordered _ member)).mpr ⟨present,
      fun other listed => greatest other ((of.times_of_key member).mp listed)⟩

theorem nodup_lastTimes (of : SeriesOf holds series) : ((lastTimes series).map Prod.fst).Nodup := by
  rw [List.Nodup, List.pairwise_map, lastTimes, List.pairwise_filterMap]
  refine (List.pairwise_map.mp of.keys).imp fun {first second} different => ?_
  intro one oneShape other otherShape
  obtain ⟨_, -, rfl⟩ := Option.map_eq_some_iff.mp oneShape
  obtain ⟨_, -, rfl⟩ := Option.map_eq_some_iff.mp otherShape
  exact different

private theorem mem_lasts (of : SeriesOf holds series) {ts : Int} :
    ts ∈ series.filterMap (fun entry => entry.2.getLast?) ↔
      ∃ k, holds k ts ∧ ∀ other, holds k other → other ≤ ts := by
  simp only [← of.mem_lastTimes, lastTimes, List.mem_filterMap, Option.map_eq_some_iff,
    Prod.mk.injEq]
  constructor
  · rintro ⟨⟨k, times⟩, member, newest⟩
    exact ⟨k, (k, times), member, ts, newest, rfl, rfl⟩
  · rintro ⟨k, entry, member, _, newest, -, rfl⟩
    exact ⟨entry, member, newest⟩

private theorem exists_last (of : SeriesOf holds series) {k : κ} {ts : Int} (held : holds k ts) :
    ∃ last, holds k last ∧ (∀ other, holds k other → other ≤ last) ∧ ts ≤ last := by
  obtain ⟨times, member, present⟩ := (of.times k ts).mpr held
  cases newest : times.getLast? with
  | none =>
      rw [List.getLast?_eq_none_iff.mp newest] at present
      cases present
  | some last =>
      have found : (k, last) ∈ lastTimes series :=
        List.mem_filterMap.mpr ⟨(k, times), member, by simp [newest]⟩
      obtain ⟨lastHeld, greatest⟩ := of.mem_lastTimes.mp found
      exact ⟨last, lastHeld, greatest, greatest ts held⟩

theorem newestTime_eq_some_iff (of : SeriesOf holds series) {ts : Int} :
    newestTime series = some ts ↔
      (∃ k, holds k ts) ∧ ∀ k other, holds k other → other ≤ ts := by
  rw [newestTime, List.max?_eq_some_iff, of.mem_lasts]
  constructor
  · rintro ⟨⟨k, held, -⟩, greatest⟩
    refine ⟨⟨k, held⟩, fun other time otherHeld => ?_⟩
    obtain ⟨last, lastHeld, upper, le⟩ := of.exists_last otherHeld
    exact le.trans (greatest last (of.mem_lasts.mpr ⟨other, lastHeld, upper⟩))
  · rintro ⟨⟨k, held⟩, greatest⟩
    refine ⟨⟨k, held, greatest k⟩, fun other member => ?_⟩
    obtain ⟨otherKey, otherHeld, -⟩ := of.mem_lasts.mp member
    exact greatest otherKey other otherHeld

theorem newestTime_eq_none (of : SeriesOf holds series) (none : newestTime series = none) (k : κ)
    (ts : Int) : ¬ holds k ts := by
  intro held
  obtain ⟨last, lastHeld, greatest, -⟩ := of.exists_last held
  have member := of.mem_lasts.mpr ⟨k, lastHeld, greatest⟩
  rw [List.max?_eq_none_iff.mp none] at member
  cases member

/-- The last entries all stand at the newest time, after `bound`, when every key that
has a time has that one. -/
theorem crossSection_iff (of : SeriesOf holds series) {newest bound : Int}
    (found : newestTime series = some newest) :
    (∀ entry ∈ lastTimes series, entry.2 = newest ∧ bound < entry.2) ↔
      ∀ k ts, holds k ts → holds k newest ∧ bound < newest := by
  obtain ⟨-, upper⟩ := of.newestTime_eq_some_iff.mp found
  constructor
  · intro current k ts held
    obtain ⟨last, lastHeld, greatest, -⟩ := of.exists_last held
    obtain ⟨same, after⟩ := current (k, last) (of.mem_lastTimes.mpr ⟨lastHeld, greatest⟩)
    simp only at same after
    exact ⟨same ▸ lastHeld, same ▸ after⟩
  · rintro current ⟨k, last⟩ member
    obtain ⟨held, greatest⟩ := of.mem_lastTimes.mp member
    obtain ⟨atNewest, after⟩ := current k last held
    have same : last = newest := le_antisymm (upper k last held) (greatest newest atNewest)
    exact ⟨same, same ▸ after⟩

theorem nodup_allTimes (of : SeriesOf holds series) : (allTimes series).Nodup := by
  rw [allTimes, List.nodup_flatMap]
  constructor
  · intro entry member
    refine List.Nodup.map (fun _ _ same => (Prod.mk.inj same).2) ?_
    exact (of.ordered entry member).imp fun below => ne_of_lt below
  · refine (List.pairwise_map.mp of.keys).imp fun {first second} different => ?_
    intro pair inFirst inSecond
    obtain ⟨_, -, rfl⟩ := List.mem_map.mp inFirst
    obtain ⟨_, -, same⟩ := List.mem_map.mp inSecond
    exact different (Prod.mk.inj same).1.symm

theorem allTimes_le_newest (of : SeriesOf holds series) (default : Int) :
    ∀ entry ∈ allTimes series, entry.2 ≤ (newestTime series).getD default := by
  intro entry member
  obtain ⟨⟨k, times⟩, listed, inTimes⟩ := List.mem_flatMap.mp member
  obtain ⟨ts, present, rfl⟩ := List.mem_map.mp inTimes
  have held := (of.times_of_key listed).mp present
  cases newest : newestTime series with
  | none => exact absurd held (of.newestTime_eq_none newest k ts)
  | some latest => exact (of.newestTime_eq_some_iff.mp newest).2 k ts held

end SeriesOf

end Vpsiner.Lib
