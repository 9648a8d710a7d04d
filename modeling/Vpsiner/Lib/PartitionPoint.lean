import Mathlib.Data.List.DropRight
import Mathlib.Data.List.TakeWhile

/-! The standard library's `slice::partition_point`. Its documentation fixes the
answer on partitioned slices only, so users quantify over `PartitionPoint`; the
halving loop of the implementation is one instance. -/

set_option autoImplicit false

namespace Vpsiner.Lib

variable {α : Type}

/-- The predicate holds on a prefix of the list and on nothing after it. -/
def Partitioned (pred : α → Bool) (items : List α) : Prop :=
  items.Pairwise fun earlier later => pred later = true → pred earlier = true

instance (pred : α → Bool) (items : List α) : Decidable (Partitioned pred items) :=
  inferInstanceAs (Decidable (items.Pairwise _))

/-- Any implementation that meets the documentation and looks at nothing but the
answers of the predicate on the items. -/
structure PartitionPoint where
  index : {α : Type} → (α → Bool) → List α → Nat
  index_of_partitioned : ∀ {α : Type} {pred : α → Bool} {items : List α},
    Partitioned pred items → index pred items = (items.takeWhile pred).length
  index_congr : ∀ {α : Type} {first second : α → Bool} {items : List α},
    (∀ item ∈ items, first item = second item) → index first items = index second items

theorem Partitioned.takeWhile_eq_filter {pred : α → Bool} {items : List α}
    (partitioned : Partitioned pred items) : items.takeWhile pred = items.filter pred := by
  induction items with
  | nil => rfl
  | cons head tail ih =>
      obtain ⟨headFirst, tailPartitioned⟩ := List.pairwise_cons.mp partitioned
      by_cases holds : pred head = true
      · simp [holds, ih tailPartitioned]
      · have none : ∀ item ∈ tail, ¬ pred item = true :=
          fun item member later => holds (headFirst item member later)
        simp only [List.takeWhile_cons, List.filter_cons, holds, Bool.false_eq_true, ↓reduceIte]
        exact (List.filter_eq_nil_iff.mpr none).symm

theorem Partitioned.dropWhile_eq_filter {pred : α → Bool} {items : List α}
    (partitioned : Partitioned pred items) : items.dropWhile pred = items.filter (!pred ·) := by
  induction items with
  | nil => rfl
  | cons head tail ih =>
      obtain ⟨headFirst, tailPartitioned⟩ := List.pairwise_cons.mp partitioned
      by_cases holds : pred head = true
      · simp [holds, ih tailPartitioned]
      · have none : ∀ item ∈ tail, (!pred item) = true :=
          fun item member => by simpa using fun later => holds (headFirst item member later)
        simp [holds, List.filter_eq_self.mpr none]

theorem Partitioned.of_sorted {pred : α → Bool} {le : α → α → Prop} {items : List α}
    (sorted : items.Pairwise le)
    (downward : ∀ {earlier later}, le earlier later → pred later = true → pred earlier = true) :
    Partitioned pred items :=
  sorted.imp downward

theorem length_takeWhile_mono {first second : α → Bool}
    (implies : ∀ item, first item = true → second item = true) (items : List α) :
    (items.takeWhile first).length ≤ (items.takeWhile second).length := by
  induction items with
  | nil => simp
  | cons head tail ih =>
      by_cases holds : first head = true
      · simp [holds, implies head holds, ih]
      · simp [holds]

theorem takeWhile_length_le (pred : α → Bool) (items : List α) :
    (items.takeWhile pred).length ≤ items.length :=
  (List.takeWhile_sublist pred).length_le

theorem Partitioned.filter {pred : α → Bool} {items : List α} (partitioned : Partitioned pred items)
    (keep : α → Bool) : Partitioned pred (items.filter keep) :=
  List.Pairwise.filter keep partitioned

theorem take_length_takeWhile (pred : α → Bool) (items : List α) :
    items.take (items.takeWhile pred).length = items.takeWhile pred :=
  (List.prefix_iff_eq_take.mp (List.takeWhile_prefix pred)).symm

theorem drop_length_takeWhile (pred : α → Bool) (items : List α) :
    items.drop (items.takeWhile pred).length = items.dropWhile pred := by
  have split : items.take (items.takeWhile pred).length ++
      items.drop (items.takeWhile pred).length =
        items.takeWhile pred ++ items.dropWhile pred := by
    rw [List.take_append_drop, List.takeWhile_append_dropWhile]
  rw [take_length_takeWhile] at split
  exact List.append_cancel_left split

/-- Cutting at two nested partition points keeps what lies between them. -/
theorem drop_take_takeWhile {first second : α → Bool}
    (implies : ∀ item, first item = true → second item = true) {items : List α}
    (firstCut : Partitioned first items) (secondCut : Partitioned second items) :
    (items.take (items.takeWhile second).length).drop (items.takeWhile first).length =
      items.filter fun item => second item && !first item := by
  have inner : (items.filter second).takeWhile first = items.takeWhile first := by
    rw [(firstCut.filter second).takeWhile_eq_filter, firstCut.takeWhile_eq_filter,
      List.filter_filter]
    congr 1
    funext item
    cases holds : first item with
    | false => rfl
    | true => simp [implies item holds]
  rw [take_length_takeWhile, secondCut.takeWhile_eq_filter, ← inner, drop_length_takeWhile,
    (firstCut.filter second).dropWhile_eq_filter, List.filter_filter]
  congr 1
  funext item
  exact Bool.and_comm _ _

/-- The loop of `binary_search_by`, for a comparison that is never `Equal`. -/
def searchLoop (pred : α → Bool) (items : List α) : Nat → Nat → Nat → Nat
  | 0, base, _ => base
  | fuel + 1, base, size =>
      if 1 < size then
        let half := size / 2
        let mid := base + half
        searchLoop pred items fuel (if (items[mid]?).any pred then mid else base) (size - half)
      else base

/-- `partition_point` as the standard library computes it. -/
def binarySearch (pred : α → Bool) (items : List α) : Nat :=
  if items.isEmpty then 0
  else
    let base := searchLoop pred items items.length 0 items.length
    if (items[base]?).any pred then base + 1 else base

private theorem any_getElem?_iff {pred : α → Bool} {items : List α}
    (partitioned : Partitioned pred items) (index : Nat) :
    (items[index]?).any pred = true ↔ index < (items.takeWhile pred).length := by
  induction items generalizing index with
  | nil => simp
  | cons head tail ih =>
      obtain ⟨headFirst, tailPartitioned⟩ := List.pairwise_cons.mp partitioned
      by_cases holds : pred head = true
      · cases index with
        | zero => simp [holds]
        | succ index => simpa [holds] using ih tailPartitioned index
      · simp only [List.takeWhile_cons, holds, Bool.false_eq_true, ↓reduceIte, List.length_nil,
          Nat.not_lt_zero, iff_false]
        cases index with
        | zero => simpa using holds
        | succ index =>
            rw [List.getElem?_cons_succ, Option.any_eq_true]
            rintro ⟨item, found, later⟩
            exact holds (headFirst item (List.mem_of_getElem? found) later)

/-- The window `[base, base + size)` keeps reaching the partition point, and its
first element is before that point unless nothing was excluded below it. -/
private theorem searchLoop_spec {pred : α → Bool} {items : List α}
    (partitioned : Partitioned pred items) (fuel base size : Nat) (adequate : size ≤ fuel + 1)
    (nonempty : 0 < size) (start : base = 0 ∨ base < (items.takeWhile pred).length)
    (reach : (items.takeWhile pred).length ≤ base + size) :
    (searchLoop pred items fuel base size = 0 ∨
        searchLoop pred items fuel base size < (items.takeWhile pred).length) ∧
      (items.takeWhile pred).length ≤ searchLoop pred items fuel base size + 1 := by
  induction fuel generalizing base size with
  | zero => exact ⟨start, by simp only [searchLoop]; omega⟩
  | succ fuel ih =>
      simp only [searchLoop]
      split
      · next large =>
          by_cases taken : (items[base + size / 2]?).any pred = true
          · rw [if_pos taken]
            have before := (any_getElem?_iff partitioned _).mp taken
            exact ih _ _ (by omega) (by omega) (.inr before) (by omega)
          · rw [if_neg taken]
            have after := mt (any_getElem?_iff partitioned _).mpr taken
            exact ih _ _ (by omega) (by omega) start (by omega)
      · next small => exact ⟨start, by omega⟩

theorem binarySearch_of_partitioned {pred : α → Bool} {items : List α}
    (partitioned : Partitioned pred items) :
    binarySearch pred items = (items.takeWhile pred).length := by
  unfold binarySearch
  cases items with
  | nil => rfl
  | cons head tail =>
      have bound := takeWhile_length_le pred (head :: tail)
      obtain ⟨start, reach⟩ := searchLoop_spec partitioned (head :: tail).length 0
        (head :: tail).length (by omega) (by simp) (.inl rfl) (by omega)
      have probed := any_getElem?_iff partitioned
        (searchLoop pred (head :: tail) (head :: tail).length 0 (head :: tail).length)
      simp only [List.isEmpty_cons, Bool.false_eq_true, ↓reduceIte]
      split
      · next holds => have := probed.mp holds; omega
      · next fails => have := mt probed.mpr fails; omega

private theorem any_getElem?_congr {first second : α → Bool} {items : List α}
    (agree : ∀ item ∈ items, first item = second item) (index : Nat) :
    (items[index]?).any first = (items[index]?).any second := by
  cases found : items[index]? with
  | none => rfl
  | some item => exact agree item (List.mem_of_getElem? found)

private theorem searchLoop_congr {first second : α → Bool} {items : List α}
    (agree : ∀ item ∈ items, first item = second item) (fuel base size : Nat) :
    searchLoop first items fuel base size = searchLoop second items fuel base size := by
  induction fuel generalizing base size with
  | zero => rfl
  | succ fuel ih => simp only [searchLoop, any_getElem?_congr agree, ih]

def PartitionPoint.binarySearch : PartitionPoint where
  index := Lib.binarySearch
  index_of_partitioned := binarySearch_of_partitioned
  index_congr := fun agree => by
    simp only [Lib.binarySearch, searchLoop_congr agree, any_getElem?_congr agree]

/-! ## Two scanning implementations -/

theorem takeWhile_congr {first second : α → Bool} {items : List α}
    (agree : ∀ item ∈ items, first item = second item) :
    items.takeWhile first = items.takeWhile second := by
  induction items with
  | nil => rfl
  | cons head tail ih =>
      rw [List.takeWhile_cons, List.takeWhile_cons, agree head List.mem_cons_self,
        ih fun item member => agree item (List.mem_cons_of_mem _ member)]

theorem dropWhile_congr {first second : α → Bool} {items : List α}
    (agree : ∀ item ∈ items, first item = second item) :
    items.dropWhile first = items.dropWhile second := by
  induction items with
  | nil => rfl
  | cons head tail ih =>
      rw [List.dropWhile_cons, List.dropWhile_cons, agree head List.mem_cons_self,
        ih fun item member => agree item (List.mem_cons_of_mem _ member)]

/-- Scans from the front for the first item that fails. -/
def PartitionPoint.firstFailing : PartitionPoint where
  index := fun pred items => (items.takeWhile pred).length
  index_of_partitioned := fun _ => rfl
  index_congr := fun agree => congrArg List.length (takeWhile_congr agree)

theorem Partitioned.rdropWhile_eq_takeWhile {pred : α → Bool} {items : List α}
    (partitioned : Partitioned pred items) :
    items.rdropWhile (!pred ·) = items.takeWhile pred := by
  have failing : ∀ item ∈ (items.dropWhile pred).reverse, (!pred item) = true := by
    rw [partitioned.dropWhile_eq_filter]
    exact fun item member => (List.mem_filter.mp (List.mem_reverse.mp member)).2
  have split : items.reverse = (items.dropWhile pred).reverse ++ (items.takeWhile pred).reverse := by
    rw [← List.reverse_append, List.takeWhile_append_dropWhile]
  have kept : (items.takeWhile pred).reverse.dropWhile (!pred ·) =
      (items.takeWhile pred).reverse := by
    refine List.dropWhile_eq_self_iff.mpr fun _ fails => ?_
    have holds := List.mem_takeWhile_imp (List.mem_reverse.mp (List.getElem_mem (by assumption)))
    simp only [holds, Bool.not_true, Bool.false_eq_true] at fails
  rw [List.rdropWhile, split, List.dropWhile_append_of_pos failing, kept, List.reverse_reverse]

/-- Scans from the back for the last item that holds. -/
def PartitionPoint.lastHolding : PartitionPoint where
  index := fun pred items => (items.rdropWhile (!pred ·)).length
  index_of_partitioned := fun partitioned => by rw [partitioned.rdropWhile_eq_takeWhile]
  index_congr := fun agree => by
    simp only [List.rdropWhile]
    rw [dropWhile_congr fun item member => by rw [agree item (List.mem_reverse.mp member)]]

/-- A search that never crosses the cuts of nested predicates and that looks at items
only through the predicate. -/
structure PartitionPoint.Scans (search : PartitionPoint) : Prop where
  mono : ∀ {α : Type} {first second : α → Bool},
    (∀ item, first item = true → second item = true) → ∀ items : List α,
      search.index first items ≤ search.index second items
  map : ∀ {α β : Type} (f : α → β) (pred : β → Bool) (items : List α),
    search.index pred (items.map f) = search.index (fun item => pred (f item)) items
  le_length : ∀ {α : Type} (pred : α → Bool) (items : List α),
    search.index pred items ≤ items.length

/-- Both scans stop at one place only when the list is partitioned there. -/
theorem partitioned_of_scans_agree {pred : α → Bool} {items : List α}
    (agree : PartitionPoint.firstFailing.index pred items =
      PartitionPoint.lastHolding.index pred items) : Partitioned pred items := by
  have nested : items.takeWhile pred <+: items.rdropWhile (!pred ·) :=
    List.prefix_of_prefix_length_le (List.takeWhile_prefix pred) (List.rdropWhile_prefix _ items)
      agree.le
  have same : items.takeWhile pred = items.rdropWhile (!pred ·) := nested.eq_of_length agree
  have split : items.takeWhile pred ++ items.rtakeWhile (!pred ·) = items := by
    rw [same, List.rdropWhile_append_rtakeWhile]
  rw [← split]
  refine List.pairwise_append.mpr ⟨?_, ?_, ?_⟩
  · exact List.pairwise_of_forall_mem_list fun left member _ _ _ => List.mem_takeWhile_imp member
  · refine List.pairwise_of_forall_mem_list fun _ _ right member holds => ?_
    have fails := List.mem_rtakeWhile_imp member
    simp [holds] at fails
  · exact fun left member _ _ _ => List.mem_takeWhile_imp member

theorem rdropWhile_length_mono {first second : α → Bool}
    (implies : ∀ item, first item = true → second item = true) (items : List α) :
    (items.rdropWhile (!first ·)).length ≤ (items.rdropWhile (!second ·)).length := by
  simp only [List.rdropWhile, List.length_reverse]
  induction items.reverse with
  | nil => simp
  | cons head tail ih =>
      by_cases holds : first head = true
      · simp [holds, implies head holds]
      · by_cases also : second head = true
        · have := (List.dropWhile_suffix (!first ·) (l := tail)).length_le
          simp only [List.dropWhile_cons, holds, also]
          simp only [Bool.not_false, ↓reduceIte, Bool.not_true, Bool.false_eq_true,
            List.length_cons]
          omega
        · simpa [holds, also] using ih

theorem PartitionPoint.firstFailing_scans : PartitionPoint.firstFailing.Scans where
  mono := length_takeWhile_mono
  map := fun f pred items => by
    simp [PartitionPoint.firstFailing, List.takeWhile_map, Function.comp_def]
  le_length := takeWhile_length_le

theorem PartitionPoint.lastHolding_scans : PartitionPoint.lastHolding.Scans where
  mono := rdropWhile_length_mono
  map := fun f pred items => by
    simp [PartitionPoint.lastHolding, List.rdropWhile, ← List.map_reverse, List.dropWhile_map,
      Function.comp_def]
  le_length := fun pred items => (List.rdropWhile_prefix _ items).length_le

/-- A nonempty stretch of a list without repetitions determines its cuts. -/
theorem cuts_unique {items : List α} (nodup : items.Nodup) {start stop start' stop' : Nat}
    (bounded : stop ≤ items.length) (bounded' : stop' ≤ items.length)
    (nonempty : (items.take stop).drop start ≠ [])
    (same : (items.take stop).drop start = (items.take stop').drop start') :
    start = start' ∧ stop = stop' := by
  have sizes := congrArg List.length same
  have size := List.length_pos_iff.mpr nonempty
  simp only [List.length_drop, List.length_take] at sizes size
  have heads : items[start]? = items[start']? := by
    have := congrArg (fun stretch => stretch[0]?) same
    simpa [List.getElem?_drop, List.getElem?_take, show start < stop by omega,
      show start' < stop' by omega] using this
  have starts : start = start' :=
    (List.getElem?_inj (by omega) nodup).mp heads
  omega

end Vpsiner.Lib
