import Vpsiner.Lib.PartitionPoint
import Mathlib.Order.Lattice

/-! One pass over a list that folds each run of items with equal keys into an
accumulator and closes the accumulator when the key changes. -/

set_option autoImplicit false

namespace Vpsiner.Lib

/-- How the items of one run are gathered and what a finished run yields. An
accumulator that received nothing yields nothing. -/
structure GroupedFold (σ κ γ ρ : Type) where
  key : σ → κ
  fresh : γ
  add : γ → σ → γ
  finish : γ → κ → Option ρ
  finish_fresh : ∀ k, finish fresh k = none

namespace GroupedFold

variable {σ κ γ ρ : Type} [DecidableEq κ]

/-- The pass, from the key and the accumulator of the run it is in. -/
def loop (fold : GroupedFold σ κ γ ρ) : List σ → κ → γ → List ρ
  | [], current, gathered => (fold.finish gathered current).toList
  | item :: rest, current, gathered =>
      if fold.key item ≠ current then
        (fold.finish gathered current).toList ++
          fold.loop rest (fold.key item) (fold.add fold.fresh item)
      else fold.loop rest current (fold.add gathered item)

/-- The pass from a start key that no run needs to have. -/
def run (fold : GroupedFold σ κ γ ρ) (start : κ) (items : List σ) : List ρ :=
  fold.loop items start fold.fresh

/-- What the items yield when they all belong to one run. -/
def close (fold : GroupedFold σ κ γ ρ) (items : List σ) (k : κ) : Option ρ :=
  fold.finish (items.foldl fold.add fold.fresh) k

@[simp] theorem run_nil (fold : GroupedFold σ κ γ ρ) (start : κ) : fold.run start [] = [] := by
  simp [run, loop, fold.finish_fresh]

/-- The start key is immaterial. -/
theorem run_cons (fold : GroupedFold σ κ γ ρ) (start : κ) (item : σ) (rest : List σ) :
    fold.run start (item :: rest) =
      fold.loop rest (fold.key item) (fold.add fold.fresh item) := by
  unfold run
  rw [loop]
  split
  · simp [fold.finish_fresh]
  · next same => rw [not_not.mp same]

private theorem loop_append (fold : GroupedFold σ κ γ ρ) (start : κ) {front back : List σ}
    {current : κ} (gathered : γ) (fresh : ∀ item ∈ back, fold.key item ≠ current)
    (apart : ∀ left ∈ front, ∀ right ∈ back, fold.key left ≠ fold.key right) :
    fold.loop (front ++ back) current gathered =
      fold.loop front current gathered ++ fold.run start back := by
  induction front generalizing current gathered with
  | nil =>
      cases back with
      | nil => simp [loop]
      | cons item rest =>
          rw [run_cons, List.nil_append]
          simp only [loop]
          rw [if_pos (fresh item List.mem_cons_self)]
  | cons head tail ih =>
      have tailApart : ∀ left ∈ tail, ∀ right ∈ back, fold.key left ≠ fold.key right :=
        fun left member => apart left (List.mem_cons_of_mem _ member)
      rw [List.cons_append, loop, loop]
      split
      · rw [ih _ (fun item member => (apart head List.mem_cons_self item member).symm) tailApart,
          List.append_assoc]
      · exact ih _ fresh tailApart

/-- Lists without a common key are folded independently. -/
theorem run_append (fold : GroupedFold σ κ γ ρ) (start : κ) {front back : List σ}
    (apart : ∀ left ∈ front, ∀ right ∈ back, fold.key left ≠ fold.key right) :
    fold.run start (front ++ back) = fold.run start front ++ fold.run start back := by
  cases front with
  | nil => simp
  | cons head tail =>
      rw [List.cons_append, run_cons, run_cons]
      exact fold.loop_append start _
        (fun item member => (apart head List.mem_cons_self item member).symm)
        fun left member => apart left (List.mem_cons_of_mem _ member)

private theorem loop_same (fold : GroupedFold σ κ γ ρ) {items : List σ} {k : κ} (gathered : γ)
    (same : ∀ item ∈ items, fold.key item = k) :
    fold.loop items k gathered = (fold.finish (items.foldl fold.add gathered) k).toList := by
  induction items generalizing gathered with
  | nil => rfl
  | cons head tail ih =>
      rw [loop, if_neg (not_not.mpr (same head List.mem_cons_self))]
      exact ih _ fun item member => same item (List.mem_cons_of_mem _ member)

theorem run_same (fold : GroupedFold σ κ γ ρ) (start : κ) {items : List σ} {k : κ}
    (same : ∀ item ∈ items, fold.key item = k) :
    fold.run start items = (fold.close items k).toList := by
  cases items with
  | nil => simp [close, fold.finish_fresh]
  | cons head tail =>
      rw [run_cons, same head List.mem_cons_self]
      exact fold.loop_same _ fun item member => same item (List.mem_cons_of_mem _ member)

private theorem mem_loop (fold : GroupedFold σ κ γ ρ) {items : List σ} {current : κ} {gathered : γ}
    {point : ρ} (member : point ∈ fold.loop items current gathered) :
    ∃ acc k, fold.finish acc k = some point ∧ (k = current ∨ ∃ item ∈ items, k = fold.key item) := by
  induction items generalizing current gathered with
  | nil => exact ⟨gathered, current, by simpa [loop] using member, .inl rfl⟩
  | cons head tail ih =>
      rw [loop] at member
      split at member
      · rcases List.mem_append.mp member with closed | later
        · exact ⟨gathered, current, by simpa using closed, .inl rfl⟩
        · obtain ⟨acc, k, finished, origin⟩ := ih later
          refine ⟨acc, k, finished, .inr ?_⟩
          rcases origin with rfl | ⟨item, itemMember, rfl⟩
          · exact ⟨head, List.mem_cons_self, rfl⟩
          · exact ⟨item, List.mem_cons_of_mem _ itemMember, rfl⟩
      · obtain ⟨acc, k, finished, origin⟩ := ih member
        refine ⟨acc, k, finished, origin.imp_right ?_⟩
        rintro ⟨item, itemMember, rfl⟩
        exact ⟨item, List.mem_cons_of_mem _ itemMember, rfl⟩

theorem mem_run (fold : GroupedFold σ κ γ ρ) {start : κ} {items : List σ} {point : ρ}
    (member : point ∈ fold.run start items) :
    ∃ acc, ∃ item ∈ items, fold.finish acc (fold.key item) = some point := by
  cases items with
  | nil => simp at member
  | cons head tail =>
      rw [run_cons] at member
      obtain ⟨acc, k, finished, origin⟩ := fold.mem_loop member
      rcases origin with rfl | ⟨item, itemMember, rfl⟩
      · exact ⟨acc, head, List.mem_cons_self, finished⟩
      · exact ⟨acc, item, List.mem_cons_of_mem _ itemMember, finished⟩

/-- The accumulators that the pass goes through. -/
def visited (fold : GroupedFold σ κ γ ρ) : List σ → κ → γ → List γ
  | [], _, gathered => [gathered]
  | item :: rest, current, gathered =>
      gathered :: if fold.key item ≠ current then
        fold.visited rest (fold.key item) (fold.add fold.fresh item)
      else fold.visited rest current (fold.add gathered item)

private theorem sublist_of_mem_visited (fold : GroupedFold σ κ γ ρ) (part : List σ)
    {items : List σ} {current : κ} {gathered : γ}
    (member : gathered ∈ fold.visited items current (part.foldl fold.add fold.fresh)) :
    ∃ block : List σ, block.Sublist (part ++ items) ∧
      gathered = block.foldl fold.add fold.fresh := by
  induction items generalizing part current with
  | nil =>
      simp only [visited, List.mem_singleton] at member
      exact ⟨part, by simp, member⟩
  | cons item rest ih =>
      rcases List.mem_cons.mp member with here | later
      · exact ⟨part, by simp, here⟩
      · split at later
        · obtain ⟨block, inside, same⟩ := ih [item] later
          exact ⟨block, inside.trans (List.sublist_append_right part (item :: rest)), same⟩
        · obtain ⟨block, inside, same⟩ := ih (part ++ [item]) (by simpa using later)
          exact ⟨block, by simpa using inside, same⟩

theorem mem_visited (fold : GroupedFold σ κ γ ρ) {start : κ} {items : List σ} {gathered : γ}
    (member : gathered ∈ fold.visited items start fold.fresh) :
    ∃ block : List σ, block.Sublist items ∧ gathered = block.foldl fold.add fold.fresh :=
  fold.sublist_of_mem_visited [] member

section Ordered

variable {κ : Type} [LinearOrder κ]

/-- In key order the items below `bound` come first. -/
private theorem split_below (fold : GroupedFold σ κ γ ρ) (bound : κ) {items : List σ}
    (ordered : items.Pairwise fun earlier later => fold.key earlier ≤ fold.key later) :
    items.filter (fun item => fold.key item < bound) ++
      items.filter (fun item => bound ≤ fold.key item) = items := by
  have cut : Partitioned (fun item => decide (fold.key item < bound)) items :=
    Partitioned.of_sorted ordered fun {earlier later} le later => by
      simpa using lt_of_le_of_lt le (by simpa using later)
  have rest : items.filter (fun item => bound ≤ fold.key item) =
      items.filter (fun item => !decide (fold.key item < bound)) :=
    List.filter_congr fun item _ => by rw [← decide_not, decide_eq_decide, not_lt]
  rw [rest, ← cut.takeWhile_eq_filter, ← cut.dropWhile_eq_filter,
    List.takeWhile_append_dropWhile]

theorem run_split (fold : GroupedFold σ κ γ ρ) (start bound : κ) {items : List σ}
    (ordered : items.Pairwise fun earlier later => fold.key earlier ≤ fold.key later) :
    fold.run start items =
      fold.run start (items.filter fun item => fold.key item < bound) ++
        fold.run start (items.filter fun item => bound ≤ fold.key item) := by
  have apart : ∀ left ∈ items.filter (fun item => fold.key item < bound),
      ∀ right ∈ items.filter (fun item => bound ≤ fold.key item),
        fold.key left ≠ fold.key right := by
    intro left leftMember right rightMember
    have leftBelow : fold.key left < bound := by simpa using (List.mem_filter.mp leftMember).2
    have rightAbove : bound ≤ fold.key right := by simpa using (List.mem_filter.mp rightMember).2
    exact (lt_of_lt_of_le leftBelow rightAbove).ne
  rw [← fold.run_append start apart, fold.split_below bound ordered]

variable {pointKey : ρ → κ}

private theorem pointKey_mem (fold : GroupedFold σ κ γ ρ)
    (pointKey_finish : ∀ {acc k point}, fold.finish acc k = some point → pointKey point = k)
    {start : κ} {items : List σ} {point : ρ} (member : point ∈ fold.run start items) :
    ∃ item ∈ items, pointKey point = fold.key item := by
  obtain ⟨acc, item, itemMember, finished⟩ := fold.mem_run member
  exact ⟨item, itemMember, pointKey_finish finished⟩

/-- With items in key order, leaving out the runs from `bound` on before the pass
or their results after it comes to the same. -/
theorem run_filter_below (fold : GroupedFold σ κ γ ρ)
    (pointKey_finish : ∀ {acc k point}, fold.finish acc k = some point → pointKey point = k)
    (start bound : κ) {items : List σ}
    (ordered : items.Pairwise fun earlier later => fold.key earlier ≤ fold.key later) :
    fold.run start (items.filter fun item => fold.key item < bound) =
      (fold.run start items).filter fun point => pointKey point < bound := by
  rw [fold.run_split start bound ordered, List.filter_append]
  have kept : (fold.run start (items.filter fun item => fold.key item < bound)).filter
      (fun point => pointKey point < bound) =
        fold.run start (items.filter fun item => fold.key item < bound) := by
    refine List.filter_eq_self.mpr fun point member => ?_
    obtain ⟨item, itemMember, same⟩ := fold.pointKey_mem pointKey_finish member
    simpa [same] using (List.mem_filter.mp itemMember).2
  have dropped : (fold.run start (items.filter fun item => bound ≤ fold.key item)).filter
      (fun point => pointKey point < bound) = [] := by
    refine List.filter_eq_nil_iff.mpr fun point member => ?_
    obtain ⟨item, itemMember, same⟩ := fold.pointKey_mem pointKey_finish member
    simpa [same] using (List.mem_filter.mp itemMember).2
  rw [kept, dropped, List.append_nil]

theorem head_le {key : σ → κ} {head item : σ} {tail : List σ}
    (ordered : (head :: tail).Pairwise fun earlier later => key earlier ≤ key later)
    (member : item ∈ head :: tail) : key head ≤ key item := by
  rcases List.mem_cons.mp member with rfl | later
  · exact le_rfl
  · exact (List.pairwise_cons.mp ordered).1 item later

/-- The first run and the pass over what follows it. -/
theorem run_block (fold : GroupedFold σ κ γ ρ) (start : κ) {head : σ} {tail : List σ}
    (ordered : (head :: tail).Pairwise fun earlier later => fold.key earlier ≤ fold.key later) :
    fold.run start (head :: tail) =
      (fold.close ((head :: tail).filter fun item => fold.key item = fold.key head)
        (fold.key head)).toList ++
        fold.run start ((head :: tail).filter fun item => fold.key head < fold.key item) := by
  have least : ∀ item ∈ head :: tail, fold.key head ≤ fold.key item :=
    fun item member => head_le ordered member
  have cut : Partitioned (fun item => decide (fold.key item = fold.key head)) (head :: tail) :=
    ordered.imp_of_mem fun {earlier later} earlierMember laterMember le same => by
      simp only [decide_eq_true_eq] at same ⊢
      exact le_antisymm (same ▸ le) (least earlier earlierMember)
  have rest : (head :: tail).filter (fun item => fold.key head < fold.key item) =
      (head :: tail).filter (fun item => !decide (fold.key item = fold.key head)) := by
    refine List.filter_congr fun item member => ?_
    have := least item member
    rw [← decide_not, decide_eq_decide]
    exact ⟨fun above same => above.ne same.symm,
      fun different => lt_of_le_of_ne this fun same => different same.symm⟩
  have split : (head :: tail).filter (fun item => fold.key item = fold.key head) ++
      (head :: tail).filter (fun item => fold.key head < fold.key item) = head :: tail := by
    rw [rest, ← cut.takeWhile_eq_filter, ← cut.dropWhile_eq_filter,
      List.takeWhile_append_dropWhile]
  rw [← fold.run_same start (k := fold.key head), ← fold.run_append start, split]
  · intro left leftMember right rightMember
    have leftSame : fold.key left = fold.key head := by
      simpa using (List.mem_filter.mp leftMember).2
    have rightAbove : fold.key head < fold.key right := by
      simpa using (List.mem_filter.mp rightMember).2
    exact leftSame ▸ rightAbove.ne
  · intro item member
    simpa using (List.mem_filter.mp member).2

/-- Induction over the runs of items in key order: a run goes before what has greater keys. -/
theorem run_induction {key : σ → κ}
    {motive : (items : List σ) →
      items.Pairwise (fun earlier later => key earlier ≤ key later) → Prop}
    (nil : motive [] .nil)
    (run : ∀ head tail ordered, motive ((head :: tail).filter fun item => key head < key item)
      (ordered.filter _) → motive (head :: tail) ordered)
    (items : List σ) (ordered : items.Pairwise fun earlier later => key earlier ≤ key later) :
    motive items ordered := by
  induction size : items.length using Nat.strong_induction_on generalizing items with
  | _ count ih =>
      cases items with
      | nil => exact nil
      | cons head tail =>
          have shorter : ((head :: tail).filter fun item => key head < key item).length < count := by
            rw [← size, List.length_filter_lt_length_iff_exists]
            exact ⟨head, List.mem_cons_self, by simp⟩
          exact run head tail ordered (ih _ shorter _ _ rfl)

/-- With items in key order the pass yields, for each key that occurs, what the
items with that key close to. -/
theorem mem_run_iff (fold : GroupedFold σ κ γ ρ) {start : κ} {items : List σ}
    (ordered : items.Pairwise fun earlier later => fold.key earlier ≤ fold.key later)
    {point : ρ} :
    point ∈ fold.run start items ↔ ∃ item ∈ items,
      fold.close (items.filter fun other => fold.key other = fold.key item) (fold.key item) =
        some point := by
  induction items, ordered using run_induction with
  | nil => simp
  | run head tail ordered later =>
      rw [fold.run_block start ordered, List.mem_append, later, Option.mem_toList]
      have refilter : ∀ {k}, fold.key head < k →
          ((head :: tail).filter fun item => fold.key head < fold.key item).filter
            (fun other => fold.key other = k) =
              (head :: tail).filter fun other => fold.key other = k := by
        intro k above
        rw [List.filter_filter]
        refine List.filter_congr fun other _ => ?_
        by_cases same : fold.key other = k <;> simp [same, above]
      constructor
      · rintro (closed | ⟨item, member, closed⟩)
        · exact ⟨head, List.mem_cons_self, closed⟩
        · obtain ⟨present, above⟩ := List.mem_filter.mp member
          rw [refilter (by simpa using above)] at closed
          exact ⟨item, present, closed⟩
      · rintro ⟨item, member, closed⟩
        rcases (head_le ordered member).eq_or_lt with same | above
        · rw [same]
          exact .inl closed
        · refine .inr ⟨item, List.mem_filter.mpr ⟨member, by simpa using above⟩, ?_⟩
          rwa [refilter above]

theorem ordered_run (fold : GroupedFold σ κ γ ρ)
    (pointKey_finish : ∀ {acc k point}, fold.finish acc k = some point → pointKey point = k)
    {start : κ} {items : List σ}
    (ordered : items.Pairwise fun earlier later => fold.key earlier ≤ fold.key later) :
    (fold.run start items).Pairwise fun earlier later => pointKey earlier < pointKey later := by
  induction items, ordered using run_induction with
  | nil => simp
  | run head tail ordered later =>
      rw [fold.run_block start ordered]
      refine List.pairwise_append.mpr ⟨?_, later, ?_⟩
      · cases fold.close _ _ <;> simp
      · intro first firstMember second secondMember
        obtain ⟨item, member, same⟩ := fold.pointKey_mem pointKey_finish secondMember
        have above : fold.key head < fold.key item := by
          simpa using (List.mem_filter.mp member).2
        rw [same, pointKey_finish (Option.mem_toList.mp firstMember)]
        exact above

end Ordered

end GroupedFold

end Vpsiner.Lib
