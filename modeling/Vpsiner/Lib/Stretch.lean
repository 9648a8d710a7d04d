import Mathlib.Data.List.DropRight
import Mathlib.Data.List.Nodup

/-! Stretches of a list: the items from one position up to another. Positions do not change
while the list grows at its end. -/

set_option autoImplicit false

namespace Vpsiner.Lib

variable {α β : Type} {items : List α} {start middle stop : Nat}

def stretch (items : List α) (start stop : Nat) : List α := (items.take stop).drop start

theorem length_stretch (start : Nat) (inside : stop ≤ items.length) :
    (stretch items start stop).length = stop - start := by
  rw [stretch, List.length_drop, List.length_take, min_eq_left inside]

theorem stretch_self (items : List α) (start : Nat) : stretch items start start = [] := by
  rw [stretch, List.drop_eq_nil_iff, List.length_take]
  exact min_le_left _ _

theorem stretch_append_stretch (first : start ≤ middle) (second : middle ≤ stop) :
    stretch items start middle ++ stretch items middle stop = stretch items start stop := by
  unfold stretch
  have cut : items.take middle = (items.take stop).take middle := by
    rw [List.take_take, min_eq_left second]
  rw [cut, List.drop_take]
  calc ((items.take stop).drop start).take (middle - start) ++ (items.take stop).drop middle
      = ((items.take stop).drop start).take (middle - start) ++
          ((items.take stop).drop start).drop (middle - start) := by
        rw [List.drop_drop, Nat.add_sub_cancel' first]
    _ = (items.take stop).drop start := List.take_append_drop _ _

theorem stretch_of_longer {earlier : List α} (grown : earlier <+: items)
    (inside : stop ≤ earlier.length) : stretch earlier start stop = stretch items start stop := by
  obtain ⟨added, rfl⟩ := grown
  rw [stretch, stretch, List.take_append_of_le_length inside]

theorem stretch_infix (items : List α) (start stop : Nat) : stretch items start stop <:+: items :=
  (List.drop_suffix _ _).isInfix.trans (List.take_prefix _ _).isInfix

theorem take_append_stretch_append_drop (first : start ≤ stop) :
    items.take start ++ stretch items start stop ++ items.drop stop = items := by
  have whole := @stretch_append_stretch _ items 0 start stop (Nat.zero_le start) first
  rw [show items.take start = stretch items 0 start from rfl, whole]
  exact List.take_append_drop _ _

theorem rtake_take (inside : stop ≤ items.length) (count : Nat) :
    (items.take stop).rtake count = stretch items (stop - count) stop := by
  rw [List.rtake, List.length_take, min_eq_left inside]
  rfl

theorem take_drop (items : List α) (start count : Nat) :
    (items.drop start).take count = stretch items start (start + count) := by
  rw [stretch, List.drop_take, Nat.add_sub_cancel_left]

theorem stretch_min (items : List α) (start stop : Nat) :
    stretch items start (min stop items.length) = stretch items start stop := by
  unfold stretch
  rcases le_total stop items.length with inside | beyond
  · rw [min_eq_left inside]
  · rw [min_eq_right beyond, List.take_length, List.take_of_length_le beyond]

/-! ## Stretches by their keys -/

variable {key : α → β}

/-- Stretches one after the other share no key. -/
theorem key_not_mem_stretch (distinct : (items.map key).Nodup) {item : α}
    (first : start ≤ middle) (member : item ∈ stretch items middle stop) :
    key item ∉ (stretch items start middle).map key := by
  rcases le_total middle stop with second | empty
  · have whole : ((stretch items start stop).map key).Nodup :=
      distinct.sublist (((List.drop_sublist _ _).trans (List.take_sublist _ _)).map key)
    rw [← stretch_append_stretch first second, List.map_append] at whole
    exact fun inside => List.disjoint_of_nodup_append whole inside (List.mem_map_of_mem member)
  · have none : stretch items middle stop = [] := by
      rw [stretch, List.drop_eq_nil_iff]
      exact (List.length_take_le _ _).trans empty
    rw [none] at member
    exact absurd member List.not_mem_nil

/-- What is new to a reader of one stretch in another that begins inside it or at its end. -/
theorem filter_stretch [DecidableEq β] (distinct : (items.map key).Nodup) {left right : Nat}
    (first : start ≤ left) (touches : left ≤ stop) :
    (stretch items left right).filter (fun item => key item ∉ (stretch items start stop).map key) =
      stretch items stop right := by
  rcases le_total stop right with beyond | inside
  · have known : (stretch items left stop).filter
        (fun item => key item ∉ (stretch items start stop).map key) = [] := by
      refine List.filter_eq_nil_iff.mpr fun item member => ?_
      rw [decide_eq_true_eq, not_not, ← stretch_append_stretch first touches, List.map_append]
      exact List.mem_append_right _ (List.mem_map_of_mem member)
    have fresh : (stretch items stop right).filter
        (fun item => key item ∉ (stretch items start stop).map key) = stretch items stop right := by
      refine List.filter_eq_self.mpr fun item member => decide_eq_true ?_
      exact key_not_mem_stretch distinct (first.trans touches) member
    rw [← stretch_append_stretch touches beyond, List.filter_append, known, fresh, List.nil_append]
  · have none : stretch items stop right = [] := by
      rw [stretch, List.drop_eq_nil_iff]
      exact (List.length_take_le _ _).trans inside
    rw [none]
    refine List.filter_eq_nil_iff.mpr fun item member => ?_
    rw [decide_eq_true_eq, not_not]
    refine List.mem_map_of_mem ?_
    rcases le_total left right with forward | empty
    · rw [← stretch_append_stretch (first.trans forward) inside, ← stretch_append_stretch first forward]
      exact List.mem_append_left _ (List.mem_append_right _ member)
    · have nothing : stretch items left right = [] := by
        rw [stretch, List.drop_eq_nil_iff]
        exact (List.length_take_le _ _).trans empty
      rw [nothing] at member
      exact absurd member List.not_mem_nil

/-- A stretch with a key in it lies at one place only. -/
theorem eq_take_of_append (distinct : (items.map key).Nodup) {front back : List α}
    (inside : stop ≤ items.length) (nonempty : start < stop)
    (split : items = front ++ stretch items start stop ++ back) :
    front = items.take start ∧ back = items.drop stop := by
  have position : front.length = start := by
    have first : items[start]? = (stretch items start stop)[0]? := by
      rw [stretch, List.getElem?_drop, List.getElem?_take_of_lt (by omega), Nat.add_zero]
    have second : items[front.length]? = (stretch items start stop)[0]? := by
      conv_lhs => rw [split]
      rw [List.append_assoc, List.getElem?_append_right le_rfl, Nat.sub_self,
        List.getElem?_append_left (by rw [length_stretch _ inside]; omega)]
    have same : (items.map key)[front.length]? = (items.map key)[start]? := by
      rw [List.getElem?_map, List.getElem?_map, first, second]
    refine (List.getElem?_inj ?_ distinct).mp same
    have total := congrArg List.length split
    rw [List.length_append, List.length_append, length_stretch _ inside] at total
    rw [List.length_map]
    omega
  have lengths : (front ++ stretch items start stop).length = stop := by
    rw [List.length_append, length_stretch _ inside, position]
    omega
  constructor
  · have cut := congrArg (List.take start) split
    rwa [List.append_assoc, List.take_left' position, eq_comm] at cut
  · have cut := congrArg (List.drop stop) split
    rwa [List.drop_left' lengths, eq_comm] at cut

end Vpsiner.Lib
