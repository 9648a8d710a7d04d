import Mathlib.Data.List.Perm.Basic
import Mathlib.Logic.Function.Basic

/-! A pair of partial maps that is kept as the two directions of one list of pairs. -/

set_option autoImplicit false

namespace Vpsiner.Lib

variable {α β : Type}

/-- Both maps hold exactly the pairs, and each side of a pair determines the other. -/
structure Mirrors (forward : α → Option β) (backward : β → Option α) (pairs : List (α × β)) :
    Prop where
  firsts : (pairs.map Prod.fst).Nodup
  seconds : (pairs.map Prod.snd).Nodup
  forward_iff : ∀ a b, forward a = some b ↔ (a, b) ∈ pairs
  backward_iff : ∀ a b, backward b = some a ↔ (a, b) ∈ pairs

namespace Mirrors

variable {forward : α → Option β} {backward : β → Option α} {pairs more : List (α × β)}

theorem inverse (mirrors : Mirrors forward backward pairs) (a : α) (b : β) :
    forward a = some b ↔ backward b = some a := by
  rw [mirrors.forward_iff, mirrors.backward_iff]

theorem perm (mirrors : Mirrors forward backward pairs) (same : pairs.Perm more) :
    Mirrors forward backward more where
  firsts := (same.map Prod.fst).nodup_iff.mp mirrors.firsts
  seconds := (same.map Prod.snd).nodup_iff.mp mirrors.seconds
  forward_iff a b := by rw [mirrors.forward_iff, same.mem_iff]
  backward_iff a b := by rw [mirrors.backward_iff, same.mem_iff]

theorem second_unique (mirrors : Mirrors forward backward pairs) {a : α} {first second : β}
    (one : (a, first) ∈ pairs) (two : (a, second) ∈ pairs) : first = second := by
  have present := (mirrors.forward_iff a first).mpr one
  rw [(mirrors.forward_iff a second).mpr two] at present
  exact (Option.some.inj present).symm

theorem first_unique (mirrors : Mirrors forward backward pairs) {b : β} {first second : α}
    (one : (first, b) ∈ pairs) (two : (second, b) ∈ pairs) : first = second := by
  have present := (mirrors.backward_iff first b).mpr one
  rw [(mirrors.backward_iff second b).mpr two] at present
  exact (Option.some.inj present).symm

theorem nil : Mirrors (fun _ : α => (none : Option β)) (fun _ => none) [] where
  firsts := .nil
  seconds := .nil
  forward_iff a b := by simp
  backward_iff a b := by simp

/-- What is in neither map needs no erasing. -/
theorem erase_absent [DecidableEq β] (mirrors : Mirrors forward backward pairs) {b : β}
    (absent : backward b = none) : (pairs.filter fun pair => pair.2 ≠ b) = pairs := by
  refine List.filter_eq_self.mpr fun pair member => decide_eq_true fun same => ?_
  have present := (mirrors.backward_iff pair.1 pair.2).mpr member
  rw [same, absent] at present
  cases present

variable [DecidableEq α] [DecidableEq β]

theorem insert (mirrors : Mirrors forward backward pairs) {a : α} {b : β}
    (newFirst : a ∉ pairs.map Prod.fst) (newSecond : b ∉ pairs.map Prod.snd) :
    Mirrors (Function.update forward a (some b)) (Function.update backward b (some a))
      ((a, b) :: pairs) where
  firsts := List.nodup_cons.mpr ⟨newFirst, mirrors.firsts⟩
  seconds := List.nodup_cons.mpr ⟨newSecond, mirrors.seconds⟩
  forward_iff other value := by
    rw [Function.update_apply, List.mem_cons, Prod.mk.injEq]
    split
    · next same =>
        subst same
        constructor
        · intro present
          exact .inl ⟨rfl, (Option.some.inj present).symm⟩
        · intro present
          cases present with
          | inl same => rw [same.2]
          | inr old => exact absurd (List.mem_map_of_mem old) newFirst
    · next different =>
        rw [mirrors.forward_iff]
        exact ⟨.inr, fun present => present.resolve_left fun same => different same.1⟩
  backward_iff value other := by
    rw [Function.update_apply, List.mem_cons, Prod.mk.injEq]
    split
    · next same =>
        subst same
        constructor
        · intro present
          exact .inl ⟨(Option.some.inj present).symm, rfl⟩
        · intro present
          cases present with
          | inl same => rw [same.1]
          | inr old => exact absurd (List.mem_map_of_mem old) newSecond
    · next different =>
        rw [mirrors.backward_iff]
        exact ⟨.inr, fun present => present.resolve_left fun same => different same.2⟩

theorem erase (mirrors : Mirrors forward backward pairs) {a : α} {b : β}
    (member : (a, b) ∈ pairs) :
    Mirrors (Function.update forward a none) (Function.update backward b none)
      (pairs.filter fun pair => pair.2 ≠ b) where
  firsts := mirrors.firsts.sublist (List.filter_sublist.map Prod.fst)
  seconds := mirrors.seconds.sublist (List.filter_sublist.map Prod.snd)
  forward_iff other value := by
    rw [Function.update_apply, List.mem_filter, decide_eq_true_eq]
    split
    · next same =>
        subst same
        refine iff_of_false (fun absent => by cases absent) fun kept => ?_
        exact kept.2 (mirrors.second_unique kept.1 member)
    · next different =>
        rw [mirrors.forward_iff]
        refine ⟨fun present => ⟨present, fun same => different ?_⟩, fun kept => kept.1⟩
        subst same
        exact mirrors.first_unique present member
  backward_iff value other := by
    rw [Function.update_apply, List.mem_filter, decide_eq_true_eq]
    split
    · next same => exact iff_of_false (fun absent => by cases absent) fun kept => kept.2 same
    · next different =>
        rw [mirrors.backward_iff]
        exact ⟨fun present => ⟨present, different⟩, fun kept => kept.1⟩

end Mirrors

end Vpsiner.Lib
