import Mathlib.Data.List.Basic
import Vpsiner.Lib.Paging

/-! Searching a list in strict key order for the first and the last element with a
property, and the slice between two of its elements. -/

set_option autoImplicit false

namespace Vpsiner.Lib

open Paging

variable {α κ : Type} [LinearOrder κ] {key : α → κ} {accepts : α → Bool} {list : List α}
  {element other : α} {index : Nat}

/-- No accepted element comes before this one. -/
structure IsFirst (key : α → κ) (accepts : α → Bool) (list : List α) (element : α) : Prop where
  mem : element ∈ list
  accepted : accepts element = true
  least : ∀ other ∈ list, accepts other = true → key element ≤ key other

/-- No accepted element comes after this one. -/
structure IsLast (key : α → κ) (accepts : α → Bool) (list : List α) (element : α) : Prop where
  mem : element ∈ list
  accepted : accepts element = true
  greatest : ∀ other ∈ list, accepts other = true → key other ≤ key element

def rposition (accepts : α → Bool) (list : List α) : Option Nat :=
  (list.reverse.findIdx? accepts).map fun index => list.length - 1 - index

section Ascending

variable (ascending : Ascending key list)
include ascending

theorem eq_of_key_eq (member : element ∈ list) (otherMember : other ∈ list)
    (same : key element = key other) : element = other := by
  obtain ⟨before, after, rfl⟩ := List.append_of_mem member
  obtain ⟨_, later, earlier⟩ := List.pairwise_append.mp ascending
  cases List.mem_append.mp otherMember with
  | inl inside => exact absurd same (earlier other inside element List.mem_cons_self).ne'
  | inr inside =>
      cases List.mem_cons.mp inside with
      | inl equal => exact equal.symm
      | inr beyond => exact absurd same ((List.pairwise_cons.mp later).1 other beyond).ne

theorem IsFirst.unique (first : IsFirst key accepts list element)
    (second : IsFirst key accepts list other) : element = other :=
  eq_of_key_eq ascending first.mem second.mem
    (le_antisymm (first.least _ second.mem second.accepted)
      (second.least _ first.mem first.accepted))

theorem IsLast.unique (first : IsLast key accepts list element)
    (second : IsLast key accepts list other) : element = other :=
  eq_of_key_eq ascending first.mem second.mem
    (le_antisymm (second.greatest _ first.mem first.accepted)
      (first.greatest _ second.mem second.accepted))

theorem isFirst_iff_split : IsFirst key accepts list element ↔
    accepts element = true ∧ ∃ before after, list = before ++ element :: after ∧
      ∀ other ∈ before, accepts other = false := by
  constructor
  · intro first
    obtain ⟨before, after, rfl⟩ := List.append_of_mem first.mem
    refine ⟨first.accepted, before, after, rfl, fun other inside => ?_⟩
    rw [← Bool.not_eq_true]
    intro accepted
    have earlier := (List.pairwise_append.mp ascending).2.2 other inside element List.mem_cons_self
    exact absurd earlier (not_lt.mpr
      (first.least other (List.mem_append_left _ inside) accepted))
  · intro split
    obtain ⟨accepted, before, after, rfl, rejected⟩ := split
    refine ⟨by simp, accepted, fun other inside admitted => ?_⟩
    cases List.mem_append.mp inside with
    | inl earlier =>
        rw [rejected other earlier] at admitted
        cases admitted
    | inr later =>
        have ordered : Ascending key (element :: after) := (List.pairwise_append.mp ascending).2.1
        exact ordered.head?_le rfl later

theorem find?_eq_some_iff_isFirst :
    list.find? accepts = some element ↔ IsFirst key accepts list element := by
  rw [isFirst_iff_split ascending, List.find?_eq_some_iff_append]
  simp only [Bool.not_eq_true']

theorem getLast?_filter_eq_some_iff_isLast :
    (list.filter accepts).getLast? = some element ↔ IsLast key accepts list element := by
  constructor
  · intro found
    obtain ⟨inside, accepted⟩ := List.mem_filter.mp (List.mem_of_getLast? found)
    refine ⟨inside, accepted, fun other member admitted => ?_⟩
    have kept : Ascending key (list.filter accepts) := ascending.filter _
    exact kept.le_getLast? found (List.mem_filter.mpr ⟨member, admitted⟩)
  · intro last
    have present : element ∈ list.filter accepts := List.mem_filter.mpr ⟨last.mem, last.accepted⟩
    obtain ⟨newest, found⟩ : ∃ newest, (list.filter accepts).getLast? = some newest :=
      ⟨_, List.getLast?_eq_some_getLast (List.ne_nil_of_mem present)⟩
    obtain ⟨inside, accepted⟩ := List.mem_filter.mp (List.mem_of_getLast? found)
    have kept : Ascending key (list.filter accepts) := ascending.filter _
    rw [found, eq_of_key_eq ascending inside last.mem
      (le_antisymm (last.greatest newest inside accepted) (kept.le_getLast? found present))]

theorem exists_isFirst (member : element ∈ list) (accepted : accepts element = true) :
    ∃ first, IsFirst key accepts list first := by
  cases found : list.find? accepts with
  | none => exact absurd accepted (List.find?_eq_none.mp found element member)
  | some first => exact ⟨first, (find?_eq_some_iff_isFirst ascending).mp found⟩

theorem exists_isLast (member : element ∈ list) (accepted : accepts element = true) :
    ∃ last, IsLast key accepts list last := by
  have present : element ∈ list.filter accepts := List.mem_filter.mpr ⟨member, accepted⟩
  exact ⟨_, (getLast?_filter_eq_some_iff_isLast ascending).mp
    (List.getLast?_eq_some_getLast (List.ne_nil_of_mem present))⟩

theorem findIdx?_eq_some_iff_isFirst : list.findIdx? accepts = some index ↔
    ∃ element, list[index]? = some element ∧ IsFirst key accepts list element := by
  have ordered := List.pairwise_iff_getElem.mp ascending
  rw [List.findIdx?_eq_some_iff_getElem]
  constructor
  · intro found
    obtain ⟨within, accepted, rejected⟩ := found
    refine ⟨list[index], List.getElem?_eq_getElem within, List.getElem_mem within, accepted, ?_⟩
    intro other inside admitted
    obtain ⟨place, bound, rfl⟩ := List.getElem_of_mem inside
    cases Nat.lt_trichotomy place index with
    | inl earlier => exact absurd admitted (rejected place earlier)
    | inr rest =>
        cases rest with
        | inl same =>
            subst same
            exact le_refl _
        | inr later => exact (ordered index place within bound later).le
  · intro found
    obtain ⟨element, here, first⟩ := found
    obtain ⟨within, rfl⟩ := List.getElem?_eq_some_iff.mp here
    refine ⟨within, first.accepted, fun place earlier admitted => ?_⟩
    have bound := Nat.lt_trans earlier within
    exact absurd (ordered place index bound within earlier)
      (not_lt.mpr (first.least _ (List.getElem_mem bound) admitted))

theorem rposition_eq_some_iff_isLast : rposition accepts list = some index ↔
    ∃ element, list[index]? = some element ∧ IsLast key accepts list element := by
  have descending : Ascending (fun element => OrderDual.toDual (key element)) list.reverse :=
    List.pairwise_reverse.mpr ascending
  have turned : ∀ {element : α}, IsFirst (fun element => OrderDual.toDual (key element)) accepts
      list.reverse element ↔ IsLast key accepts list element := by
    intro element
    constructor
    · intro first
      exact ⟨List.mem_reverse.mp first.mem, first.accepted, fun other inside admitted =>
        first.least other (List.mem_reverse.mpr inside) admitted⟩
    · intro last
      exact ⟨List.mem_reverse.mpr last.mem, last.accepted, fun other inside admitted =>
        last.greatest other (List.mem_reverse.mp inside) admitted⟩
  rw [rposition, Option.map_eq_some_iff]
  constructor
  · intro found
    obtain ⟨place, here, same⟩ := found
    obtain ⟨element, there, first⟩ := (findIdx?_eq_some_iff_isFirst descending).mp here
    obtain ⟨within, _⟩ := List.getElem?_eq_some_iff.mp there
    rw [List.length_reverse] at within
    rw [List.getElem?_reverse within, same] at there
    exact ⟨element, there, turned.mp first⟩
  · intro found
    obtain ⟨element, here, last⟩ := found
    obtain ⟨within, _⟩ := List.getElem?_eq_some_iff.mp here
    refine ⟨list.length - 1 - index, (findIdx?_eq_some_iff_isFirst descending).mpr
      ⟨element, ?_, turned.mpr last⟩, by omega⟩
    rw [List.getElem?_reverse (by omega), show list.length - 1 - (list.length - 1 - index) = index
      by omega]
    exact here

theorem drop_eq_filter (here : list[index]? = some element) :
    list.drop index = list.filter fun other => key element ≤ key other := by
  obtain ⟨within, rfl⟩ := List.getElem?_eq_some_iff.mp here
  have split := List.take_append_drop index list
  have start := List.drop_eq_getElem_cons within
  have parts := List.pairwise_append.mp (split ▸ ascending)
  have later : Ascending key (list[index] :: list.drop (index + 1)) := start ▸ parts.2.1
  have nothing : ((list.take index).filter fun other => key list[index] ≤ key other) = [] := by
    refine List.filter_eq_nil_iff.mpr fun other inside => ?_
    rw [decide_eq_true_eq, not_le]
    refine parts.2.2 other inside list[index] ?_
    rw [start]
    exact List.mem_cons_self
  calc list.drop index
      = (list.drop index).filter fun other => key list[index] ≤ key other := by
        refine (List.filter_eq_self.mpr fun other inside => decide_eq_true ?_).symm
        rw [start] at inside
        exact later.head?_le rfl inside
    _ = (list.take index ++ list.drop index).filter fun other => key list[index] ≤ key other := by
        rw [List.filter_append, nothing, List.nil_append]
    _ = list.filter fun other => key list[index] ≤ key other := by rw [split]

theorem take_eq_filter (here : list[index]? = some element) :
    list.take (index + 1) = list.filter fun other => key other ≤ key element := by
  obtain ⟨within, rfl⟩ := List.getElem?_eq_some_iff.mp here
  have split := List.take_append_drop (index + 1) list
  have parts := List.pairwise_append.mp (split ▸ ascending)
  have ends : (list.take (index + 1)).getLast? = some list[index] := by
    rw [List.take_succ_eq_append_getElem within, List.getLast?_concat]
  have earlier : Ascending key (list.take (index + 1)) := parts.1
  have nothing : ((list.drop (index + 1)).filter fun other => key other ≤ key list[index]) = [] := by
    refine List.filter_eq_nil_iff.mpr fun other inside => ?_
    rw [decide_eq_true_eq, not_le]
    exact parts.2.2 list[index] (List.mem_of_getLast? ends) other inside
  calc list.take (index + 1)
      = (list.take (index + 1)).filter fun other => key other ≤ key list[index] := by
        refine (List.filter_eq_self.mpr fun other inside => decide_eq_true ?_).symm
        exact earlier.le_getLast? ends inside
    _ = (list.take (index + 1) ++ list.drop (index + 1)).filter
          fun other => key other ≤ key list[index] := by
        rw [List.filter_append, nothing, List.append_nil]
    _ = list.filter fun other => key other ≤ key list[index] := by rw [split]

/-- The slice between two elements holds what lies between their keys. -/
theorem slice_eq_filter {start stop : Nat} {first last : α} (order : start ≤ stop)
    (left : list[start]? = some first) (right : list[stop]? = some last) :
    (list.take (stop + 1)).drop start =
      list.filter fun other => key first ≤ key other ∧ key other ≤ key last := by
  have inside : (list.take (stop + 1))[start]? = some first := by
    rw [List.getElem?_take_of_lt (Nat.lt_succ_of_le order)]
    exact left
  have part : Ascending key (list.take (stop + 1)) := ascending.sublist (List.take_sublist _ _)
  rw [drop_eq_filter part inside, take_eq_filter ascending right, List.filter_filter]
  refine List.filter_congr fun other _ => ?_
  rw [Bool.decide_and]

theorem lt_of_key_lt {first second : Nat} {earlier later : α} (left : list[first]? = some earlier)
    (right : list[second]? = some later) (before : key earlier < key later) : first < second := by
  obtain ⟨firstBound, rfl⟩ := List.getElem?_eq_some_iff.mp left
  obtain ⟨secondBound, rfl⟩ := List.getElem?_eq_some_iff.mp right
  by_contra crossed
  cases Nat.eq_or_lt_of_le (Nat.le_of_not_lt crossed) with
  | inl same =>
      subst same
      exact lt_irrefl _ before
  | inr after =>
      exact lt_asymm before
        (List.pairwise_iff_getElem.mp ascending second first secondBound firstBound after)

theorem pairwise_iff_forall {related : α → α → Prop} : list.Pairwise related ↔
    ∀ earlier ∈ list, ∀ later ∈ list, key earlier < key later → related earlier later := by
  constructor
  · intro along earlier inside later laterInside before
    obtain ⟨first, left⟩ := List.getElem?_of_mem inside
    obtain ⟨second, right⟩ := List.getElem?_of_mem laterInside
    have order := lt_of_key_lt ascending left right before
    obtain ⟨firstBound, rfl⟩ := List.getElem?_eq_some_iff.mp left
    obtain ⟨secondBound, rfl⟩ := List.getElem?_eq_some_iff.mp right
    exact List.pairwise_iff_getElem.mp along first second firstBound secondBound order
  · intro all
    exact ascending.imp_of_mem fun inside laterInside before =>
      all _ inside _ laterInside before

theorem exists_append_above (bound : κ) :
    ∃ earlier, earlier ++ above key bound list = list ∧ ∀ other ∈ earlier, key other ≤ bound := by
  induction list with
  | nil => exact ⟨[], rfl, nofun⟩
  | cons first rest ih =>
      obtain ⟨before, onward⟩ := List.pairwise_cons.mp ascending
      by_cases later : bound < key first
      · refine ⟨[], ?_, nofun⟩
        refine List.filter_eq_self.mpr fun other inside => decide_eq_true ?_
        cases List.mem_cons.mp inside with
        | inl same => exact same ▸ later
        | inr beyond => exact later.trans (before other beyond)
      · obtain ⟨earlier, split, below⟩ := ih onward
        refine ⟨first :: earlier, ?_, fun other inside => ?_⟩
        · rw [above, List.filter_cons_of_neg (by simpa using later), List.cons_append]
          exact congrArg (first :: ·) split
        · cases List.mem_cons.mp inside with
          | inl same => exact same ▸ not_lt.mp later
          | inr beyond => exact below other beyond

end Ascending

/-! ## Behind elements that are not accepted -/

section Skipped

variable {skipped kept : List α} (rejected : ∀ element ∈ skipped, accepts element = false)
include rejected

theorem findIdx?_append_of_rejected : (skipped ++ kept).findIdx? accepts =
    (kept.findIdx? accepts).map (· + skipped.length) := by
  rw [List.findIdx?_append, List.findIdx?_eq_none_iff.mpr rejected, Option.none_or]

theorem rposition_append_of_rejected : rposition accepts (skipped ++ kept) =
    (rposition accepts kept).map (· + skipped.length) := by
  have nothing : skipped.reverse.findIdx? accepts = none :=
    List.findIdx?_eq_none_iff.mpr fun element inside => rejected element (List.mem_reverse.mp inside)
  rw [rposition, rposition, List.reverse_append, List.findIdx?_append, nothing, Option.map_none,
    Option.or_none, Option.map_map]
  refine Option.map_congr fun index found => ?_
  obtain ⟨within, _⟩ := List.findIdx?_eq_some_iff_getElem.mp found
  rw [List.length_reverse] at within
  rw [List.length_append, Function.comp_apply]
  omega

end Skipped

theorem slice_append (skipped kept : List α) (start stop : Nat) :
    ((skipped ++ kept).take (stop + skipped.length + 1)).drop (start + skipped.length) =
      (kept.take (stop + 1)).drop start := by
  rw [Nat.add_right_comm, Nat.add_comm (stop + 1), Nat.add_comm start,
    List.take_length_add_append, List.drop_length_add_append]

end Vpsiner.Lib
