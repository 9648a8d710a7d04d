import Mathlib.Data.List.Induction
import Vpsiner.Lib.DiffStream

/-! Reconciling what is held with a new listing. Whoever reads only what appeared and what
vanished can tell what is held. -/

set_option autoImplicit false

namespace Vpsiner.Lib

variable {κ ρ : Type} [LinearOrder κ] {key : ρ → κ}

inductive Change (ρ : Type) where
  | appeared (row : ρ)
  | vanished (row : ρ)
deriving DecidableEq, Repr

namespace Change

def apply (key : ρ → κ) (copy : κ → Option ρ) : Change ρ → κ → Option ρ
  | .appeared row => Function.update copy (key row) (some row)
  | .vanished row => Function.update copy (key row) none

def replay (key : ρ → κ) (log : List (Change ρ)) : κ → Option ρ :=
  log.foldl (apply key) fun _ => none

@[simp] theorem replay_nil (key : ρ → κ) : replay key [] = fun _ => none := rfl

theorem replay_concat (key : ρ → κ) (log : List (Change ρ)) (change : Change ρ) :
    replay key (log ++ [change]) = change.apply key (replay key log) := by
  simp [replay]

/-- What is held has appeared. -/
theorem appeared_mem_of_replay {log : List (Change ρ)} {k : κ} {row : ρ}
    (present : replay key log k = some row) : .appeared row ∈ log := by
  induction log using List.reverseRecOn with
  | nil => cases present
  | append_singleton log change ih =>
      rw [replay_concat] at present
      cases change with
      | appeared newer =>
          by_cases same : k = key newer
          · subst same
            simp only [apply, Function.update_self, Option.some.injEq] at present
            simp [present]
          · simp only [apply, Function.update_of_ne same] at present
            simp [ih present]
      | vanished gone =>
          by_cases same : k = key gone
          · subst same
            simp [apply] at present
          · simp only [apply, Function.update_of_ne same] at present
            simp [ih present]

/-- Nothing appears twice without vanishing in between, and what vanishes is what appeared. -/
inductive Truthful (key : ρ → κ) : List (Change ρ) → Prop where
  | nil : Truthful key []
  | appeared {log : List (Change ρ)} {row : ρ} (earlier : Truthful key log)
      (absent : replay key log (key row) = none) : Truthful key (log ++ [.appeared row])
  | vanished {log : List (Change ρ)} {row : ρ} (earlier : Truthful key log)
      (present : replay key log (key row) = some row) : Truthful key (log ++ [.vanished row])

theorem replay_appeared {rows : List ρ} (log : List (Change ρ))
    (distinct : (rows.map key).Nodup) (k : κ) :
    replay key (log ++ rows.map .appeared) k =
      (rows.find? fun row => key row = k).or (replay key log k) := by
  induction rows generalizing log with
  | nil => simp
  | cons row rest ih =>
      obtain ⟨alone, distinctRest⟩ := List.nodup_cons.mp distinct
      have split : log ++ (row :: rest).map .appeared =
          (log ++ [.appeared row]) ++ rest.map .appeared := by simp
      rw [split, ih _ distinctRest, replay_concat]
      by_cases same : key row = k
      · subst same
        have later : rest.find? (fun other => key other = key row) = none := by
          apply List.find?_eq_none.mpr
          intro other member equal
          exact alone (List.mem_map.mpr ⟨other, member, by simpa using equal⟩)
        simp [later, apply]
      · simp [same, apply, Function.update_of_ne (Ne.symm same)]

theorem replay_vanished (log : List (Change ρ)) (rows : List ρ) (k : κ) :
    replay key (log ++ rows.map .vanished) k =
      if k ∈ rows.map key then none else replay key log k := by
  induction rows generalizing log with
  | nil => simp
  | cons row rest ih =>
      have split : log ++ (row :: rest).map .vanished =
          (log ++ [.vanished row]) ++ rest.map .vanished := by simp
      rw [split, ih, replay_concat]
      by_cases same : k = key row
      · subst same
        simp [apply]
      · simp [same, apply]

theorem Truthful.append_appeared {log : List (Change ρ)} {rows : List ρ}
    (truthful : Truthful key log) (distinct : (rows.map key).Nodup)
    (absent : ∀ row ∈ rows, replay key log (key row) = none) :
    Truthful key (log ++ rows.map .appeared) := by
  induction rows generalizing log with
  | nil => simpa using truthful
  | cons row rest ih =>
      obtain ⟨alone, distinctRest⟩ := List.nodup_cons.mp distinct
      have later := ih (truthful.appeared (absent row List.mem_cons_self)) distinctRest ?_
      · simpa using later
      · intro other member
        have different : key other ≠ key row :=
          fun same => alone (same ▸ List.mem_map_of_mem member)
        rw [replay_concat]
        simp only [apply, Function.update_of_ne different]
        exact absent other (List.mem_cons_of_mem _ member)

theorem Truthful.append_vanished {log : List (Change ρ)} {rows : List ρ}
    (truthful : Truthful key log) (distinct : (rows.map key).Nodup)
    (present : ∀ row ∈ rows, replay key log (key row) = some row) :
    Truthful key (log ++ rows.map .vanished) := by
  induction rows generalizing log with
  | nil => simpa using truthful
  | cons row rest ih =>
      obtain ⟨alone, distinctRest⟩ := List.nodup_cons.mp distinct
      have later := ih (truthful.vanished (present row List.mem_cons_self)) distinctRest ?_
      · simpa using later
      · intro other member
        have different : key other ≠ key row :=
          fun same => alone (same ▸ List.mem_map_of_mem member)
        rw [replay_concat]
        simp only [apply, Function.update_of_ne different]
        exact present other (List.mem_cons_of_mem _ member)

end Change

structure Reconciled (key : ρ → κ) where
  held : KeyedTable key
  appeared : List ρ
  vanished : List ρ

def Reconciled.changes (result : Reconciled key) : List (Change ρ) :=
  result.appeared.map .appeared ++ result.vanished.map .vanished

/-- What is held already stays as it is. Both are hash maps, iterated in the given order. -/
def reconcile (order : HashOrder) (held listing : KeyedTable key) : Reconciled key :=
  let gone := fun row => (listing.find? (key row)).isNone
  let kept := held.eraseWhere gone
  let appeared := (order.arrange listing.rows).filter fun row => (kept.find? (key row)).isNone
  { held := kept.upsertAll appeared, appeared, vanished := (order.arrange held.rows).filter gone }

namespace KeyedTable

theorem find?_eraseWhere (table : KeyedTable key) (drop : ρ → Bool) (k : κ) :
    (table.eraseWhere drop).find? k = (table.find? k).filter fun row => !drop row := by
  refine Option.ext fun row => ?_
  rw [find?_eq_some_iff, Option.filter_eq_some_iff, find?_eq_some_iff]
  simp only [eraseWhere, List.mem_filter]
  exact and_right_comm

theorem nodup_keys_arrange (order : HashOrder) (table : KeyedTable key) :
    ((order.arrange table.rows).map key).Nodup :=
  ((order.perm table.rows).map key).nodup_iff.mpr table.nodup_keys

theorem mem_rows_iff_find? {table : KeyedTable key} {row : ρ} :
    row ∈ table.rows ↔ table.find? (key row) = some row := by
  simp [find?_eq_some_iff]

end KeyedTable

section Reconcile

variable {order : HashOrder} {held listing : KeyedTable key}

theorem mem_appeared {row : ρ} : row ∈ (reconcile order held listing).appeared ↔
    listing.find? (key row) = some row ∧ held.find? (key row) = none := by
  simp only [reconcile, List.mem_filter, HashOrder.mem_arrange, KeyedTable.mem_rows_iff_find?,
    KeyedTable.find?_eraseWhere]
  refine and_congr_right fun listed => ?_
  cases found : held.find? (key row) with
  | none => simp
  | some other =>
      have named := (KeyedTable.find?_eq_some_iff.mp found).2
      simp [named, listed]

theorem mem_vanished {row : ρ} : row ∈ (reconcile order held listing).vanished ↔
    held.find? (key row) = some row ∧ listing.find? (key row) = none := by
  simp only [reconcile, List.mem_filter, HashOrder.mem_arrange, KeyedTable.mem_rows_iff_find?,
    Option.isNone_iff_eq_none]

theorem nodup_appeared : ((reconcile order held listing).appeared.map key).Nodup :=
  (listing.nodup_keys_arrange order).sublist (List.filter_sublist.map key)

theorem nodup_vanished : ((reconcile order held listing).vanished.map key).Nodup :=
  (held.nodup_keys_arrange order).sublist (List.filter_sublist.map key)

theorem find?_appeared (k : κ) :
    ((reconcile order held listing).appeared.find? fun row => key row = k) =
      if held.find? k = none then listing.find? k else none := by
  refine Option.ext fun row => ?_
  rw [KeyedTable.find?_eq_some_of_unique, mem_appeared, decide_eq_true_eq]
  · by_cases absent : held.find? k = none
    · rw [if_pos absent, KeyedTable.find?_eq_some_iff, KeyedTable.find?_eq_some_iff]
      constructor
      · exact fun found => ⟨found.1.1.1, found.2⟩
      · rintro ⟨member, rfl⟩
        exact ⟨⟨⟨member, rfl⟩, absent⟩, rfl⟩
    · rw [if_neg absent]
      constructor
      · rintro ⟨⟨_, missing⟩, rfl⟩
        exact absurd missing absent
      · intro found
        cases found
  · intro first one second two firstKey secondKey
    exact List.inj_on_of_nodup_map nodup_appeared one two
      ((of_decide_eq_true firstKey).trans (of_decide_eq_true secondKey).symm)

/-- Under a key that is listed the row held before stays, and the listed one is taken if there
was none. -/
theorem find?_reconcile (k : κ) : (reconcile order held listing).held.find? k =
    if (listing.find? k).isSome then (held.find? k).or (listing.find? k) else none := by
  have inserted : (reconcile order held listing).held.find? k =
      ((reconcile order held listing).appeared.find? fun row => key row = k).or
        ((held.eraseWhere fun row => (listing.find? (key row)).isNone).find? k) := by
    apply KeyedTable.find?_upsertAll_of_unique
    · exact fun first one second two => List.inj_on_of_nodup_map nodup_appeared one two
    · intro row
      rw [KeyedTable.find?_eq_some_of_unique, decide_eq_true_eq]
      · rfl
      · intro first one second two firstKey secondKey
        exact List.inj_on_of_nodup_map nodup_appeared one two
          ((of_decide_eq_true firstKey).trans (of_decide_eq_true secondKey).symm)
  rw [inserted, find?_appeared, KeyedTable.find?_eraseWhere]
  cases present : held.find? k with
  | none => cases listing.find? k <;> simp
  | some row =>
      have named := (KeyedTable.find?_eq_some_iff.mp present).2
      cases listed : listing.find? k with
      | none => simp [named, listed]
      | some other => simp [named, listed]

/-- A log that tells what is held goes on telling it with the changes of a reconciliation. -/
theorem Change.Truthful.reconcile {log : List (Change ρ)} (truthful : Truthful key log)
    (told : replay key log = held.find?) (order : HashOrder) (listing : KeyedTable key) :
    Truthful key (log ++ (Lib.reconcile order held listing).changes) ∧
      replay key (log ++ (Lib.reconcile order held listing).changes) =
        (Lib.reconcile order held listing).held.find? := by
  have distinct : ((Lib.reconcile order held listing).appeared.map key).Nodup := nodup_appeared
  have middle := truthful.append_appeared distinct
    fun row member => (congrFun told _).trans (mem_appeared.mp member).2
  have during := replay_appeared log distinct
  unfold Reconciled.changes
  rw [← List.append_assoc]
  constructor
  · apply middle.append_vanished nodup_vanished
    intro row member
    obtain ⟨present, _⟩ := mem_vanished.mp member
    rw [during, find?_appeared, told, present]
    simp
  · funext k
    rw [replay_vanished, during, find?_appeared, find?_reconcile, told]
    have gone : k ∈ (Lib.reconcile order held listing).vanished.map key ↔
        (held.find? k).isSome ∧ listing.find? k = none := by
      rw [List.mem_map, Option.isSome_iff_exists]
      constructor
      · rintro ⟨row, member, rfl⟩
        obtain ⟨present, unlisted⟩ := mem_vanished.mp member
        exact ⟨⟨row, present⟩, unlisted⟩
      · rintro ⟨⟨row, present⟩, unlisted⟩
        have named := (KeyedTable.find?_eq_some_iff.mp present).2
        subst named
        exact ⟨row, mem_vanished.mpr ⟨present, unlisted⟩, rfl⟩
    rw [if_congr gone rfl rfl]
    cases held.find? k <;> cases listing.find? k <;> simp

end Reconcile

end Vpsiner.Lib
