import Mathlib.Data.List.Perm.Basic
import Mathlib.Logic.Function.Basic
import Vpsiner.Lib.HashOrder
import Vpsiner.Lib.KeyedTable
import Vpsiner.Lib.Machine

/-! A server that sends one snapshot of a keyed collection and from then on what changed, and
a client that keeps a copy. -/

set_option autoImplicit false

namespace Vpsiner.Lib

variable {κ ρ γ ν : Type} [LinearOrder κ] {key : ρ → κ}

theorem KeyedTable.eq_of_find? {left right : KeyedTable key}
    (same : ∀ k, left.find? k = right.find? k) : left = right := by
  have members : ∀ row, row ∈ left.rows ↔ row ∈ right.rows := by
    intro row
    have here := same (key row)
    constructor
    · intro member
      exact (find?_eq_some_iff.mp (here ▸ find?_eq_some_iff.mpr ⟨member, rfl⟩)).1
    · intro member
      exact (find?_eq_some_iff.mp (here ▸ find?_eq_some_iff.mpr ⟨member, rfl⟩)).1
  have rows : left.rows = right.rows := by
    refine List.Perm.eq_of_pairwise ?_ left.ordered right.ordered ?_
    · exact fun earlier later _ _ before after => absurd (before.trans after) (lt_irrefl _)
    · exact (List.perm_ext_iff_of_nodup left.nodup_keys.of_map right.nodup_keys.of_map).mpr members
  cases left
  cases right
  cases rows
  rfl

/-! ## The server -/

def indexByKey (key : ρ → κ) (current : List ρ) : KeyedTable key := KeyedTable.empty.upsertAll current

structure KeyedDiff (κ ρ : Type) where
  added : List ρ := []
  updated : List ρ := []
  removed : List κ := []
deriving DecidableEq, Repr

namespace KeyedDiff

/-- The keys that are gone are looked for in the order of the old collection. -/
def between [DecidableEq ρ] (order : HashOrder) (lastSent : KeyedTable key) (current : List ρ) : KeyedDiff κ ρ where
  added := current.filter fun row => (lastSent.find? (key row)).isNone
  updated := current.filter fun row => (lastSent.find? (key row)).any fun previous => previous ≠ row
  removed := (order.arrange (lastSent.rows.map key)).filter fun k => k ∉ current.map key

def isEmpty (diff : KeyedDiff κ ρ) : Bool :=
  diff.added.isEmpty && diff.updated.isEmpty && diff.removed.isEmpty

end KeyedDiff

inductive DiffEvent (κ ρ : Type) where
  | snapshot (rows : List ρ)
  | diff (diff : KeyedDiff κ ρ)
deriving DecidableEq, Repr

inductive DiffStreamState (key : ρ → κ) where
  | initial
  | waiting (lastSent : KeyedTable key)

namespace DiffStreamState

/-- What the server does with the collection it reads. An empty difference is not sent. -/
def read [DecidableEq ρ] (order : HashOrder) (current : List ρ) :
    DiffStreamState key → DiffStreamState key × Option (DiffEvent κ ρ)
  | .initial => (.waiting (indexByKey key current), some (.snapshot current))
  | .waiting lastSent =>
      let diff := KeyedDiff.between order lastSent current
      if diff.isEmpty then (.waiting lastSent, none)
      else (.waiting (indexByKey key current), some (.diff diff))

theorem read_waiting [DecidableEq ρ] (order : HashOrder) (current : List ρ)
    (lastSent : KeyedTable key) :
    (DiffStreamState.waiting lastSent).read order current =
      if (KeyedDiff.between order lastSent current).isEmpty then (.waiting lastSent, none)
      else (.waiting (indexByKey key current), some (.diff (.between order lastSent current))) := rfl

end DiffStreamState

/-! ## The client -/

/-- The copy of the client: what it holds under each of its keys. -/
abbrev ClientCopy (γ ν : Type) := γ → Option ν

/-- How the client sees keys and rows. -/
structure ClientView {κ ρ : Type} (key : ρ → κ) (γ ν : Type) where
  name : κ → γ
  value : ρ → ν
  name_injective : Function.Injective name

namespace ClientView

variable [DecidableEq γ] (view : ClientView key γ ν)

def set (copy : ClientCopy γ ν) (row : ρ) : ClientCopy γ ν :=
  Function.update copy (view.name (key row)) (some (view.value row))

def delete (copy : ClientCopy γ ν) (k : κ) : ClientCopy γ ν :=
  Function.update copy (view.name k) none

def fromRows (rows : List ρ) : ClientCopy γ ν := rows.foldl view.set fun _ => none

def apply (copy : ClientCopy γ ν) : DiffEvent κ ρ → ClientCopy γ ν
  | .snapshot rows => view.fromRows rows
  | .diff diff => diff.removed.foldl view.delete ((diff.added ++ diff.updated).foldl view.set copy)

def after (events : List (DiffEvent κ ρ)) : ClientCopy γ ν :=
  events.foldl view.apply fun _ => none

omit [LinearOrder κ] in
theorem after_append (events : List (DiffEvent κ ρ)) (event : DiffEvent κ ρ) :
    view.after (events ++ [event]) = view.apply (view.after events) event := by
  rw [after, after, List.foldl_append, List.foldl_cons, List.foldl_nil]

theorem foldl_set (rows : List ρ) (copy : ClientCopy γ ν) (k : κ) :
    rows.foldl view.set copy (view.name k) =
      ((rows.reverse.find? fun row => key row = k).map view.value).or (copy (view.name k)) := by
  induction rows generalizing copy with
  | nil => rfl
  | cons row rest ih =>
      rw [List.foldl_cons, ih, List.reverse_cons, List.find?_append, Option.map_or, Option.or_assoc]
      congr 1
      unfold set
      by_cases same : key row = k
      · rw [same, Function.update_self]
        simp [same]
      · rw [Function.update_of_ne (fun named => same (view.name_injective named).symm)]
        simp [same]

theorem foldl_delete (removed : List κ) (copy : ClientCopy γ ν) (k : κ) :
    removed.foldl view.delete copy (view.name k) =
      if k ∈ removed then none else copy (view.name k) := by
  induction removed generalizing copy with
  | nil => rfl
  | cons gone rest ih =>
      rw [List.foldl_cons, ih]
      unfold delete
      by_cases same : k = gone
      · rw [same, Function.update_self, if_pos List.mem_cons_self, ite_self]
      · rw [Function.update_of_ne (fun named => same (view.name_injective named))]
        simp [same]

omit [LinearOrder κ] in
theorem foldl_set_unnamed (rows : List ρ) (copy : ClientCopy γ ν) {name : γ}
    (unnamed : ∀ k, view.name k ≠ name) : rows.foldl view.set copy name = copy name := by
  induction rows generalizing copy with
  | nil => rfl
  | cons row rest ih => exact (ih _).trans (Function.update_of_ne (unnamed _).symm ..)

omit [LinearOrder κ] in
theorem foldl_delete_unnamed (removed : List κ) (copy : ClientCopy γ ν) {name : γ}
    (unnamed : ∀ k, view.name k ≠ name) : removed.foldl view.delete copy name = copy name := by
  induction removed generalizing copy with
  | nil => rfl
  | cons gone rest ih => exact (ih _).trans (Function.update_of_ne (unnamed _).symm ..)

end ClientView

/-! ## What a difference says -/

section Between

variable {order : HashOrder} {lastSent : KeyedTable key} {current : List ρ}

theorem find?_indexByKey (distinct : (current.map key).Nodup) (k : κ) :
    (indexByKey key current).find? k = current.find? fun row => key row = k := by
  have unique : ∀ first ∈ current, ∀ second ∈ current, key first = key second → first = second :=
    fun _ one _ two same => List.inj_on_of_nodup_map distinct one two same
  rw [indexByKey, @KeyedTable.find?_upsertAll_of_unique _ _ _ _ _ _ _ unique
      (current.find? fun row => key row = k), KeyedTable.find?_empty, Option.or_none]
  intro row
  rw [KeyedTable.find?_eq_some_of_unique, decide_eq_true_eq]
  intro first one second two firstKey secondKey
  exact unique first one second two
    ((of_decide_eq_true firstKey).trans (of_decide_eq_true secondKey).symm)

theorem reverse_find? (rows : List ρ) (k : κ) :
    (rows.reverse.find? fun row => key row = k) = (indexByKey key rows).find? k := by
  rw [indexByKey, KeyedTable.find?_upsertAll, KeyedTable.find?_empty, Option.or_none]

theorem find?_indexByKey_eq_some (distinct : (current.map key).Nodup) {k : κ} {row : ρ} :
    (indexByKey key current).find? k = some row ↔ row ∈ current ∧ key row = k := by
  rw [find?_indexByKey distinct, KeyedTable.find?_eq_some_of_unique, decide_eq_true_eq]
  intro first one second two firstKey secondKey
  exact List.inj_on_of_nodup_map distinct one two
    ((of_decide_eq_true firstKey).trans (of_decide_eq_true secondKey).symm)

theorem find?_indexByKey_eq_none (distinct : (current.map key).Nodup) {k : κ} :
    (indexByKey key current).find? k = none ↔ ∀ row ∈ current, key row ≠ k := by
  rw [find?_indexByKey distinct, List.find?_eq_none]
  exact forall₂_congr fun row _ => not_congr decide_eq_true_iff

variable [DecidableEq ρ]

theorem KeyedDiff.mem_removed {k : κ} :
    k ∈ (KeyedDiff.between order lastSent current).removed ↔
      (lastSent.find? k).isSome = true ∧ ∀ row ∈ current, key row ≠ k := by
  have held : k ∈ lastSent.rows.map key ↔ (lastSent.find? k).isSome = true := by
    rw [Option.isSome_iff_exists, List.mem_map]
    exact exists_congr fun row => KeyedTable.find?_eq_some_iff.symm
  rw [KeyedDiff.between, List.mem_filter, HashOrder.mem_arrange, held, decide_eq_true_eq,
    List.mem_map]
  exact and_congr_right fun _ => not_exists.trans (forall_congr' fun row => not_and)

theorem KeyedDiff.mem_changed {row : ρ} :
    row ∈ (KeyedDiff.between order lastSent current).added ++
        (KeyedDiff.between order lastSent current).updated ↔
      row ∈ current ∧ lastSent.find? (key row) ≠ some row := by
  rw [KeyedDiff.between, List.mem_append, List.mem_filter, List.mem_filter, ← and_or_left]
  refine and_congr_right fun _ => ?_
  cases lastSent.find? (key row) with
  | none => simp
  | some previous => simp

/-- Under a key the difference has the row of the new collection, unless the old one has
the same row there. -/
theorem KeyedDiff.find?_changed (distinct : (current.map key).Nodup) (k : κ) :
    (((KeyedDiff.between order lastSent current).added ++
        (KeyedDiff.between order lastSent current).updated).reverse.find?
          fun row => key row = k) =
      ((indexByKey key current).find? k).filter fun row => lastSent.find? k ≠ some row := by
  refine Option.ext fun row => ?_
  rw [KeyedTable.find?_eq_some_of_unique, List.mem_reverse, KeyedDiff.mem_changed,
    Option.filter_eq_some_iff, find?_indexByKey_eq_some distinct, decide_eq_true_eq,
    decide_eq_true_eq, and_right_comm]
  · exact and_congr_right fun held => by rw [held.2]
  · intro first one second two firstNamed secondNamed
    have left := (KeyedDiff.mem_changed.mp (List.mem_reverse.mp one)).1
    have right := (KeyedDiff.mem_changed.mp (List.mem_reverse.mp two)).1
    exact List.inj_on_of_nodup_map distinct left right
      ((of_decide_eq_true firstNamed).trans (of_decide_eq_true secondNamed).symm)

/-- The difference is empty when every key holds what it held. -/
theorem KeyedDiff.isEmpty_iff (distinct : (current.map key).Nodup) :
    (KeyedDiff.between order lastSent current).isEmpty = true ↔
      indexByKey key current = lastSent := by
  have parts : (KeyedDiff.between order lastSent current).isEmpty = true ↔
      (KeyedDiff.between order lastSent current).added ++
          (KeyedDiff.between order lastSent current).updated = [] ∧
        (KeyedDiff.between order lastSent current).removed = [] := by
    rw [KeyedDiff.isEmpty, Bool.and_eq_true, Bool.and_eq_true, List.isEmpty_iff, List.isEmpty_iff,
      List.isEmpty_iff, List.append_eq_nil_iff]
  rw [parts, List.eq_nil_iff_forall_not_mem, List.eq_nil_iff_forall_not_mem]
  constructor
  · rintro ⟨unchanged, kept⟩
    refine KeyedTable.eq_of_find? fun k => ?_
    cases found : (indexByKey key current).find? k with
    | some row =>
        obtain ⟨present, named⟩ := (find?_indexByKey_eq_some distinct).mp found
        have same := not_and.mp (mt KeyedDiff.mem_changed.mpr (unchanged row)) present
        rw [← named]
        exact (not_not.mp same).symm
    | none =>
        have absent := (find?_indexByKey_eq_none distinct).mp found
        have gone := mt KeyedDiff.mem_removed.mpr (kept k)
        cases held : lastSent.find? k with
        | none => rfl
        | some previous => exact absurd ⟨by rw [held]; rfl, absent⟩ gone
  · rintro rfl
    constructor
    · intro row member
      obtain ⟨present, different⟩ := KeyedDiff.mem_changed.mp member
      exact different ((find?_indexByKey_eq_some distinct).mpr ⟨present, rfl⟩)
    · intro k member
      obtain ⟨held, absent⟩ := KeyedDiff.mem_removed.mp member
      rw [(find?_indexByKey_eq_none distinct).mpr absent] at held
      cases held

end Between

/-! ## The copy follows -/

section Copy

variable [DecidableEq ρ] [DecidableEq γ] (view : ClientView key γ ν)

/-- A difference turns the copy of the old collection into that of the new one. -/
theorem ClientView.apply_between (order : HashOrder) (before : List ρ) {current : List ρ}
    (distinct : (current.map key).Nodup) :
    view.apply (view.fromRows before)
        (.diff (KeyedDiff.between order (indexByKey key before) current)) =
      view.fromRows current := by
  funext name
  by_cases named : ∃ k, view.name k = name
  · obtain ⟨k, rfl⟩ := named
    unfold ClientView.apply ClientView.fromRows
    dsimp only
    rw [foldl_delete, foldl_set, foldl_set, foldl_set, Option.or_none, Option.or_none,
      KeyedDiff.find?_changed distinct, reverse_find? before, reverse_find? current]
    cases found : (indexByKey key current).find? k with
    | none =>
        have absent := (find?_indexByKey_eq_none distinct).mp found
        rw [Option.filter_none, Option.map_none, Option.none_or]
        by_cases held : ((indexByKey key before).find? k).isSome = true
        · exact if_pos (KeyedDiff.mem_removed.mpr ⟨held, absent⟩)
        · rw [if_neg fun removed => held (KeyedDiff.mem_removed.mp removed).1,
            Option.not_isSome_iff_eq_none.mp held, Option.map_none]
    | some row =>
        obtain ⟨present, named⟩ := (find?_indexByKey_eq_some distinct).mp found
        rw [if_neg fun removed => (KeyedDiff.mem_removed.mp removed).2 row present named]
        by_cases same : (indexByKey key before).find? k = some row
        · rw [Option.filter_some_neg (by simpa using same), same, Option.map_none, Option.none_or]
        · rw [Option.filter_some_pos (by simpa using same), Option.map_some, Option.some_or]
  · have unnamed := not_exists.mp named
    unfold ClientView.apply ClientView.fromRows
    dsimp only
    rw [foldl_delete_unnamed _ _ _ unnamed, foldl_set_unnamed _ _ _ unnamed,
      foldl_set_unnamed _ _ _ unnamed, foldl_set_unnamed _ _ _ unnamed]

omit [DecidableEq ρ] in
theorem ClientView.fromRows_congr {left right : List ρ}
    (same : indexByKey key left = indexByKey key right) :
    view.fromRows left = view.fromRows right := by
  funext name
  unfold ClientView.fromRows
  by_cases named : ∃ k, view.name k = name
  · obtain ⟨k, rfl⟩ := named
    rw [foldl_set, foldl_set, reverse_find?, reverse_find?, same]
  · have unnamed := not_exists.mp named
    rw [foldl_set_unnamed _ _ _ unnamed, foldl_set_unnamed _ _ _ unnamed]

end Copy

/-! ## Runs -/

/-- A connection of the server: the events it has sent, the collection it read last, and the
one it read when it sent the last event. -/
structure DiffRun {κ ρ : Type} [LinearOrder κ] (key : ρ → κ) where
  stream : DiffStreamState key := .initial
  sent : List (DiffEvent κ ρ) := []
  latest : Option (List ρ) := none
  announced : Option (List ρ) := none

/-- What the server reads: no key occurs twice. -/
structure Reading {κ ρ : Type} (key : ρ → κ) where
  order : HashOrder
  rows : List ρ
  distinct : (rows.map key).Nodup

namespace DiffRun

variable [DecidableEq ρ]

def event (run : DiffRun key) (reading : Reading key) : Option (DiffEvent κ ρ) :=
  (run.stream.read reading.order reading.rows).2

def step (run : DiffRun key) (reading : Reading key) : Option (DiffRun key) :=
  let event := run.event reading
  some {
    stream := (run.stream.read reading.order reading.rows).1
    sent := run.sent ++ event.toList
    latest := some reading.rows
    announced := if event.isSome then some reading.rows else run.announced }

end DiffRun

def diffMachine {κ ρ : Type} [LinearOrder κ] [DecidableEq ρ] (key : ρ → κ) :
    Machine (DiffRun key) (Reading key) where
  start := {}
  step := DiffRun.step

/-- After each reading the copy is that of the collection, and an event was sent exactly when
the collection is not the one of the last event. -/
structure Follows [DecidableEq ρ] [DecidableEq γ] (view : ClientView key γ ν)
    (run : DiffRun key) : Prop where
  copy : ∀ rows ∈ run.latest, view.after run.sent = view.fromRows rows
  sends : ∀ reading : Reading key, (run.event reading).isSome = true ↔
    ∀ rows ∈ run.announced, indexByKey key reading.rows ≠ indexByKey key rows

section Runs

variable [DecidableEq ρ] [DecidableEq γ] {view : ClientView key γ ν} {run after : DiffRun key}

/-- The state of the server is the collection of the last event. -/
inductive RunInv (view : ClientView key γ ν) (run : DiffRun key) : Prop where
  | initial (stream : run.stream = .initial) (latest : run.latest = none)
      (announced : run.announced = none)
  | waiting (rows : List ρ) (distinct : (rows.map key).Nodup)
      (stream : run.stream = .waiting (indexByKey key rows)) (announced : run.announced = some rows)
      (latest : ∀ last ∈ run.latest, indexByKey key last = indexByKey key rows)
      (copy : view.after run.sent = view.fromRows rows)

theorem RunInv.step (inv : RunInv view run) {reading : Reading key}
    (taken : run.step reading = some after) : RunInv view after := by
  cases taken
  cases inv with
  | initial stream latest announced =>
      refine .waiting reading.rows reading.distinct ?_ ?_ ?_ ?_
      · rw [stream]
        rfl
      · unfold DiffRun.event
        rw [stream]
        rfl
      · intro last known
        rw [Option.some.inj known]
      · unfold DiffRun.event
        rw [stream]
        exact view.after_append run.sent (.snapshot reading.rows)
  | waiting rows distinct stream announced latest copy =>
      have read := DiffStreamState.read_waiting reading.order reading.rows (indexByKey key rows)
      rw [← stream] at read
      by_cases empty : (KeyedDiff.between reading.order (indexByKey key rows)
          reading.rows).isEmpty = true
      · rw [if_pos empty] at read
        refine .waiting rows distinct ?_ ?_ ?_ ?_
        · rw [read]
          exact stream
        · unfold DiffRun.event
          rw [read]
          exact announced
        · intro last known
          rw [← Option.some.inj known]
          exact (KeyedDiff.isEmpty_iff reading.distinct).mp empty
        · unfold DiffRun.event
          rw [read]
          exact (congrArg view.after (List.append_nil _)).trans copy
      · rw [if_neg empty] at read
        refine .waiting reading.rows reading.distinct ?_ ?_ ?_ ?_
        · rw [read]
        · unfold DiffRun.event
          rw [read]
          rfl
        · intro last known
          rw [Option.some.inj known]
        · unfold DiffRun.event
          rw [read]
          refine (view.after_append run.sent _).trans ?_
          rw [copy]
          exact view.apply_between reading.order rows reading.distinct

theorem RunInv.follows (inv : RunInv view run) : Follows view run := by
  cases inv with
  | initial stream latest announced =>
      refine ⟨fun rows known => ?_, fun reading => ?_⟩
      · rw [latest] at known
        cases known
      · unfold DiffRun.event
        rw [stream, announced]
        exact iff_of_true rfl fun _ known => absurd known (Option.not_mem_none _)
  | waiting rows distinct stream announced latest copy =>
      refine ⟨fun last known => ?_, fun reading => ?_⟩
      · rw [copy]
        exact (view.fromRows_congr (latest last known)).symm
      · have unchanged := @KeyedDiff.isEmpty_iff _ _ _ _ reading.order (indexByKey key rows) _ _
          reading.distinct
        unfold DiffRun.event
        rw [stream, DiffStreamState.read_waiting, announced]
        split
        · next empty =>
            refine iff_of_false Bool.false_ne_true fun differs => ?_
            exact differs rows rfl (unchanged.mp empty)
        · next changed =>
            refine iff_of_true rfl fun last known => ?_
            rw [← Option.some.inj known]
            exact mt unchanged.mpr changed

/-- The copy follows the collection in every run. -/
theorem follows_of_reachable {allowed : DiffRun key → Reading key → Prop}
    (view : ClientView key γ ν) (reached : (diffMachine key).Reachable allowed run) :
    Follows view run := by
  have inv : RunInv view run :=
    reached.invariant (RunInv view) (.initial rfl rfl rfl) fun inv _ taken => inv.step taken
  exact inv.follows

end Runs

end Vpsiner.Lib
