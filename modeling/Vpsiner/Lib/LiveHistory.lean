import Mathlib.Data.List.Basic
import Mathlib.Data.Int.Order.Basic
import Mathlib.Order.Lattice

/-! Keyed series that a snapshot replaces, that appends extend and that a cutoff trims. -/

set_option autoImplicit false

namespace Vpsiner.Lib

/-! ## Records of series -/

/-- The own properties of an object, under keys that it inherits nothing for. -/
abbrev Record (κ ν : Type) := List (κ × ν)

namespace Record

variable {κ ν π : Type} [DecidableEq κ]

def get : Record κ ν → κ → Option ν
  | [], _ => none
  | (other, held) :: rest, key => if other = key then some held else get rest key

def set : Record κ ν → κ → ν → Record κ ν
  | [], key, value => [(key, value)]
  | (other, held) :: rest, key, value =>
      if other = key then (key, value) :: rest else (other, held) :: set rest key value

def mapValues (f : ν → ν) (record : Record κ ν) : Record κ ν :=
  record.map fun entry => (entry.1, f entry.2)

def series (record : Record κ (List π)) (key : κ) : List π := (record.get key).getD []

/-- One more point for the series of a key, which may be a new one. -/
def push (record : Record κ (List π)) (entry : κ × π) : Record κ (List π) :=
  record.set entry.1 (record.series entry.1 ++ [entry.2])

@[simp] theorem get_nil (key : κ) : get ([] : Record κ ν) key = none := rfl

theorem get_cons (entry : κ × ν) (rest : Record κ ν) (key : κ) :
    get (entry :: rest) key = if entry.1 = key then some entry.2 else get rest key := rfl

theorem get_set (record : Record κ ν) (key other : κ) (value : ν) :
    (record.set key value).get other = if key = other then some value else record.get other := by
  induction record with
  | nil => simp [set, get_cons]
  | cons entry rest ih =>
      rcases entry with ⟨first, held⟩
      by_cases same : first = key
      · subst same
        by_cases here : first = other <;> simp [set, get_cons, here]
      · by_cases here : first = other
        · subst here
          simp [set, get_cons, same, Ne.symm same]
        · simp [set, get_cons, same, here, ih]

theorem get_mapValues (f : ν → ν) (record : Record κ ν) (key : κ) :
    (record.mapValues f).get key = (record.get key).map f := by
  induction record with
  | nil => rfl
  | cons entry rest ih =>
      have ih : get (rest.map fun entry => (entry.1, f entry.2)) key = (get rest key).map f := ih
      simp only [mapValues, List.map_cons, get_cons, ih]
      split <;> rfl

theorem series_push (record : Record κ (List π)) (entry : κ × π) (key : κ) :
    (record.push entry).series key =
      record.series key ++ ([entry].filter fun entry => entry.1 = key).map Prod.snd := by
  by_cases here : entry.1 = key
  · subst here
    simp [series, push, get_set]
  · simp [series, push, get_set, here]

theorem series_foldl_push (entries : List (κ × π)) (record : Record κ (List π)) (key : κ) :
    (entries.foldl push record).series key =
      record.series key ++ (entries.filter fun entry => entry.1 = key).map Prod.snd := by
  induction entries generalizing record with
  | nil => simp
  | cons entry rest ih =>
      rw [List.foldl_cons, ih, series_push, List.append_assoc, ← List.map_append,
        ← List.filter_append, List.singleton_append]

theorem series_mapValues_filter (keep : π → Bool) (record : Record κ (List π)) (key : κ) :
    (record.mapValues (List.filter keep)).series key = (record.series key).filter keep := by
  rw [series, get_mapValues, series]
  cases record.get key <;> rfl

end Record

/-! ## Histories -/

/-- `view` reads the series of one key; the laws say what an operation does to each of them. -/
structure LiveHistory (κ : Type) (point : κ → Type) (shown snapshot append : Type) where
  stamp : (key : κ) → point key → Int
  view : shown → (key : κ) → List (point key)
  replace : snapshot → shown
  extend : shown → append → shown
  trim : Int → shown → shown
  appended : append → (key : κ) → List (point key)
  view_extend : ∀ held addition key,
    view (extend held addition) key = view held key ++ appended addition key
  view_trim : ∀ cutoff held key,
    view (trim cutoff held) key = (view held key).filter fun point => cutoff ≤ stamp key point

namespace LiveHistory

variable {κ : Type} {point : κ → Type} {shown snapshot append : Type}

/-- All that came for a key: its series in the snapshot and its points in the appends. -/
def feed (history : LiveHistory κ point shown snapshot append)
    (received : Option (snapshot × List append)) (key : κ) : List (point key) :=
  match received with
  | none => []
  | some (opening, appends) =>
      history.view (history.replace opening) key ++
        appends.flatMap fun addition => history.appended addition key

/-- Every series holds what came for its key from the cutoff on. -/
def ShowsFrom (history : LiveHistory κ point shown snapshot append) (held : shown)
    (received : Option (snapshot × List append)) (cutoff : Int) : Prop :=
  ∀ key, history.view held key =
    (history.feed received key).filter fun point => cutoff ≤ history.stamp key point

namespace ShowsFrom

variable {history : LiveHistory κ point shown snapshot append} {held : shown}
  {received : Option (snapshot × List append)} {before after : Int}

theorem trim (shows : history.ShowsFrom held received before) (cutoff : Int) :
    history.ShowsFrom (history.trim cutoff held) received (max before cutoff) := by
  intro key
  rw [history.view_trim, shows key, List.filter_filter]
  apply List.filter_congr
  intro point _
  simp [Bool.and_comm]

theorem replace (opening : snapshot) (cutoff : Int) :
    history.ShowsFrom (history.trim cutoff (history.replace opening)) (some (opening, [])) cutoff := by
  intro key
  simp [history.view_trim, feed]

/-- A point that comes late is cut off like those before it. -/
theorem extend {opening : snapshot} {appends : List append}
    (shows : history.ShowsFrom held (some (opening, appends)) before) (later : before ≤ after)
    (addition : append) :
    history.ShowsFrom (history.trim after (history.extend held addition))
      (some (opening, appends ++ [addition])) after := by
  intro key
  rw [history.view_trim, history.view_extend, shows key]
  simp only [feed, List.flatMap_append, List.filter_append, List.filter_filter, ← List.append_assoc]
  congr 2
  · apply List.filter_congr
    intro point _
    simpa using later.trans
  · apply List.filter_congr
    intro point _
    simpa using later.trans
  · simp

end ShowsFrom

end LiveHistory

end Vpsiner.Lib
