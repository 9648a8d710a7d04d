import Mathlib.Order.Lattice
import Mathlib.Order.Basic
import Mathlib.Data.List.Nodup

/-! Tables with a primary key. The rows are held in key order, so that no key
occurs twice and a range selection needs no sorting. -/

set_option autoImplicit false

namespace Vpsiner.Lib

/-- The rows of a table with primary key `key`, in key order. -/
structure KeyedTable {κ ρ : Type} [LinearOrder κ] (key : ρ → κ) where
  rows : List ρ
  ordered : rows.Pairwise fun earlier later => key earlier < key later

namespace KeyedTable

variable {κ ρ : Type} [LinearOrder κ] {key : ρ → κ}

def empty : KeyedTable key := ⟨[], .nil⟩

def find? (table : KeyedTable key) (k : κ) : Option ρ :=
  table.rows.find? fun row => key row = k

def select (table : KeyedTable key) (keep : ρ → Bool) : List ρ :=
  table.rows.filter keep

def eraseWhere (table : KeyedTable key) (drop : ρ → Bool) : KeyedTable key :=
  ⟨table.rows.filter (!drop ·), table.ordered.filter _⟩

private theorem ordered_around {rows : List ρ}
    (ordered : rows.Pairwise fun earlier later => key earlier < key later) (row : ρ) :
    (rows.filter (fun other => key other < key row) ++
      row :: rows.filter (fun other => key row < key other)).Pairwise
        fun earlier later => key earlier < key later := by
  refine List.pairwise_append.mpr ⟨ordered.filter _, ?_, ?_⟩
  · refine List.pairwise_cons.mpr ⟨?_, ordered.filter _⟩
    intro other member
    simpa using (List.mem_filter.mp member).2
  · intro left leftMember right rightMember
    have below : key left < key row := by simpa using (List.mem_filter.mp leftMember).2
    rcases List.mem_cons.mp rightMember with rfl | above
    · exact below
    · exact below.trans (by simpa using (List.mem_filter.mp above).2)

/-- `INSERT OR REPLACE`: the row takes the place of any row with its key. -/
def upsert (table : KeyedTable key) (row : ρ) : KeyedTable key :=
  ⟨table.rows.filter (fun other => key other < key row) ++
      row :: table.rows.filter (fun other => key row < key other),
    ordered_around table.ordered row⟩

/-- `INSERT`: refused when the key is taken. -/
def insert? (table : KeyedTable key) (row : ρ) : Option (KeyedTable key) :=
  if (table.find? (key row)).isSome then none else some (table.upsert row)

def upsertAll (table : KeyedTable key) (rows : List ρ) : KeyedTable key :=
  rows.foldl upsert table

def mapRows (table : KeyedTable key) (f : ρ → ρ) (keeps : ∀ row, key (f row) = key row) :
    KeyedTable key :=
  ⟨table.rows.map f, List.pairwise_map.mpr (by simpa only [keeps] using table.ordered)⟩

@[simp] theorem rows_empty : (empty : KeyedTable key).rows = [] := rfl

@[simp] theorem find?_empty (k : κ) : (empty : KeyedTable key).find? k = none := rfl

@[simp] theorem upsertAll_nil (table : KeyedTable key) : table.upsertAll [] = table := rfl

@[simp] theorem upsertAll_cons (table : KeyedTable key) (row : ρ) (rows : List ρ) :
    table.upsertAll (row :: rows) = (table.upsert row).upsertAll rows := rfl

theorem nodup_keys (table : KeyedTable key) : (table.rows.map key).Nodup := by
  rw [List.Nodup, List.pairwise_map]
  exact table.ordered.imp fun below => below.ne

theorem key_injective (table : KeyedTable key) {left right : ρ} (leftMember : left ∈ table.rows)
    (rightMember : right ∈ table.rows) (same : key left = key right) : left = right :=
  List.inj_on_of_nodup_map table.nodup_keys leftMember rightMember same

theorem find?_eq_some_iff {table : KeyedTable key} {k : κ} {row : ρ} :
    table.find? k = some row ↔ row ∈ table.rows ∧ key row = k := by
  constructor
  · intro found
    exact ⟨List.mem_of_find?_eq_some found, by simpa using List.find?_some found⟩
  · rintro ⟨member, rfl⟩
    cases result : table.find? (key row) with
    | none =>
        have absent := List.find?_eq_none.mp result row member
        simp at absent
    | some other =>
        have same : key other = key row := by simpa using List.find?_some result
        rw [table.key_injective (List.mem_of_find?_eq_some result) member same]

theorem find?_eq_none_iff {table : KeyedTable key} {k : κ} :
    table.find? k = none ↔ ∀ row ∈ table.rows, key row ≠ k := by
  simp [find?]

theorem mem_rows_upsert {table : KeyedTable key} {row other : ρ} :
    other ∈ (table.upsert row).rows ↔ other = row ∨ (other ∈ table.rows ∧ key other ≠ key row) := by
  simp only [upsert, List.mem_append, List.mem_cons, List.mem_filter, decide_eq_true_eq,
    ne_iff_lt_or_gt]
  grind

theorem find?_upsert (table : KeyedTable key) (row : ρ) (k : κ) :
    (table.upsert row).find? k = if key row = k then some row else table.find? k := by
  split
  · next same => exact find?_eq_some_iff.mpr ⟨mem_rows_upsert.mpr (.inl rfl), same⟩
  · next other =>
      cases result : table.find? k with
      | none =>
          refine find?_eq_none_iff.mpr fun candidate member => ?_
          rcases mem_rows_upsert.mp member with rfl | ⟨present, _⟩
          · exact other
          · exact find?_eq_none_iff.mp result candidate present
      | some found =>
          obtain ⟨member, same⟩ := find?_eq_some_iff.mp result
          refine find?_eq_some_iff.mpr ⟨mem_rows_upsert.mpr (.inr ⟨member, ?_⟩), same⟩
          exact fun clash => other (clash.symm.trans same)

/-- Of several rows with one key, the last one written is the one kept. -/
theorem find?_upsertAll (table : KeyedTable key) (rows : List ρ) (k : κ) :
    (table.upsertAll rows).find? k =
      (rows.reverse.find? fun row => key row = k).or (table.find? k) := by
  induction rows generalizing table with
  | nil => simp
  | cons row rest ih =>
      rw [upsertAll_cons, ih, find?_upsert, List.reverse_cons, List.find?_append, Option.or_assoc]
      by_cases same : key row = k <;> simp [same]

theorem find?_eq_some_of_unique {α : Type} {pred : α → Bool} {items : List α}
    (unique : ∀ first ∈ items, ∀ second ∈ items,
      pred first = true → pred second = true → first = second) {item : α} :
    items.find? pred = some item ↔ item ∈ items ∧ pred item = true := by
  constructor
  · exact fun found => ⟨List.mem_of_find?_eq_some found, List.find?_some found⟩
  · rintro ⟨member, holds⟩
    cases result : items.find? pred with
    | none => exact absurd holds (List.find?_eq_none.mp result item member)
    | some other =>
        rw [unique other (List.mem_of_find?_eq_some result) item member
          (List.find?_some result) holds]

/-- An item is found under its own name. -/
theorem find?_name {α ι : Type} [DecidableEq ι] {name : α → ι} {items : List α}
    (distinct : (items.map name).Nodup) {item : α} (member : item ∈ items) :
    items.find? (fun other => name other = name item) = some item := by
  rw [find?_eq_some_of_unique, decide_eq_true_eq]
  · exact ⟨member, rfl⟩
  · intro first firstMember second secondMember firstName secondName
    rw [decide_eq_true_eq] at firstName secondName
    exact List.inj_on_of_nodup_map distinct firstMember secondMember
      (firstName.trans secondName.symm)

theorem find?_upsertAll_of_unique (table : KeyedTable key) {rows : List ρ} {k : κ}
    (unique : ∀ first ∈ rows, ∀ second ∈ rows, key first = key second → first = second)
    {found : Option ρ} (spec : ∀ row, found = some row ↔ row ∈ rows ∧ key row = k) :
    (table.upsertAll rows).find? k = found.or (table.find? k) := by
  rw [find?_upsertAll]
  refine congrArg (Option.or · _) (Option.ext fun row => ?_)
  rw [spec, find?_eq_some_of_unique, List.mem_reverse, decide_eq_true_eq]
  intro first firstMember second secondMember firstKey secondKey
  rw [decide_eq_true_eq] at firstKey secondKey
  exact unique first (List.mem_reverse.mp firstMember) second (List.mem_reverse.mp secondMember)
    (firstKey.trans secondKey.symm)

/-- Rows with distinct keys all get their place. -/
theorem perm_upsertAll_empty {rows : List ρ} (distinct : (rows.map key).Nodup) :
    ((empty : KeyedTable key).upsertAll rows).rows.Perm rows := by
  rw [List.perm_ext_iff_of_nodup (.of_map key (nodup_keys _)) (.of_map key distinct)]
  intro row
  have kept := find?_upsertAll (empty : KeyedTable key) rows (key row)
  have unique : ∀ first ∈ rows.reverse, ∀ second ∈ rows.reverse,
      decide (key first = key row) = true → decide (key second = key row) = true →
        first = second := by
    intro first firstMember second secondMember firstKey secondKey
    exact List.inj_on_of_nodup_map distinct (List.mem_reverse.mp firstMember)
      (List.mem_reverse.mp secondMember)
      ((of_decide_eq_true firstKey).trans (of_decide_eq_true secondKey).symm)
  have stored := @find?_eq_some_of_unique _ _ _ unique row
  rw [find?_empty, Option.or_none] at kept
  rw [← kept, find?_eq_some_iff] at stored
  simpa using stored

theorem find?_mapRows (table : KeyedTable key) (f : ρ → ρ) (keeps : ∀ row, key (f row) = key row)
    (k : κ) : (table.mapRows f keeps).find? k = (table.find? k).map f := by
  rw [find?, find?, mapRows, List.find?_map]
  simp only [Function.comp_def, keeps]

theorem rows_upsert_of_below {table : KeyedTable key} {row : ρ}
    (below : ∀ other ∈ table.rows, key other < key row) :
    (table.upsert row).rows = table.rows ++ [row] := by
  have kept : table.rows.filter (fun other => key other < key row) = table.rows :=
    List.filter_eq_self.mpr fun other member => by simpa using below other member
  have dropped : table.rows.filter (fun other => key row < key other) = [] :=
    List.filter_eq_nil_iff.mpr fun other member => by simpa using (below other member).le
  simp only [upsert, kept, dropped]

theorem insert?_of_below {table : KeyedTable key} {row : ρ}
    (below : ∀ other ∈ table.rows, key other < key row) :
    table.insert? row = some (table.upsert row) := by
  have fresh : table.find? (key row) = none :=
    find?_eq_none_iff.mpr fun other member => (below other member).ne
  simp [insert?, fresh]

/-- Rows with keys of their own can be inserted one after another. -/
theorem foldlM_insert?_isSome {table : KeyedTable key} {rows : List ρ}
    (distinct : (rows.map key).Nodup)
    (fresh : ∀ row ∈ rows, ∀ other ∈ table.rows, key other ≠ key row) :
    (rows.foldlM insert? table).isSome := by
  induction rows generalizing table with
  | nil => rfl
  | cons row rest ih =>
      obtain ⟨alone, distinctRest⟩ := List.nodup_cons.mp distinct
      have free : table.find? (key row) = none :=
        find?_eq_none_iff.mpr (fresh row List.mem_cons_self)
      have inserted : table.insert? row = some (table.upsert row) := by simp [insert?, free]
      rw [List.foldlM_cons, inserted, Option.bind_eq_bind, Option.bind_some]
      refine ih distinctRest fun later member other stored => ?_
      rcases mem_rows_upsert.mp stored with rfl | ⟨before, _⟩
      · exact fun same => alone (same ▸ List.mem_map_of_mem member)
      · exact fresh later (List.mem_cons_of_mem _ member) other before

end KeyedTable

end Vpsiner.Lib
