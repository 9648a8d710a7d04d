import Mathlib.Data.List.Dedup
import Mathlib.Data.List.Perm.Basic

/-! Hash maps as lists of entries. The order in which a hash map is iterated is
unspecified, so users quantify over `HashOrder`. -/

set_option autoImplicit false

namespace Vpsiner.Lib

/-- One possible iteration order: a rearrangement of the entries. -/
structure HashOrder where
  arrange : {α : Type} → List α → List α
  perm : ∀ {α : Type} (entries : List α), (arrange entries).Perm entries

namespace HashOrder

def unchanged : HashOrder := ⟨id, fun _ => .refl _⟩

theorem mem_arrange (order : HashOrder) {α : Type} {entries : List α} {entry : α} :
    entry ∈ order.arrange entries ↔ entry ∈ entries :=
  (order.perm entries).mem_iff

end HashOrder

variable {κ σ : Type} [DecidableEq κ]

/-- The entries of a map built by pushing each item to the vector under its key. -/
def groupByKey (key : σ → κ) (items : List σ) : List (κ × List σ) :=
  (items.map key).dedup.map fun k => (k, items.filter fun item => key item = k)

theorem mem_groupByKey {key : σ → κ} {items : List σ} {k : κ} {group : List σ} :
    (k, group) ∈ groupByKey key items ↔
      (∃ item ∈ items, key item = k) ∧ group = items.filter fun item => key item = k := by
  simp only [groupByKey, List.mem_map, List.mem_dedup, Prod.mk.injEq]
  constructor
  · rintro ⟨_, present, rfl, rfl⟩
    exact ⟨present, rfl⟩
  · rintro ⟨present, rfl⟩
    exact ⟨k, present, rfl, rfl⟩

theorem nodup_keys_groupByKey (key : σ → κ) (items : List σ) :
    ((groupByKey key items).map Prod.fst).Nodup := by
  simpa [groupByKey, Function.comp_def] using List.nodup_dedup (items.map key)

theorem perm_flatMap_groups (key : σ → Option κ) (items : List σ) {keys : List κ}
    (distinct : keys.Nodup) :
    (keys.flatMap fun k => items.filter fun item => key item = some k).Perm
      (items.filter fun item => keys.any fun k => key item = some k) := by
  induction keys with
  | nil => simp
  | cons k rest ih =>
      obtain ⟨absent, distinctRest⟩ := List.nodup_cons.mp distinct
      have split := List.filter_append_perm (fun item => decide (key item = some k))
        (items.filter fun item => (k :: rest).any fun k => key item = some k)
      rw [List.filter_filter, List.filter_filter] at split
      refine List.Perm.trans (List.Perm.append_left _ (ih distinctRest)) ?_
      refine (List.Perm.of_eq ?_).trans split
      congr 1
      · refine List.filter_congr fun item _ => ?_
        by_cases same : key item = some k
        · simp [same]
        · simp [same]
      · refine List.filter_congr fun item _ => ?_
        by_cases same : key item = some k
        · have elsewhere : ∀ other ∈ rest, k ≠ other := by
            intro other member equal
            exact absent (equal ▸ member)
          simpa [same] using elsewhere
        · simp [same]

theorem perm_flatMap_groupByKey (key : σ → κ) (items : List σ) :
    ((groupByKey key items).flatMap Prod.snd).Perm items := by
  have split := perm_flatMap_groups (fun item => some (key item)) items
    (List.nodup_dedup (items.map key))
  have every : items.filter (fun item => ((items.map key).dedup.any fun k =>
      some (key item) = some k)) = items := by
    apply List.filter_eq_self.mpr
    intro item member
    simp only [Option.some.injEq, List.any_eq_true, decide_eq_true_eq, List.mem_dedup]
    exact ⟨key item, List.mem_map_of_mem member, rfl⟩
  rw [every] at split
  simpa [groupByKey, List.flatMap_map] using split

/-- What is read out of the groups, in any order, is what the items give one by one. -/
theorem HashOrder.perm_flatMap_groups {τ : Type} (order : HashOrder) (key : σ → κ)
    (items : List σ) {read : κ × List σ → List τ} {single : σ → Option τ}
    (agrees : ∀ k, (read (k, items.filter fun item => key item = k)).Perm
      ((items.filter fun item => key item = k).filterMap single)) :
    ((order.arrange (groupByKey key items)).flatMap read).Perm (items.filterMap single) := by
  have arranged := (order.perm (groupByKey key items)).flatMap_right read
  have groups : ((groupByKey key items).flatMap read).Perm
      ((groupByKey key items).flatMap fun entry => entry.2.filterMap single) := by
    apply List.Perm.flatMap_left
    rintro ⟨k, group⟩ member
    obtain ⟨-, rfl⟩ := mem_groupByKey.mp member
    exact agrees k
  have items := (perm_flatMap_groupByKey key items).filterMap single
  rw [List.filterMap_flatMap] at items
  exact (arranged.trans groups).trans items

end Vpsiner.Lib
