import Vpsiner.Frontend.UseLogs
import Vpsiner.Lib.Stretch

/-! Pages that lie one after the other in the log, and what the client does to them. -/

set_option autoImplicit false

namespace Vpsiner.Frontend

open Lib

variable {rows : List LogLine} {start : Nat} {page : LogPageEntry} {pages : List LogPageEntry}

@[simp] theorem totalLines_nil : totalLines [] = 0 := rfl

@[simp] theorem totalLines_cons (page : LogPageEntry) (pages : List LogPageEntry) :
    totalLines (page :: pages) = page.items.length + totalLines pages := rfl

@[simp] theorem totalLines_append (left right : List LogPageEntry) :
    totalLines (left ++ right) = totalLines left + totalLines right := by
  simp [totalLines]

/-- The page holds the rows from a position on, and its cursors name the outermost of them. -/
structure PageAt (rows : List LogLine) (start : Nat) (page : LogPageEntry) : Prop where
  items : page.items = stretch rows start (start + page.items.length)
  inside : start + page.items.length ≤ rows.length
  small : page.items.length ≤ tailPageSize
  older : ∀ cursor, page.olderCursor = some cursor → cursor = start ∧ page.items ≠ []
  newer : page.newerCursor =
    if page.items = [] then none else some (start + page.items.length - 1)

theorem PageAt.grow {earlier : List LogLine} (grown : earlier <+: rows)
    (at_ : PageAt earlier start page) : PageAt rows start page where
  items := at_.items.trans (stretch_of_longer grown at_.inside)
  inside := at_.inside.trans grown.length_le
  small := at_.small
  older := at_.older
  newer := at_.newer

/-- An empty page is anywhere. -/
theorem PageAt.rebase {other : Nat} (at_ : PageAt rows start page) (empty : page.items = [])
    (inside : other ≤ rows.length) : PageAt rows other page where
  items := by rw [empty, List.length_nil, Nat.add_zero, stretch_self]
  inside := by rwa [empty, List.length_nil, Nat.add_zero]
  small := at_.small
  older cursor known := absurd empty (at_.older cursor known).2
  newer := by rw [at_.newer, if_pos empty, if_pos empty]

def Tiled (rows : List LogLine) : Nat → List LogPageEntry → Prop
  | start, [] => start ≤ rows.length
  | start, page :: rest => PageAt rows start page ∧ Tiled rows (start + page.items.length) rest

theorem Tiled.grow {earlier : List LogLine} (grown : earlier <+: rows)
    (tiled : Tiled earlier start pages) : Tiled rows start pages := by
  induction pages generalizing start with
  | nil => exact tiled.trans grown.length_le
  | cons page rest ih => exact ⟨tiled.1.grow grown, ih tiled.2⟩

theorem tiled_append {left right : List LogPageEntry} :
    Tiled rows start (left ++ right) ↔
      Tiled rows start left ∧ Tiled rows (start + totalLines left) right := by
  induction left generalizing start with
  | nil =>
      refine ⟨fun tiled => ⟨?_, tiled⟩, And.right⟩
      induction right generalizing start with
      | nil => exact tiled
      | cons page rest _ => exact (Nat.le_add_right _ _).trans tiled.1.inside
  | cons page rest ih =>
      rw [List.cons_append, totalLines_cons, ← Nat.add_assoc]
      exact (and_congr_right fun _ => ih).trans and_assoc.symm

theorem Tiled.lines (tiled : Tiled rows start pages) :
    pages.flatMap LogPageEntry.items = stretch rows start (start + totalLines pages) ∧
      start + totalLines pages ≤ rows.length := by
  induction pages generalizing start with
  | nil => exact ⟨(stretch_self rows start).symm, tiled⟩
  | cons page rest ih =>
      obtain ⟨lines, inside⟩ := ih tiled.2
      rw [totalLines_cons, ← Nat.add_assoc]
      refine ⟨?_, inside⟩
      calc (page :: rest).flatMap LogPageEntry.items
          = stretch rows start (start + page.items.length) ++
              stretch rows (start + page.items.length)
                (start + page.items.length + totalLines rest) := by
            rw [List.flatMap_cons, lines, ← tiled.1.items]
        _ = _ := stretch_append_stretch (Nat.le_add_right _ _) (Nat.le_add_right _ _)

theorem Tiled.rebase {other : Nat} (tiled : Tiled rows start pages)
    (empty : ∀ page ∈ pages, page.items = []) (inside : other ≤ rows.length) :
    Tiled rows other pages := by
  induction pages generalizing start with
  | nil => exact inside
  | cons page rest ih =>
      obtain ⟨first, others⟩ := List.forall_mem_cons.mp empty
      refine ⟨tiled.1.rebase first inside, ?_⟩
      rw [first, List.length_nil, Nat.add_zero]
      exact ih tiled.2 others

/-- Pages that follow each other, empty ones before all others. -/
structure PagesInv (rows : List LogLine) (pages : List LogPageEntry) : Prop where
  tiled : ∃ start, Tiled rows start pages
  filled : pages.Pairwise fun earlier later => earlier.items ≠ [] → later.items ≠ []

theorem PagesInv.nil (rows : List LogLine) : PagesInv rows [] where
  tiled := ⟨0, Nat.zero_le _⟩
  filled := .nil

theorem PagesInv.singleton (at_ : PageAt rows start page) : PagesInv rows [page] where
  tiled := ⟨start, at_, at_.inside⟩
  filled := List.pairwise_singleton _ _

theorem PagesInv.grow {earlier : List LogLine} (grown : earlier <+: rows)
    (inv : PagesInv earlier pages) : PagesInv rows pages where
  tiled := inv.tiled.imp fun _ tiled => tiled.grow grown
  filled := inv.filled

theorem PagesInv.drop (inv : PagesInv rows pages) (count : Nat) :
    PagesInv rows (pages.drop count) := by
  obtain ⟨start, tiled⟩ := inv.tiled
  rw [← List.take_append_drop count pages] at tiled
  exact ⟨⟨_, (tiled_append.mp tiled).2⟩, inv.filled.sublist (List.drop_sublist _ _)⟩

theorem PagesInv.take (inv : PagesInv rows pages) (count : Nat) :
    PagesInv rows (pages.take count) := by
  obtain ⟨start, tiled⟩ := inv.tiled
  rw [← List.take_append_drop count pages] at tiled
  exact ⟨⟨_, (tiled_append.mp tiled).1⟩, inv.filled.sublist (List.take_sublist _ _)⟩

theorem flatMap_items_eq_nil_iff :
    pages.flatMap LogPageEntry.items = [] ↔ ∀ page ∈ pages, page.items = [] :=
  List.flatMap_eq_nil_iff

theorem Tiled.cursors (tiled : Tiled rows start pages)
    (filled : pages.Pairwise fun earlier later => earlier.items ≠ [] → later.items ≠ []) :
    (∀ cursor, pages.head?.bind LogPageEntry.olderCursor = some cursor →
      cursor = start ∧ ∀ page ∈ pages, page.items ≠ []) ∧
    (pages.flatMap LogPageEntry.items ≠ [] → 0 < totalLines pages ∧
      pages.getLast?.bind LogPageEntry.newerCursor = some (start + totalLines pages - 1)) := by
  constructor
  · intro cursor known
    cases pages with
    | nil => cases known
    | cons page rest =>
        obtain ⟨same, nonempty⟩ := tiled.1.older cursor known
        refine ⟨same, List.forall_mem_cons.mpr ⟨nonempty, fun next member => ?_⟩⟩
        exact (List.pairwise_cons.mp filled).1 next member nonempty
  · intro shown
    obtain ⟨front, last, rfl⟩ := List.eq_nil_or_concat' pages |>.resolve_left (by
      rintro rfl
      exact shown rfl)
    have nonempty : last.items ≠ [] := by
      intro empty
      refine shown (flatMap_items_eq_nil_iff.mpr fun page member => ?_)
      rcases List.mem_append.mp member with before | same
      · by_contra filledPage
        exact (List.pairwise_append.mp filled).2.2 page before last (List.mem_singleton_self _)
          filledPage empty
      · rw [List.mem_singleton.mp same, empty]
    obtain ⟨_, at_, _⟩ := tiled_append.mp tiled
    have positive := List.length_pos_iff.mpr nonempty
    rw [List.getLast?_concat, Option.bind_some, at_.newer, if_neg nonempty, totalLines_append,
      totalLines_cons, totalLines_nil, Nat.add_zero, Nat.add_assoc]
    exact ⟨by omega, rfl⟩

/-! ## What the server answers -/

theorem query_backward {before : Option Nat} (inside : ∀ cursor ∈ before, cursor ≤ rows.length)
    (limit : Nat) :
    (query rows ⟨limit, before, none⟩).items =
        stretch rows (before.getD rows.length - limit) (before.getD rows.length) ∧
      before.getD rows.length ≤ rows.length ∧
      (query rows ⟨limit, before, none⟩).olderCursor =
        (if (query rows ⟨limit, before, none⟩).items = [] then none
          else some (before.getD rows.length - limit)) ∧
      (query rows ⟨limit, before, none⟩).newerCursor =
        if (query rows ⟨limit, before, none⟩).items = [] then none
          else some (before.getD rows.length - 1) := by
  have bounded : before.getD rows.length ≤ rows.length := by
    cases before with
    | none => exact le_rfl
    | some cursor => exact inside cursor rfl
  have lengths := length_stretch (before.getD rows.length - limit) bounded
  have cut := rtake_take bounded limit
  by_cases none : (rows.take (before.getD rows.length)).rtake limit = []
  · have shape : query rows ⟨limit, before, Option.none⟩ = emptyPage Option.none := if_pos none
    rw [shape]
    exact ⟨none.symm.trans cut, bounded, rfl, rfl⟩
  · have shape : query rows ⟨limit, before, Option.none⟩ = _ := if_neg none
    rw [shape]
    dsimp only
    rw [if_neg none, if_neg none, cut, lengths, List.length_take, min_eq_left bounded]
    refine ⟨rfl, bounded, ?_, rfl⟩
    congr 1
    omega

theorem query_forward (rows : List LogLine) (limit cursor : Nat) :
    (query rows ⟨limit, none, some cursor⟩).items =
        stretch rows (cursor + 1) (cursor + 1 + limit) ∧
      ((query rows ⟨limit, none, some cursor⟩).items ≠ [] →
        (query rows ⟨limit, none, some cursor⟩).olderCursor = some (cursor + 1) ∧
        (query rows ⟨limit, none, some cursor⟩).newerCursor =
          some (cursor + (query rows ⟨limit, none, some cursor⟩).items.length)) := by
  have cut := take_drop rows (cursor + 1) limit
  by_cases none : (rows.drop (cursor + 1)).take limit = []
  · have shape : query rows ⟨limit, Option.none, some cursor⟩ = emptyPage (some cursor) :=
      if_pos none
    rw [shape]
    exact ⟨none.symm.trans cut, fun some => absurd rfl some⟩
  · have shape : query rows ⟨limit, Option.none, some cursor⟩ = _ := if_neg none
    rw [shape]
    exact ⟨cut, fun _ => ⟨rfl, rfl⟩⟩

def entryOf (page : LogPage) : LogPageEntry := ⟨page.items, page.olderCursor, page.newerCursor⟩

theorem length_stretch_add_le (rows : List LogLine) (start count : Nat) :
    (stretch rows start (start + count)).length ≤ count := by
  rw [stretch, List.length_drop, List.length_take]
  omega

/-- A stretch that is not empty begins in the log and is as long as it seems. -/
theorem stretch_eq_of_length (rows : List LogLine) (start stop : Nat)
    (nonempty : stretch rows start stop ≠ []) :
    stretch rows start stop =
        stretch rows start (start + (stretch rows start stop).length) ∧
      start + (stretch rows start stop).length ≤ rows.length := by
  have positive := List.length_pos_iff.mpr nonempty
  have lengths : (stretch rows start stop).length = min stop rows.length - start := by
    rw [stretch, List.length_drop, List.length_take]
  rw [lengths] at positive ⊢
  have ends : start + (min stop rows.length - start) = min stop rows.length := by omega
  rw [ends, stretch_min]
  exact ⟨rfl, min_le_right _ _⟩

theorem pageAt_backward {before : Option Nat} (inside : ∀ cursor ∈ before, cursor ≤ rows.length)
    {limit : Nat} (small : limit ≤ tailPageSize) :
    PageAt rows (before.getD rows.length - limit)
      (entryOf (query rows ⟨limit, before, none⟩)) := by
  obtain ⟨items, bounded, older, newer⟩ := query_backward inside limit
  have lengths := length_stretch (before.getD rows.length - limit) bounded
  have ends : before.getD rows.length - limit +
      (query rows ⟨limit, before, none⟩).items.length = before.getD rows.length := by
    rw [items, lengths]
    omega
  refine ⟨?_, ?_, ?_, ?_, ?_⟩
  · unfold entryOf
    dsimp only
    rw [ends]
    exact items
  · unfold entryOf
    dsimp only
    rwa [ends]
  · unfold entryOf
    dsimp only
    rw [items, lengths]
    omega
  · intro cursor known
    unfold entryOf at known ⊢
    dsimp only at known ⊢
    rw [older] at known
    split at known
    · cases known
    · next nonempty => exact ⟨(Option.some.inj known).symm, nonempty⟩
  · unfold entryOf
    dsimp only
    rw [newer, ends]

theorem pageAt_forward {limit cursor : Nat} (small : limit ≤ tailPageSize)
    (nonempty : (query rows ⟨limit, none, some cursor⟩).items ≠ []) :
    PageAt rows (cursor + 1) (entryOf (query rows ⟨limit, none, some cursor⟩)) := by
  obtain ⟨items, cursors⟩ := query_forward rows limit cursor
  obtain ⟨older, newer⟩ := cursors nonempty
  have shape := stretch_eq_of_length rows (cursor + 1) (cursor + 1 + limit) (items ▸ nonempty)
  rw [← items] at shape
  refine ⟨shape.1, shape.2, ?_, ?_, ?_⟩
  · unfold entryOf
    dsimp only
    rw [items]
    exact (length_stretch_add_le rows (cursor + 1) limit).trans small
  · intro other known
    have same : some (cursor + 1) = some other := older.symm.trans known
    exact ⟨(Option.some.inj same).symm, nonempty⟩
  · have last : (entryOf (query rows ⟨limit, none, some cursor⟩)).newerCursor = _ := newer
    rw [last, if_neg (show (entryOf _).items ≠ [] from nonempty)]
    congr 1
    have positive := List.length_pos_iff.mpr nonempty
    show _ = cursor + 1 + (query rows ⟨limit, none, some cursor⟩).items.length - 1
    omega

/-! ## Eviction -/

/-- The loop ends on a page that took over the cursor of a dropped one. -/
def endsHandedOver (handed : Bool) (dropped : LogPageEntry) : List LogPageEntry → Bool
  | [] => handed
  | next :: rest =>
      if maxLoadedLines < totalLines (dropped :: next :: rest) then
        endsHandedOver (next.olderCursor.isNone && dropped.olderCursor.isSome)
          (handOver .head dropped next) rest
      else handed

def takesOver : List LogPageEntry → Bool
  | [] => false
  | first :: rest => endsHandedOver false first rest

theorem evictFrom_head {handed : Bool} {dropped original : LogPageEntry}
    (same : handed = false → dropped = original) {rest : List LogPageEntry}
    (own : endsHandedOver handed dropped rest = false) :
    ∃ count, evictFrom .head dropped rest = (original :: rest).drop count := by
  induction rest generalizing handed dropped original with
  | nil => exact ⟨0, congrArg (fun page => [page]) (same own)⟩
  | cons next rest ih =>
      unfold endsHandedOver at own
      unfold evictFrom
      split at own
      · next evicts =>
          rw [if_pos evicts]
          have kept : (next.olderCursor.isNone && dropped.olderCursor.isSome) = false →
              handOver .head dropped next = next := by
            intro nothing
            unfold handOver
            dsimp only
            split
            · next none =>
                rw [none, Option.isNone_none, Bool.true_and, Option.isSome_eq_false_iff,
                  Option.isNone_iff_eq_none] at nothing
                rw [nothing, ← none]
            · rfl
          obtain ⟨count, left⟩ := ih kept own
          exact ⟨count + 1, left⟩
      · next stays =>
          rw [if_neg stays]
          exact ⟨0, congrArg (fun page => page :: next :: rest) (same own)⟩

/-- A page without a newer cursor is empty, and never next to a dropped one. -/
theorem evictFrom_tail {dropped : LogPageEntry} {rest : List LogPageEntry}
    (small : dropped.items.length ≤ tailPageSize)
    (filled : (dropped :: rest).Pairwise fun later earlier => earlier.items ≠ [] → later.items ≠ [])
    (at_ : ∀ page ∈ rest, ∃ start, PageAt rows start page) :
    ∃ count, evictFrom .tail dropped rest = (dropped :: rest).drop count := by
  induction rest generalizing dropped with
  | nil => exact ⟨0, rfl⟩
  | cons next rest ih =>
      obtain ⟨⟨start, nextAt⟩, others⟩ := List.forall_mem_cons.mp at_
      obtain ⟨_, later⟩ := List.pairwise_cons.mp filled
      unfold evictFrom
      split
      · next evicts =>
          have kept : handOver .tail dropped next = next := by
            unfold handOver
            refine if_neg fun none => ?_
            rw [nextAt.newer] at none
            have empty : next.items = [] := by
              by_contra nonempty
              rw [if_neg nonempty] at none
              cases none
            have nothing : totalLines rest = 0 := by
              have none : ∀ page ∈ rest, page.items = [] := by
                intro page present
                by_contra nonempty
                exact (List.pairwise_cons.mp later).1 page present nonempty empty
              rw [totalLines, List.map_congr_left fun page present =>
                congrArg List.length (none page present)]
              simp
            rw [totalLines_cons, totalLines_cons, nothing, empty] at evicts
            simp only [maxLoadedLines, tailPageSize, List.length_nil] at evicts small
            omega
          rw [kept]
          obtain ⟨count, left⟩ := ih nextAt.small later others
          exact ⟨count + 1, left⟩
      · exact ⟨0, rfl⟩

theorem Tiled.forall_mem (tiled : Tiled rows start pages) :
    ∀ page ∈ pages, ∃ start, PageAt rows start page := by
  induction pages generalizing start with
  | nil => exact fun _ member => absurd member List.not_mem_nil
  | cons page rest ih => exact List.forall_mem_cons.mpr ⟨⟨start, tiled.1⟩, ih tiled.2⟩

namespace UseLogs

variable {client : UseLogs}

theorem evict_tailSource (client : UseLogs) (edge : Edge) :
    (client.evict edge).tailSource = client.tailSource := by
  unfold evict
  cases edge with
  | head => cases client.pages <;> rfl
  | tail => cases client.pages.reverse <;> rfl

theorem evict_head (own : takesOver client.pages = false) :
    ∃ count, (client.evict .head).pages = client.pages.drop count := by
  unfold evict
  cases shape : client.pages with
  | nil => exact ⟨0, shape⟩
  | cons first rest =>
      rw [shape] at own
      exact evictFrom_head (fun _ => rfl) own

theorem evict_tail (inv : PagesInv rows client.pages) :
    ∃ count, (client.evict .tail).pages = client.pages.take count := by
  unfold evict
  cases shape : client.pages.reverse with
  | nil =>
      exact ⟨0, List.reverse_eq_nil_iff.mp shape⟩
  | cons last rest =>
      have order : client.pages = (last :: rest).reverse := by rw [← shape, List.reverse_reverse]
      obtain ⟨start, tiled⟩ := inv.tiled
      have at_ : ∀ page ∈ last :: rest, ∃ start, PageAt rows start page := by
        intro page member
        refine tiled.forall_mem page ?_
        rw [order]
        exact List.mem_reverse.mpr member
      obtain ⟨⟨_, lastAt⟩, others⟩ := List.forall_mem_cons.mp at_
      have filled := inv.filled
      rw [order, List.pairwise_reverse] at filled
      obtain ⟨count, left⟩ := evictFrom_tail lastAt.small filled others
      refine ⟨(last :: rest).length - count, ?_⟩
      dsimp only
      rw [left, List.reverse_drop, ← order]

end UseLogs

end Vpsiner.Frontend
