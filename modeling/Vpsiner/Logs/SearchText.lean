import Vpsiner.Lib.FullText
import Vpsiner.Logs.Helpers

/-! What the text of a search means to the full text index: quoted strings joined by `OR`,
whatever the user wrote. -/

set_option autoImplicit false

namespace Vpsiner.Logs

open Vpsiner.Lib

/-- The parts of a text between its double quotes; every second one is quoted. -/
def quoteParts (raw : List Char) : List (List Char × Nat) := (raw.splitOnP (· == '"')).zipIdx

/-- A quoted part is one token, other parts are cut at whitespace; nothing empty is one. -/
def partTokens (quoted : Bool) (part : List Char) : List (List Char) :=
  if quoted then [part].filter (!·.isEmpty) else splitWhitespace part

def isQuoted (place : Nat) : Bool := place % 2 == 1

def searchTokens (raw : String) : List (List Char) :=
  (quoteParts raw.toList).flatMap fun part => partTokens (isQuoted part.2) part.1

/-- Whitespace outside of quotes, and nothing between them. -/
def OnlyBlank (raw : String) : Prop :=
  ∀ part ∈ quoteParts raw.toList,
    if isQuoted part.2 then part.1 = [] else ∀ char ∈ part.1, isWhitespace char = true

/-! ## Tokens -/

theorem partTokens_of_word {quoted : Bool} {part : List Char}
    (word : quoted = false → ∀ char ∈ part, isWhitespace char = false) :
    partTokens quoted part = [part].filter (!·.isEmpty) := by
  cases quoted with
  | true => rfl
  | false => simp [partTokens, splitWhitespace, List.splitOnP_eq_singleton (word rfl)]

theorem partTokens_cut {front : List Char} {blank : Char} (cut : isWhitespace blank = true)
    (word : ∀ char ∈ front, isWhitespace char = false) (rest : List Char) :
    partTokens false (front ++ blank :: rest) =
      [front].filter (!·.isEmpty) ++ partTokens false rest := by
  simp only [partTokens, splitWhitespace, List.splitOnP_append_cons _ _ cut,
    List.splitOnP_eq_singleton word, List.filter_append, Bool.false_eq_true, if_false]

theorem partTokens_eq_nil_iff {quoted : Bool} {part : List Char} :
    partTokens quoted part = [] ↔
      if quoted then part = [] else ∀ char ∈ part, isWhitespace char = true := by
  cases quoted with
  | true => cases part <;> simp [partTokens]
  | false =>
      simp only [Bool.false_eq_true, if_false]
      induction part with
      | nil => simp [partTokens, splitWhitespace]
      | cons head rest ih =>
          by_cases blank : isWhitespace head = true
          · have cut := @partTokens_cut [] head blank (by simp) rest
            simp only [List.nil_append] at cut
            simp [cut, ih, blank]
          · obtain ⟨piece, others, parts⟩ :=
              List.exists_cons_of_ne_nil (List.splitOnP_ne_nil isWhitespace rest)
            simp [partTokens, splitWhitespace, List.splitOnP_cons_eq_if_modifyHead, blank, parts]

theorem partTokens_nonempty {quoted : Bool} {part token : List Char}
    (member : token ∈ partTokens quoted part) : token ≠ [] := by
  cases quoted with
  | true => simpa [partTokens] using (List.mem_filter.mp member).2
  | false => simpa using (List.mem_filter.mp member).2

/-! ## The scan -/

theorem FtsScan.tokens_flush (scan : FtsScan) :
    scan.flush.tokens = scan.tokens ++ [scan.current].filter (!·.isEmpty) := by
  cases empty : scan.current.isEmpty <;> simp [FtsScan.flush, empty]

theorem FtsScan.current_flush (scan : FtsScan) : scan.flush.current = [] := by
  cases empty : scan.current.isEmpty <;> simp_all [FtsScan.flush]

theorem FtsScan.inQuotes_flush (scan : FtsScan) : scan.flush.inQuotes = scan.inQuotes := by
  cases empty : scan.current.isEmpty <;> simp [FtsScan.flush, empty]

/-- What the scan holds of the part it is in: no quote, and no whitespace unless the part
is quoted. -/
structure FtsScan.Holds (scan : FtsScan) (place : Nat) : Prop where
  inQuotes : scan.inQuotes = isQuoted place
  unquoted : ∀ char ∈ scan.current, (char == '"') = false
  word : isQuoted place = false → ∀ char ∈ scan.current, isWhitespace char = false

/-- The scan finds the tokens of the part it is in and of the parts that follow. -/
theorem FtsScan.tokens_foldl (chars : List Char) (scan : FtsScan) (place : Nat)
    (holds : scan.Holds place) :
    (chars.foldl FtsScan.step scan).flush.tokens = scan.tokens ++
      (((scan.current ++ chars).splitOnP (· == '"')).zipIdx place).flatMap fun part =>
        partTokens (isQuoted part.2) part.1 := by
  obtain ⟨inQuotes, unquoted, word⟩ := holds
  induction chars generalizing scan place with
  | nil =>
      simp [FtsScan.tokens_flush, List.splitOnP_eq_singleton unquoted, partTokens_of_word word]
  | cons char rest ih =>
      rw [List.foldl_cons]
      by_cases isQuote : char = '"'
      · have next := ih { scan.flush with inQuotes := !scan.inQuotes } (place + 1)
          (by simp only [inQuotes, isQuoted]; grind) (by simp [FtsScan.current_flush])
          (by simp [FtsScan.current_flush])
        rw [FtsScan.step, if_pos isQuote, next]
        simp [isQuote, FtsScan.tokens_flush, FtsScan.current_flush,
          List.splitOnP_append_cons_of_forall_mem unquoted, partTokens_of_word word]
      · have plain : (char == '"') = false := by simpa using isQuote
        have front : ∀ other ∈ scan.current ++ [char], (other == '"') = false :=
          List.forall_mem_append.mpr ⟨unquoted, List.forall_mem_singleton.mpr plain⟩
        rw [FtsScan.step, if_neg isQuote]
        by_cases cuts : (isWhitespace char && !scan.inQuotes) = true
        · obtain ⟨blank, outside⟩ : isWhitespace char = true ∧ isQuoted place = false := by
            simpa [inQuotes] using cuts
          have next := ih scan.flush place (by rw [FtsScan.inQuotes_flush, inQuotes])
            (by simp [FtsScan.current_flush]) (by simp [FtsScan.current_flush])
          obtain ⟨piece, others, parts⟩ :=
            List.exists_cons_of_ne_nil (List.splitOnP_ne_nil (· == '"') rest)
          have whole := Text.splitOnP_append front rest
          simp only [parts, List.modifyHead_cons, List.append_assoc, List.singleton_append] at whole
          rw [if_pos cuts, next]
          simp [FtsScan.tokens_flush, FtsScan.current_flush, whole, parts, outside,
            partTokens_cut blank (word outside)]
        · have next := ih { scan with current := scan.current ++ [char] } place inQuotes front
            (by
              intro outside
              have letter : isWhitespace char = false := by simpa [inQuotes, outside] using cuts
              exact List.forall_mem_append.mpr
                ⟨word outside, List.forall_mem_singleton.mpr letter⟩)
          rw [if_neg cuts, next]
          simp

theorem tokens_scan (raw : String) :
    (raw.toList.foldl FtsScan.step {}).flush.tokens = searchTokens raw := by
  simpa [searchTokens, quoteParts] using
    FtsScan.tokens_foldl raw.toList {} 0 ⟨rfl, by simp, by simp⟩

theorem sanitizeFtsQuery_eq (raw : String) :
    sanitizeFtsQuery raw = if searchTokens raw = [] then none
      else some (String.ofList (FullText.render (searchTokens raw))) := by
  simp only [sanitizeFtsQuery, tokens_scan, List.isEmpty_iff]
  rfl

theorem searchTokens_eq_nil_iff (raw : String) : searchTokens raw = [] ↔ OnlyBlank raw := by
  simp only [searchTokens, OnlyBlank, List.flatMap_eq_nil_iff, partTokens_eq_nil_iff]

theorem mem_of_mem_partTokens {quoted : Bool} {part token : List Char}
    (member : token ∈ partTokens quoted part) {char : Char} (inside : char ∈ token) :
    char ∈ part := by
  cases quoted with
  | true =>
      rw [← List.mem_singleton.mp (List.mem_filter.mp member).1]
      exact inside
  | false => exact (Text.mem_of_mem_splitOnP (List.mem_filter.mp member).1 inside).1

theorem mem_of_mem_searchTokens {raw : String} {token : List Char}
    (member : token ∈ searchTokens raw) {char : Char} (inside : char ∈ token) :
    char ∈ raw.toList ∧ char ≠ '"' := by
  obtain ⟨⟨part, place⟩, present, held⟩ := List.mem_flatMap.mp member
  have partMember : part ∈ raw.toList.splitOnP (· == '"') := by
    have found := List.mem_zipIdx' present
    exact found.2 ▸ List.getElem_mem _
  obtain ⟨kept, free⟩ := Text.mem_of_mem_splitOnP partMember (mem_of_mem_partTokens held inside)
  exact ⟨kept, by simpa using free⟩

theorem searchTokens_free {raw : String} {token : List Char} (member : token ∈ searchTokens raw) :
    token ≠ [] ∧ '"' ∉ token := by
  obtain ⟨part, present, inside⟩ := List.mem_flatMap.mp member
  exact ⟨partTokens_nonempty inside, fun quote => (mem_of_mem_searchTokens member quote).2 rfl⟩

/-! ## The end of an expression -/

theorem exists_mem_partTokens (quoted : Bool) {part : List Char} {char : Char}
    (inside : char ∈ part) (letter : isWhitespace char = false) :
    ∃ token ∈ partTokens quoted part, char ∈ token := by
  have filled : ∀ token : List Char, char ∈ token → (!token.isEmpty) = true := by
    intro token held
    simp [List.ne_nil_of_mem held]
  cases quoted with
  | true => exact ⟨part, List.mem_filter.mpr ⟨List.mem_singleton_self _, filled _ inside⟩, inside⟩
  | false =>
      obtain ⟨token, member, held⟩ := Text.exists_mem_splitOnP inside letter
      exact ⟨token, List.mem_filter.mpr ⟨member, filled _ held⟩, held⟩

/-- Of what a user writes only quotes and whitespace stay outside of the tokens. -/
theorem exists_mem_searchTokens {raw : String} {char : Char} (inside : char ∈ raw.toList)
    (different : char ≠ '"') (letter : isWhitespace char = false) :
    ∃ token ∈ searchTokens raw, char ∈ token := by
  have plain : (char == '"') = false := by simpa using different
  obtain ⟨part, member, held⟩ := @Text.exists_mem_splitOnP (· == '"') _ _ inside plain
  obtain ⟨place, here⟩ := List.mem_iff_getElem?.mp member
  obtain ⟨token, among, contains⟩ := exists_mem_partTokens (isQuoted place) held letter
  have numbered := List.mk_mem_zipIdx_iff_getElem?.mpr here
  exact ⟨token, List.mem_flatMap.mpr ⟨(part, place), numbered, among⟩, contains⟩

theorem nul_mem_searchTokens (raw : String) :
    (∃ token ∈ searchTokens raw, FullText.nul ∈ token) ↔ FullText.nul ∈ raw.toList := by
  constructor
  · rintro ⟨token, member, inside⟩
    exact (mem_of_mem_searchTokens member inside).1
  · intro inside
    exact exists_mem_searchTokens inside (by decide) (by decide)

/-- A search has no query exactly when it is blank; otherwise the index reads the strings
that the user's text is cut into, none of them empty or with a quote, and nothing else. -/
def SearchStaysText (raw : String) : Prop :=
  (sanitizeFtsQuery raw = none ↔ OnlyBlank raw) ∧
  (¬OnlyBlank raw → ∃ query, sanitizeFtsQuery raw = some query ∧
    FullText.parse query.toList = some (searchTokens raw)) ∧
  ∀ token ∈ searchTokens raw, token ≠ [] ∧ '"' ∉ token

theorem parse_sanitizeFtsQuery {raw query : String}
    (sanitized : sanitizeFtsQuery raw = some query) :
    FullText.parse query.toList =
      if FullText.nul ∈ raw.toList then none else some (searchTokens raw) := by
  rw [sanitizeFtsQuery_eq] at sanitized
  split at sanitized
  · cases sanitized
  · next nonempty =>
      cases sanitized
      rw [String.toList_ofList]
      split
      · next ended => exact FullText.parse_render_of_nul ((nul_mem_searchTokens raw).mpr ended)
      · next free =>
          apply FullText.parse_render nonempty
          intro token member inside
          exact free ((nul_mem_searchTokens raw).mp ⟨token, member, inside⟩)

/-- The index stops reading at U+0000, which the sanitizer leaves inside of a string. -/
theorem search_text_stays_text (raw : String) :
    SearchStaysText raw ↔ FullText.nul ∉ raw.toList := by
  have blank : sanitizeFtsQuery raw = none ↔ OnlyBlank raw := by
    rw [sanitizeFtsQuery_eq, ← searchTokens_eq_nil_iff]
    simp
  constructor
  · rintro ⟨-, parsed, -⟩ ended
    have nonblank : ¬OnlyBlank raw := by
      obtain ⟨token, member, -⟩ := (nul_mem_searchTokens raw).mpr ended
      rw [← searchTokens_eq_nil_iff]
      exact List.ne_nil_of_mem member
    obtain ⟨query, sanitized, read⟩ := parsed nonblank
    rw [parse_sanitizeFtsQuery sanitized, if_pos ended] at read
    cases read
  · intro free
    refine ⟨blank, fun nonblank => ?_, fun token member => searchTokens_free member⟩
    obtain ⟨query, sanitized⟩ := Option.ne_none_iff_exists'.mp (mt blank.mp nonblank)
    exact ⟨query, sanitized, by rw [parse_sanitizeFtsQuery sanitized, if_neg free]⟩

theorem search_text_escapes_at_nul : ¬SearchStaysText "a\x00b" := by
  rintro ⟨-, parsed, -⟩
  have nonblank : ¬OnlyBlank "a\x00b" := by
    rw [← searchTokens_eq_nil_iff]
    decide
  obtain ⟨query, sanitized, read⟩ := parsed nonblank
  have written : sanitizeFtsQuery "a\x00b" = some "\"a\x00b\"" := by decide
  cases written.symm.trans sanitized
  exact absurd read (by decide)

example : searchTokens "a\"b c\"  \"d* OR" = [['a'], ['b', ' ', 'c'], ['d', '*', ' ', 'O', 'R']] := by
  decide

end Vpsiner.Logs
