import Mathlib.Data.List.Basic

/-! The part of a full text query language that joins quoted strings by `OR`: its tokens,
its grammar and a printer that the grammar reads back. -/

set_option autoImplicit false

namespace Vpsiner.Lib.FullText

inductive Token where
  | text (phrase : List Char)
  | or
deriving DecidableEq, Repr

def isBlank (char : Char) : Bool := [' ', '\t', '\n', '\r'].contains char

/-- The characters of a word outside of quotes. -/
def isBareword (char : Char) : Bool :=
  char.isAlphanum || char == '_' || char.toNat == 26 || decide (128 ≤ char.toNat)

/-- The state is what a string that was opened holds so far; two quotes inside of it stand
for one. Whatever is neither a string nor the word `OR` belongs to the rest of the language:
operators, columns, groups and prefixes. -/
def lex : Option (List Char) → List Char → Option (List Token)
  | none, [] => some []
  | some _, [] => none
  | none, '"' :: rest => lex (some []) rest
  | none, 'O' :: 'R' :: rest =>
      if rest.head?.any isBareword then none else (lex none rest).map (Token.or :: ·)
  | none, char :: rest => if isBlank char then lex none rest else none
  | some phrase, '"' :: '"' :: rest => lex (some (phrase ++ ['"'])) rest
  | some phrase, '"' :: rest => (lex none rest).map (Token.text phrase :: ·)
  | some phrase, char :: rest => lex (some (phrase ++ [char])) rest

/-- One string, or strings with `OR` between them. -/
def alternatives : List Token → Option (List (List Char))
  | [.text phrase] => some [phrase]
  | .text phrase :: .or :: rest => (alternatives rest).map (phrase :: ·)
  | _ => none

def nul : Char := '\x00'

/-- An expression ends at its first U+0000. -/
def terminated (query : List Char) : List Char := query.takeWhile (· ≠ nul)

def parse (query : List Char) : Option (List (List Char)) :=
  (lex none (terminated query)).bind alternatives

def doubled (char : Char) : List Char := if char = '"' then ['"', '"'] else [char]

def quote (phrase : List Char) : List Char := ['"'] ++ phrase.flatMap doubled ++ ['"']

def render (phrases : List (List Char)) : List Char :=
  ((phrases.map quote).intersperse [' ', 'O', 'R', ' ']).flatten

def tokens : List (List Char) → List Token
  | [] => []
  | [phrase] => [.text phrase]
  | phrase :: rest => .text phrase :: .or :: tokens rest

theorem lex_doubled (read phrase rest : List Char) (closed : rest.head? ≠ some '"') :
    lex (some read) (phrase.flatMap doubled ++ '"' :: rest) =
      (lex none rest).map (Token.text (read ++ phrase) :: ·) := by
  induction phrase generalizing read with
  | nil =>
      cases rest with
      | nil => simp [lex]
      | cons next others =>
          have different : next ≠ '"' := by simpa using closed
          simp [lex, different]
  | cons char others ih =>
      by_cases isQuote : char = '"'
      · simp [doubled, isQuote, lex, ih]
      · simp [doubled, isQuote, lex, ih]

theorem lex_quote (phrase rest : List Char) (closed : rest.head? ≠ some '"') :
    lex none (quote phrase ++ rest) = (lex none rest).map (Token.text phrase :: ·) := by
  simpa [quote, lex] using lex_doubled [] phrase rest closed

theorem render_cons_cons (phrase next : List Char) (rest : List (List Char)) :
    render (phrase :: next :: rest) =
      quote phrase ++ ([' ', 'O', 'R', ' '] ++ render (next :: rest)) := by
  simp [render]

theorem lex_render (phrases : List (List Char)) :
    lex none (render phrases) = some (tokens phrases) := by
  induction phrases with
  | nil => rfl
  | cons phrase rest ih =>
      cases rest with
      | nil =>
          have single := lex_quote phrase [] (by simp)
          simpa [render, tokens, lex] using single
      | cons next others =>
          rw [render_cons_cons, lex_quote phrase _ (by simp)]
          simp [lex, isBlank, isBareword, ih, tokens]

theorem alternatives_tokens {phrases : List (List Char)} (nonempty : phrases ≠ []) :
    alternatives (tokens phrases) = some phrases := by
  induction phrases with
  | nil => exact absurd rfl nonempty
  | cons phrase rest ih =>
      cases rest with
      | nil => rfl
      | cons next others => simp [tokens, alternatives, ih (List.cons_ne_nil next others)]

/-- A string that is never closed is no expression. -/
theorem lex_open (read phrase : List Char) : lex (some read) (phrase.flatMap doubled) = none := by
  induction phrase generalizing read with
  | nil => rfl
  | cons char others ih =>
      by_cases isQuote : char = '"'
      · simp [doubled, isQuote, lex, ih]
      · simp [doubled, isQuote, lex, ih]

theorem terminated_append {front : List Char} (free : nul ∉ front) (rest : List Char) :
    terminated (front ++ rest) = front ++ terminated rest := by
  apply List.takeWhile_append_of_pos
  intro char member
  exact decide_eq_true fun same => free (same ▸ member)

theorem terminated_eq {text : List Char} (free : nul ∉ text) : terminated text = text := by
  simpa [terminated] using terminated_append free []

theorem doubled_nul : doubled nul = [nul] := rfl

theorem nul_not_mem_word : nul ∉ [' ', 'O', 'R', ' '] := by decide

theorem nul_mem_flatMap_doubled {phrase : List Char} :
    nul ∈ phrase.flatMap doubled ↔ nul ∈ phrase := by
  simp only [List.mem_flatMap, doubled]
  constructor
  · rintro ⟨char, member, inside⟩
    split at inside
    · exact absurd inside (by decide)
    · rwa [List.mem_singleton.mp inside]
  · intro member
    exact ⟨nul, member, by decide⟩

theorem nul_mem_quote {phrase : List Char} : nul ∈ quote phrase ↔ nul ∈ phrase := by
  have different : nul ≠ '"' := by decide
  simp only [quote, List.mem_append, List.mem_singleton, nul_mem_flatMap_doubled, different,
    false_or, or_false]

theorem nul_not_mem_render {phrases : List (List Char)}
    (free : ∀ phrase ∈ phrases, nul ∉ phrase) : nul ∉ render phrases := by
  induction phrases with
  | nil => simp [render]
  | cons phrase rest ih =>
      obtain ⟨here, later⟩ := List.forall_mem_cons.mp free
      cases rest with
      | nil => simpa [render, nul_mem_quote] using here
      | cons next others =>
          rw [render_cons_cons, List.mem_append, List.mem_append, nul_mem_quote]
          exact not_or.mpr ⟨here, not_or.mpr ⟨nul_not_mem_word, ih later⟩⟩

/-- What is printed is read back. -/
theorem parse_render {phrases : List (List Char)} (nonempty : phrases ≠ [])
    (free : ∀ phrase ∈ phrases, nul ∉ phrase) : parse (render phrases) = some phrases := by
  simp [parse, terminated_eq (nul_not_mem_render free), lex_render, alternatives_tokens nonempty]

/-- The string in which the expression ends is cut off. -/
theorem terminated_quote {phrase : List Char} (cut : nul ∈ phrase) (rest : List Char) :
    ∃ front : List Char, terminated (quote phrase ++ rest) = '"' :: front.flatMap doubled := by
  obtain ⟨front, back, same, free⟩ := List.eq_append_cons_of_mem cut
  have different : nul ≠ '"' := by decide
  have opened : nul ∉ '"' :: front.flatMap doubled := by
    rw [List.mem_cons, nul_mem_flatMap_doubled]
    exact not_or.mpr ⟨different, free⟩
  have split : quote phrase ++ rest = ('"' :: front.flatMap doubled) ++
      nul :: (back.flatMap doubled ++ ['"'] ++ rest) := by
    simp [quote, same, doubled_nul]
  refine ⟨front, ?_⟩
  rw [split, terminated_append opened]
  simp [terminated]

theorem lex_terminated_render {phrases : List (List Char)}
    (cut : ∃ phrase ∈ phrases, nul ∈ phrase) : lex none (terminated (render phrases)) = none := by
  induction phrases with
  | nil => simp at cut
  | cons phrase rest ih =>
      have written : ∃ more, render (phrase :: rest) = quote phrase ++ more ∧
          (nul ∉ phrase → more = [' ', 'O', 'R', ' '] ++ render rest) := by
        cases rest with
        | nil =>
            refine ⟨[], by simp [render], fun free => ?_⟩
            simp [free] at cut
        | cons next others => exact ⟨_, render_cons_cons .., fun _ => rfl⟩
      obtain ⟨more, same, later⟩ := written
      rw [same]
      by_cases here : nul ∈ phrase
      · obtain ⟨front, ended⟩ := terminated_quote here more
        rw [ended, lex, lex_open]
      · have inRest : ∃ phrase ∈ rest, nul ∈ phrase := by simpa [here] using cut
        have joined : nul ∉ quote phrase ++ [' ', 'O', 'R', ' '] := by
          rw [List.mem_append, nul_mem_quote]
          exact not_or.mpr ⟨here, nul_not_mem_word⟩
        rw [later here, ← List.append_assoc, terminated_append joined, List.append_assoc,
          lex_quote phrase _ (by simp)]
        simp [lex, isBlank, isBareword, ih inRest]

/-- An expression that ends inside one of its strings is refused. -/
theorem parse_render_of_nul {phrases : List (List Char)}
    (cut : ∃ phrase ∈ phrases, nul ∈ phrase) : parse (render phrases) = none := by
  simp [parse, lex_terminated_render cut]

end Vpsiner.Lib.FullText
