import Vpsiner.Logs.AnsiEscapes

/-! Which texts the byte scan survives: those that a grammar over characters reads, in
which the character after a lone ESC is ASCII. -/

set_option autoImplicit false

namespace Vpsiner.Logs.AnsiEscapes

open Vpsiner.Lib Vpsiner.Lib.Utf8

def IsFinal (char : Char) : Prop := 0x40 ≤ char.toNat ∧ char.toNat ≤ 0x7e

instance (char : Char) : Decidable (IsFinal char) := inferInstanceAs (Decidable (_ ∧ _))

/-- The body of an operating system command up to its terminator. -/
def Unterminated (body : List Char) : Prop := bel ∉ body ∧ ¬[esc, '\\'] <:+: body

/-- A text and what is left of it without its escape sequences. The last sequence may be
unterminated. -/
inductive Strips : List Char → List Char → Prop where
  | nil : Strips [] []
  | plain {char rest kept} : char ≠ esc → Strips rest kept → Strips (char :: rest) (char :: kept)
  | lone : Strips [esc] []
  | csi {body final rest kept} : (∀ char ∈ body, ¬IsFinal char) → IsFinal final →
      Strips rest kept → Strips (esc :: '[' :: (body ++ final :: rest)) kept
  | csiOpen {body} : (∀ char ∈ body, ¬IsFinal char) → Strips (esc :: '[' :: body) []
  | oscBell {body rest kept} : Unterminated body → Strips rest kept →
      Strips (esc :: ']' :: (body ++ bel :: rest)) kept
  | oscString {body rest kept} : Unterminated body → Strips rest kept →
      Strips (esc :: ']' :: (body ++ esc :: '\\' :: rest)) kept
  | oscOpen {body} : Unterminated body → Strips (esc :: ']' :: body) []
  | pair {second rest kept} : second ≠ '[' → second ≠ ']' → second.toNat < 128 →
      Strips rest kept → Strips (esc :: second :: rest) kept

namespace Strips

theorem esc_not_mem {text kept : List Char} (strips : Strips text kept) : esc ∉ kept := by
  induction strips with
  | nil => exact List.not_mem_nil
  | plain other _ ih => exact List.not_mem_cons_of_ne_of_not_mem (Ne.symm other) ih
  | lone => exact List.not_mem_nil
  | csi _ _ _ ih => exact ih
  | csiOpen => exact List.not_mem_nil
  | oscBell _ _ ih => exact ih
  | oscString _ _ ih => exact ih
  | oscOpen => exact List.not_mem_nil
  | pair _ _ _ _ ih => exact ih

theorem sublist {text kept : List Char} (strips : Strips text kept) : kept.Sublist text := by
  induction strips with
  | nil => exact .slnil
  | plain _ _ ih => exact ih.cons_cons _
  | lone => exact List.nil_sublist _
  | csi _ _ _ ih =>
      exact (((ih.cons _).trans (List.sublist_append_right _ _)).cons _).cons _
  | csiOpen => exact List.nil_sublist _
  | oscBell _ _ ih =>
      exact (((ih.cons _).trans (List.sublist_append_right _ _)).cons _).cons _
  | oscString _ _ ih =>
      exact ((((ih.cons _).cons _).trans (List.sublist_append_right _ _)).cons _).cons _
  | oscOpen => exact List.nil_sublist _
  | pair _ _ _ _ ih => exact (ih.cons _).cons _

theorem of_plain {text : List Char} (plain : esc ∉ text) : Strips text text := by
  induction text with
  | nil => exact .nil
  | cons char rest ih =>
      exact .plain (List.ne_of_not_mem_cons plain).symm (ih (List.not_mem_of_not_mem_cons plain))

theorem eq_of_plain {text kept : List Char} (strips : Strips text kept) (plain : esc ∉ text) :
    kept = text := by
  induction strips with
  | nil => rfl
  | plain _ _ ih => rw [ih (List.not_mem_of_not_mem_cons plain)]
  | lone => exact absurd List.mem_cons_self plain
  | csi => exact absurd List.mem_cons_self plain
  | csiOpen => exact absurd List.mem_cons_self plain
  | oscBell => exact absurd List.mem_cons_self plain
  | oscString => exact absurd List.mem_cons_self plain
  | oscOpen => exact absurd List.mem_cons_self plain
  | pair => exact absurd List.mem_cons_self plain

end Strips

/-! ## Bytes of a text at the start of a character -/

section Position

variable {value before rest : List Char} {char : Char}

theorem byte_end (split : value = before) : (bytes value)[(bytes before).length]? = none := by
  rw [split]
  exact List.getElem?_eq_none (Nat.le_refl _)

theorem byte_ascii (split : value = before ++ char :: rest) (ascii : char.toNat < 128) :
    (bytes value)[(bytes before).length]? = some char.toNat := by
  have first := getElem?_bytes before (char :: rest) 0
  rw [split]
  rw [Nat.add_zero, bytes_cons, bytes_ascii ascii] at first
  exact first

theorem byte_wide (split : value = before ++ char :: rest) (wide : 128 ≤ char.toNat) :
    ∃ byte, (bytes value)[(bytes before).length]? = some byte ∧ 128 ≤ byte := by
  have size := utf8Size_of_wide wide
  have within : 0 < (bytes [char]).length := by
    rw [length_bytes_singleton]
    omega
  have first := getElem?_bytes before (char :: rest) 0
  rw [Nat.add_zero, bytes_cons, List.getElem?_append_left within,
    List.getElem?_eq_getElem within] at first
  rw [split]
  exact ⟨_, first, le_of_mem_bytes wide (List.getElem_mem within)⟩

theorem head_of_byte (split : value = before ++ rest) (ascii : char.toNat < 128)
    (here : (bytes value)[(bytes before).length]? = some char.toNat) :
    rest.head? = some char := by
  cases rest with
  | nil =>
      rw [byte_end (split.trans (List.append_nil before))] at here
      cases here
  | cons first rest =>
      by_cases narrow : first.toNat < 128
      · rw [byte_ascii split narrow, Option.some.injEq] at here
        rw [List.head?_cons, Char.toNat_inj.mp here]
      · obtain ⟨byte, found, large⟩ := byte_wide split (Nat.le_of_not_lt narrow)
        rw [found, Option.some.injEq] at here
        omega

theorem length_snoc_ascii (ascii : char.toNat < 128) :
    (bytes (before ++ [char])).length = (bytes before).length + 1 := by
  rw [bytes_append, bytes_ascii ascii, List.length_append, List.length_singleton]

end Position

/-! ## Escape sequences -/

theorem skipCsi_step {bytes : List Nat} {index byte : Nat} (here : bytes[index]? = some byte)
    (inner : ¬(0x40 ≤ byte ∧ byte ≤ 0x7e)) : skipCsi bytes index = skipCsi bytes (index + 1) := by
  rw [skipCsi]
  split
  · rename_i ended
    rw [here] at ended
    cases ended
  · rename_i other found
    rw [here, Option.some.injEq] at found
    subst found
    exact if_neg inner

theorem skipOsc_step {bytes : List Nat} {index byte : Nat} (here : bytes[index]? = some byte)
    (silent : byte ≠ 0x07) (inner : ¬(byte = 0x1b ∧ bytes[index + 1]? = some 0x5c)) :
    skipOsc bytes index = skipOsc bytes (index + 1) := by
  rw [skipOsc]
  split
  · rename_i ended
    rw [here] at ended
    cases ended
  · rename_i other found
    rw [here, Option.some.injEq] at found
    subst found
    rw [if_neg silent, if_neg inner]

theorem skipCsi_body {value before body rest : List Char}
    (split : value = before ++ (body ++ rest)) (inner : ∀ char ∈ body, ¬IsFinal char) :
    skipCsi (bytes value) (bytes before).length =
      skipCsi (bytes value) (bytes (before ++ body)).length := by
  induction body generalizing before with
  | nil => rw [List.append_nil]
  | cons char body ih =>
      obtain ⟨notFinal, others⟩ := List.forall_mem_cons.mp inner
      have whole : skipCsi (bytes value) (bytes before).length =
          skipCsi (bytes value) (bytes (before ++ [char])).length := by
        rw [split]
        refine advance (skipCsi _) before (body ++ rest) char fun index byte here member => ?_
        refine skipCsi_step here fun final => ?_
        by_cases ascii : char.toNat < 128
        · rw [bytes_ascii ascii, List.mem_singleton] at member
          rw [member] at final
          exact notFinal final
        · have := le_of_mem_bytes (Nat.le_of_not_lt ascii) member
          omega
      rw [whole, ih (by rw [split, List.append_assoc]; rfl) others, List.append_assoc,
        List.singleton_append]

theorem skipOsc_body {value before body rest : List Char}
    (split : value = before ++ (body ++ rest)) (unterminated : Unterminated body)
    (next : rest.head? ≠ some '\\') :
    skipOsc (bytes value) (bytes before).length =
      skipOsc (bytes value) (bytes (before ++ body)).length := by
  induction body generalizing before with
  | nil => rw [List.append_nil]
  | cons char body ih =>
      obtain ⟨silent, noString⟩ := unterminated
      have others : Unterminated body :=
        ⟨List.not_mem_of_not_mem_cons silent, mt (fun inside => List.infix_cons inside) noString⟩
      have onward : value = (before ++ [char]) ++ (body ++ rest) := by
        rw [split, List.append_assoc]
        rfl
      have whole : skipOsc (bytes value) (bytes before).length =
          skipOsc (bytes value) (bytes (before ++ [char])).length := by
        by_cases ascii : char.toNat < 128
        · rw [length_snoc_ascii ascii]
          refine skipOsc_step (byte_ascii split ascii) (fun bell => ?_) (fun ends => ?_)
          · exact List.ne_of_not_mem_cons silent (Char.toNat_inj.mp bell).symm
          · obtain ⟨escape, backslash⟩ := ends
            rw [← length_snoc_ascii ascii] at backslash
            have head : (body ++ rest).head? = some '\\' :=
              head_of_byte onward (by decide) backslash
            cases body with
            | nil => exact next head
            | cons second body =>
                rw [List.cons_append, List.head?_cons, Option.some.injEq] at head
                apply noString
                rw [show char = esc from Char.toNat_inj.mp escape, head]
                exact List.infix_append [] [esc, '\\'] body
        · rw [split]
          refine advance (skipOsc _) before (body ++ rest) char fun index byte here member => ?_
          have := le_of_mem_bytes (Nat.le_of_not_lt ascii) member
          exact skipOsc_step here (by omega) (fun ends => by omega)
      rw [whole, ih onward others, List.append_assoc, List.singleton_append]

theorem skipCsi_end {value before : List Char} (split : value = before) :
    skipCsi (bytes value) (bytes before).length = (bytes before).length := by
  rw [skipCsi]
  split
  · rfl
  · rename_i byte found
    rw [byte_end split] at found
    cases found

theorem skipCsi_final {value before rest : List Char} {final : Char}
    (split : value = before ++ final :: rest) (ends : IsFinal final) :
    skipCsi (bytes value) (bytes before).length = (bytes (before ++ [final])).length := by
  have ascii : final.toNat < 128 := Nat.lt_of_le_of_lt ends.2 (by decide)
  rw [skipCsi, length_snoc_ascii ascii]
  split
  · rename_i ended
    rw [byte_ascii split ascii] at ended
    cases ended
  · rename_i byte found
    rw [byte_ascii split ascii, Option.some.injEq] at found
    subst found
    exact if_pos ends

theorem skipOsc_end {value before : List Char} (split : value = before) :
    skipOsc (bytes value) (bytes before).length = (bytes before).length := by
  rw [skipOsc]
  split
  · rfl
  · rename_i byte found
    rw [byte_end split] at found
    cases found

theorem skipOsc_bell {value before rest : List Char} (split : value = before ++ bel :: rest) :
    skipOsc (bytes value) (bytes before).length = (bytes (before ++ [bel])).length := by
  rw [skipOsc, length_snoc_ascii (by decide)]
  split
  · rename_i ended
    rw [byte_ascii split (by decide)] at ended
    cases ended
  · rename_i byte found
    rw [byte_ascii split (by decide), Option.some.injEq] at found
    subst found
    exact if_pos rfl

theorem skipOsc_string {value before rest : List Char}
    (split : value = before ++ esc :: '\\' :: rest) :
    skipOsc (bytes value) (bytes before).length = (bytes (before ++ [esc] ++ ['\\'])).length := by
  have onward : value = (before ++ [esc]) ++ '\\' :: rest := by
    rw [split, List.append_assoc]
    rfl
  have second := byte_ascii onward (by decide)
  rw [length_snoc_ascii (by decide)] at second
  rw [skipOsc, length_snoc_ascii (by decide), length_snoc_ascii (by decide)]
  split
  · rename_i ended
    rw [byte_ascii split (by decide)] at ended
    cases ended
  · rename_i byte found
    rw [byte_ascii split (by decide), Option.some.injEq] at found
    subst found
    rw [if_neg (by decide), if_pos ⟨rfl, second⟩]

theorem skipEscape_end {value before : List Char} (split : value = before) :
    skipEscape (bytes value) (bytes before).length = (bytes before).length := by
  rw [skipEscape, byte_end split]

theorem skipEscape_csi {value before rest : List Char} (split : value = before ++ '[' :: rest) :
    skipEscape (bytes value) (bytes before).length =
      skipCsi (bytes value) (bytes (before ++ ['['])).length := by
  rw [skipEscape, byte_ascii split (by decide), length_snoc_ascii (by decide)]
  rfl

theorem skipEscape_osc {value before rest : List Char} (split : value = before ++ ']' :: rest) :
    skipEscape (bytes value) (bytes before).length =
      skipOsc (bytes value) (bytes (before ++ [']'])).length := by
  rw [skipEscape, byte_ascii split (by decide), length_snoc_ascii (by decide)]
  rfl

/-- Any other character loses its first byte. -/
theorem skipEscape_pair {value before rest : List Char} {second : Char}
    (split : value = before ++ second :: rest) (noCsi : second ≠ '[') (noOsc : second ≠ ']') :
    skipEscape (bytes value) (bytes before).length = (bytes before).length + 1 := by
  obtain ⟨byte, here, notCsi, notOsc⟩ : ∃ byte,
      (bytes value)[(bytes before).length]? = some byte ∧ byte ≠ 0x5b ∧ byte ≠ 0x5d := by
    by_cases ascii : second.toNat < 128
    · exact ⟨_, byte_ascii split ascii, fun same => noCsi (Char.toNat_inj.mp same),
        fun same => noOsc (Char.toNat_inj.mp same)⟩
    · obtain ⟨byte, here, large⟩ := byte_wide split (Nat.le_of_not_lt ascii)
      exact ⟨byte, here, by omega, by omega⟩
  rw [skipEscape, here]
  split
  · contradiction
  · rename_i found
    exact absurd (Option.some.inj found) notCsi
  · rename_i found
    exact absurd (Option.some.inj found) notOsc
  · rfl

/-! ## The scan -/

theorem scan_end {value before output : List Char} (split : value = before) :
    scan value (bytes before).length output = .ok output := by
  rw [scan]
  split
  · rfl
  · rename_i byte found
    rw [byte_end split] at found
    cases found

theorem scan_plain {value before rest output : List Char} {char : Char}
    (split : value = before ++ char :: rest) (other : char ≠ esc) :
    scan value (bytes before).length output =
      scan value (bytes (before ++ [char])).length (output ++ [char]) := by
  obtain ⟨byte, here, plain⟩ : ∃ byte,
      (bytes value)[(bytes before).length]? = some byte ∧ byte ≠ 0x1b := by
    by_cases ascii : char.toNat < 128
    · exact ⟨_, byte_ascii split ascii, fun same => other (Char.toNat_inj.mp same)⟩
    · obtain ⟨byte, here, large⟩ := byte_wide split (Nat.le_of_not_lt ascii)
      exact ⟨byte, here, by omega⟩
  have found : charAt value (bytes before).length = some char := by
    rw [split, charAt_append, List.head?_cons]
  rw [scan]
  split
  · rename_i ended
    rw [here] at ended
    cases ended
  · rename_i other same
    rw [here, Option.some.injEq] at same
    subst same
    rw [if_pos plain, found, bytes_append, List.length_append, length_bytes_singleton]

theorem scan_escape {value before rest output : List Char}
    (split : value = before ++ esc :: rest) :
    scan value (bytes before).length output =
      scan value (skipEscape (bytes value) (bytes (before ++ [esc])).length) output := by
  rw [scan, length_snoc_ascii (by decide)]
  split
  · rename_i ended
    rw [byte_ascii split (by decide)] at ended
    cases ended
  · rename_i byte same
    rw [byte_ascii split (by decide), Option.some.injEq] at same
    subst same
    exact if_neg (fun different => different rfl)

section Sequences

variable {value before body rest output : List Char}

theorem scan_csi {final : Char} (split : value = before ++ esc :: '[' :: (body ++ final :: rest))
    (inner : ∀ char ∈ body, ¬IsFinal char) (ends : IsFinal final) :
    scan value (bytes before).length output =
      scan value (bytes (before ++ [esc] ++ ['['] ++ body ++ [final])).length output := by
  have opened : value = (before ++ [esc]) ++ '[' :: (body ++ final :: rest) := by simp [split]
  have entered : value = (before ++ [esc] ++ ['[']) ++ (body ++ final :: rest) := by simp [split]
  have passed : value = (before ++ [esc] ++ ['['] ++ body) ++ final :: rest := by simp [split]
  rw [scan_escape split, skipEscape_csi opened, skipCsi_body entered inner,
    skipCsi_final passed ends]

theorem scan_csiOpen (split : value = before ++ esc :: '[' :: body)
    (inner : ∀ char ∈ body, ¬IsFinal char) :
    scan value (bytes before).length output = .ok output := by
  have opened : value = (before ++ [esc]) ++ '[' :: body := by simp [split]
  have entered : value = (before ++ [esc] ++ ['[']) ++ (body ++ []) := by simp [split]
  have passed : value = before ++ [esc] ++ ['['] ++ body := by simp [split]
  rw [scan_escape split, skipEscape_csi opened, skipCsi_body entered inner, skipCsi_end passed,
    scan_end passed]

theorem scan_oscBell (split : value = before ++ esc :: ']' :: (body ++ bel :: rest))
    (unterminated : Unterminated body) :
    scan value (bytes before).length output =
      scan value (bytes (before ++ [esc] ++ [']'] ++ body ++ [bel])).length output := by
  have opened : value = (before ++ [esc]) ++ ']' :: (body ++ bel :: rest) := by simp [split]
  have entered : value = (before ++ [esc] ++ [']']) ++ (body ++ bel :: rest) := by simp [split]
  have passed : value = (before ++ [esc] ++ [']'] ++ body) ++ bel :: rest := by simp [split]
  have next : (bel :: rest).head? ≠ some '\\' := by
    rw [List.head?_cons]
    decide
  rw [scan_escape split, skipEscape_osc opened, skipOsc_body entered unterminated next,
    skipOsc_bell passed]

theorem scan_oscString (split : value = before ++ esc :: ']' :: (body ++ esc :: '\\' :: rest))
    (unterminated : Unterminated body) :
    scan value (bytes before).length output =
      scan value (bytes (before ++ [esc] ++ [']'] ++ body ++ [esc] ++ ['\\'])).length output := by
  have opened : value = (before ++ [esc]) ++ ']' :: (body ++ esc :: '\\' :: rest) := by simp [split]
  have entered : value = (before ++ [esc] ++ [']']) ++ (body ++ esc :: '\\' :: rest) := by
    simp [split]
  have passed : value = (before ++ [esc] ++ [']'] ++ body) ++ esc :: '\\' :: rest := by simp [split]
  have next : (esc :: '\\' :: rest).head? ≠ some '\\' := by
    rw [List.head?_cons]
    decide
  rw [scan_escape split, skipEscape_osc opened, skipOsc_body entered unterminated next,
    skipOsc_string passed]

theorem scan_oscOpen (split : value = before ++ esc :: ']' :: body)
    (unterminated : Unterminated body) :
    scan value (bytes before).length output = .ok output := by
  have opened : value = (before ++ [esc]) ++ ']' :: body := by simp [split]
  have entered : value = (before ++ [esc] ++ [']']) ++ (body ++ []) := by simp [split]
  have passed : value = before ++ [esc] ++ [']'] ++ body := by simp [split]
  have next : ([] : List Char).head? ≠ some '\\' := by
    rw [List.head?_nil]
    decide
  rw [scan_escape split, skipEscape_osc opened, skipOsc_body entered unterminated next,
    skipOsc_end passed, scan_end passed]

theorem scan_pair {second : Char} (split : value = before ++ esc :: second :: rest)
    (noCsi : second ≠ '[') (noOsc : second ≠ ']') :
    scan value (bytes before).length output =
      scan value ((bytes (before ++ [esc])).length + 1) output := by
  have opened : value = (before ++ [esc]) ++ second :: rest := by simp [split]
  rw [scan_escape split, skipEscape_pair opened noCsi noOsc]

theorem scan_inside {char : Char} (split : value = before ++ char :: rest)
    (wide : 128 ≤ char.toNat) :
    ∃ site, scan value ((bytes before).length + 1) output = .error (.panic site) := by
  have size := utf8Size_of_wide wide
  have within : 1 < (bytes [char]).length := by
    rw [length_bytes_singleton]
    omega
  have here := getElem?_bytes before (char :: rest) 1
  rw [bytes_cons, List.getElem?_append_left within, List.getElem?_eq_getElem within,
    ← split] at here
  have large := le_of_mem_bytes wide (List.getElem_mem within)
  have nothing := charAt_inside wide before rest
  rw [← split] at nothing
  rw [scan]
  split
  · rename_i ended
    rw [here] at ended
    cases ended
  · rename_i byte found
    rw [here, Option.some.injEq] at found
    rw [if_pos (by omega), nothing]
    exact ⟨_, rfl⟩

end Sequences

/-- The byte scan follows the grammar from the start of any character. -/
theorem scan_of_strips {value before rest kept output : List Char} (strips : Strips rest kept)
    (split : value = before ++ rest) :
    scan value (bytes before).length output = .ok (output ++ kept) := by
  induction strips generalizing before output with
  | nil => rw [scan_end (by rw [split, List.append_nil]), List.append_nil]
  | plain other _ ih =>
      rw [scan_plain split other, ih (by simp [split]), List.append_assoc, List.singleton_append]
  | lone => rw [scan_escape split, skipEscape_end split, scan_end split, List.append_nil]
  | csi inner ends _ ih => rw [scan_csi split inner ends, ih (by simp [split])]
  | csiOpen inner => rw [scan_csiOpen split inner, List.append_nil]
  | oscBell unterminated _ ih => rw [scan_oscBell split unterminated, ih (by simp [split])]
  | oscString unterminated _ ih => rw [scan_oscString split unterminated, ih (by simp [split])]
  | oscOpen unterminated => rw [scan_oscOpen split unterminated, List.append_nil]
  | pair noCsi noOsc ascii _ ih =>
      rw [scan_pair split noCsi noOsc, ← length_snoc_ascii ascii, ih (by simp [split])]

private theorem csi_cases (text : List Char) :
    (∀ char ∈ text, ¬IsFinal char) ∨ ∃ body final rest,
      (∀ char ∈ body, ¬IsFinal char) ∧ IsFinal final ∧ text = body ++ final :: rest := by
  induction text with
  | nil => exact .inl (List.forall_mem_nil _)
  | cons char text ih =>
      by_cases ends : IsFinal char
      · exact .inr ⟨[], char, text, List.forall_mem_nil _, ends, rfl⟩
      · cases ih with
        | inl inner => exact .inl (List.forall_mem_cons.mpr ⟨ends, inner⟩)
        | inr found =>
            obtain ⟨body, final, rest, inner, last, rfl⟩ := found
            exact .inr ⟨char :: body, final, rest, List.forall_mem_cons.mpr ⟨ends, inner⟩, last, rfl⟩

private theorem unterminated_cons {char : Char} {body : List Char} (silent : char ≠ bel)
    (inner : Unterminated body) (apart : ∀ rest, char = esc → body ≠ '\\' :: rest) :
    Unterminated (char :: body) := by
  refine ⟨List.not_mem_cons_of_ne_of_not_mem silent.symm inner.1, fun inside => ?_⟩
  cases List.infix_cons_iff.mp inside with
  | inl starts =>
      obtain ⟨rest, same⟩ := starts
      cases same
      exact apart rest rfl rfl
  | inr later => exact inner.2 later

private theorem osc_cases (text : List Char) : Unterminated text ∨ ∃ body rest,
    Unterminated body ∧ (text = body ++ bel :: rest ∨ text = body ++ esc :: '\\' :: rest) := by
  have empty : Unterminated [] := ⟨List.not_mem_nil, by simp⟩
  induction text with
  | nil => exact .inl empty
  | cons char text ih =>
      by_cases bell : char = bel
      · exact .inr ⟨[], text, empty, .inl (congrArg (· :: text) bell)⟩
      · by_cases ends : char = esc ∧ ∃ rest, text = '\\' :: rest
        · obtain ⟨rfl, rest, rfl⟩ := ends
          exact .inr ⟨[], rest, empty, .inr rfl⟩
        · cases ih with
          | inl inner =>
              exact .inl (unterminated_cons bell inner fun rest escape starts =>
                ends ⟨escape, rest, starts⟩)
          | inr found =>
              obtain ⟨body, rest, inner, split⟩ := found
              refine .inr ⟨char :: body, rest, unterminated_cons bell inner ?_, ?_⟩
              · intro later escape starts
                rw [starts] at split
                cases split with
                | inl text => exact ends ⟨escape, _, text⟩
                | inr text => exact ends ⟨escape, _, text⟩
              · cases split with
                | inl text => exact .inl (congrArg (char :: ·) text)
                | inr text => exact .inr (congrArg (char :: ·) text)

/-- What the grammar does not read makes the scan panic. The induction is on the length of
the text, which every sequence shortens. -/
theorem strips_or_panics (value : List Char) (size : Nat) (rest before output : List Char)
    (small : rest.length ≤ size) (split : value = before ++ rest) :
    (∃ kept, Strips rest kept) ∨
      ∃ site, scan value (bytes before).length output = .error (.panic site) := by
  induction size generalizing rest before output with
  | zero =>
      rw [List.eq_nil_of_length_eq_zero (Nat.le_zero.mp small)]
      exact .inl ⟨[], .nil⟩
  | succ size ih =>
      cases rest with
      | nil => exact .inl ⟨[], .nil⟩
      | cons char rest =>
          have shorter : rest.length ≤ size := Nat.le_of_succ_le_succ small
          by_cases other : char ≠ esc
          · rw [scan_plain split other]
            refine (ih rest _ _ shorter (by simp [split])).imp_left fun later => ?_
            obtain ⟨kept, strips⟩ := later
            exact ⟨char :: kept, .plain other strips⟩
          · rw [not_not] at other
            subst other
            cases rest with
            | nil => exact .inl ⟨[], .lone⟩
            | cons second rest =>
                rw [List.length_cons] at shorter
                by_cases csi : second = '['
                · subst csi
                  cases csi_cases rest with
                  | inl inner => exact .inl ⟨[], .csiOpen inner⟩
                  | inr found =>
                      obtain ⟨body, final, rest, inner, ends, rfl⟩ := found
                      rw [List.length_append, List.length_cons] at shorter
                      rw [scan_csi split inner ends]
                      refine (ih rest _ _ (by omega) (by simp [split])).imp_left fun later => ?_
                      obtain ⟨kept, strips⟩ := later
                      exact ⟨kept, .csi inner ends strips⟩
                · by_cases osc : second = ']'
                  · subst osc
                    cases osc_cases rest with
                    | inl unterminated => exact .inl ⟨[], .oscOpen unterminated⟩
                    | inr found =>
                        obtain ⟨body, rest, unterminated, rfl | rfl⟩ := found
                        · rw [List.length_append, List.length_cons] at shorter
                          rw [scan_oscBell split unterminated]
                          refine (ih rest _ _ (by omega) (by simp [split])).imp_left
                            fun later => ?_
                          obtain ⟨kept, strips⟩ := later
                          exact ⟨kept, .oscBell unterminated strips⟩
                        · rw [List.length_append, List.length_cons, List.length_cons] at shorter
                          rw [scan_oscString split unterminated]
                          refine (ih rest _ _ (by omega) (by simp [split])).imp_left
                            fun later => ?_
                          obtain ⟨kept, strips⟩ := later
                          exact ⟨kept, .oscString unterminated strips⟩
                  · rw [scan_pair split csi osc]
                    by_cases ascii : second.toNat < 128
                    · rw [← length_snoc_ascii ascii, List.append_assoc]
                      refine (ih rest _ _ (by omega) (by simp [split])).imp_left fun later => ?_
                      obtain ⟨kept, strips⟩ := later
                      exact ⟨kept, .pair csi osc ascii strips⟩
                    · have inside : value = (before ++ [esc]) ++ second :: rest := by simp [split]
                      exact .inr (scan_inside inside (Nat.le_of_not_lt ascii))

end Vpsiner.Logs.AnsiEscapes

namespace Vpsiner.Logs

open AnsiEscapes

theorem strip_of_strips {value : String} {kept : List Char} (strips : Strips value.toList kept) :
    stripAnsiEscapeCodes value = .ok (String.ofList kept) := by
  have start : value.toList = [] ++ value.toList := rfl
  have scanned : scan value.toList 0 [] = .ok kept := scan_of_strips strips start
  rw [stripAnsiEscapeCodes, scanned]
  rfl

/-- Stripping neither panics nor alters what it should keep. -/
def StripsExactly (value : String) : Prop :=
  ∃ result, stripAnsiEscapeCodes value = .ok result ∧
    esc ∉ result.toList ∧ result.toList.Sublist value.toList ∧
    (esc ∉ value.toList → result = value) ∧ stripAnsiEscapeCodes result = .ok result

/-- The scan is exact on the texts in which only an ASCII character follows a lone ESC, and
panics on all others. -/
theorem strips_exactly_iff (value : String) :
    StripsExactly value ↔ ∃ kept, Strips value.toList kept := by
  constructor
  · intro exactly
    obtain ⟨result, stripped, _⟩ := exactly
    cases strips_or_panics value.toList _ value.toList [] [] (Nat.le_refl _) rfl with
    | inl strips => exact strips
    | inr panics =>
        obtain ⟨site, panicked⟩ := panics
        have failed : scan value.toList 0 [] = .error (.panic site) := panicked
        rw [stripAnsiEscapeCodes, failed] at stripped
        cases stripped
  · intro readable
    obtain ⟨kept, strips⟩ := readable
    refine ⟨String.ofList kept, strip_of_strips strips, ?_⟩
    rw [String.toList_ofList]
    refine ⟨strips.esc_not_mem, strips.sublist, fun plain => ?_, strip_of_strips ?_⟩
    · rw [strips.eq_of_plain plain, String.ofList_toList]
    · rw [String.toList_ofList]
      exact .of_plain strips.esc_not_mem

theorem strip_panics : ¬StripsExactly "\x1bé" := by
  intro exactly
  obtain ⟨result, stripped, _⟩ := exactly
  have panicked : stripAnsiEscapeCodes "\x1bé" =
      .error (.panic "byte index is not a char boundary") := by decide +kernel
  rw [panicked] at stripped
  cases stripped

end Vpsiner.Logs
