/-! Decimal numbers and separators in character lists, as the formatting and parsing
functions of a standard library handle them. -/

set_option autoImplicit false

namespace Vpsiner.Lib.Text

def decimal (value : Int) : List Char :=
  match value with
  | .ofNat n => Nat.toDigits 10 n
  | .negSucc n => '-' :: Nat.toDigits 10 (n + 1)

/-- Padded with zeros on the left to at least `width` digits. -/
def zeroPadded (width n : Nat) : List Char :=
  List.replicate (width - (Nat.toDigits 10 n).length) '0' ++ Nat.toDigits 10 n

def parseDigits (chars : List Char) : Option Nat :=
  if chars ≠ [] ∧ chars.all Char.isDigit = true then some (Nat.ofDigitChars 10 chars 0) else none

/-- Parses an unsigned number of at most `most`; a leading plus sign is allowed. -/
def parseUnsigned (most : Nat) (chars : List Char) : Option Nat :=
  (parseDigits (if chars.head? = some '+' then chars.tail else chars)).filter (· ≤ most)

def parseInteger (chars : List Char) : Option Int :=
  if chars.head? = some '-' then (parseDigits chars.tail).map fun n : Nat => -(n : Int)
  else (parseDigits (if chars.head? = some '+' then chars.tail else chars)).map Int.ofNat

/-- Parses a signed number between `least` and `most`. -/
def parseSigned (least most : Int) (chars : List Char) : Option Int :=
  (parseInteger chars).filter fun value => least ≤ value && value ≤ most

def stripPrefix (start chars : List Char) : Option (List Char) :=
  if start.isPrefixOf chars then some (chars.drop start.length) else none

def stripSuffix (suffix chars : List Char) : Option (List Char) :=
  if suffix.isSuffixOf chars then some (chars.take (chars.length - suffix.length)) else none

/-- The parts before and after the first occurrence of the separator. -/
def splitOnce (separator : List Char) : List Char → Option (List Char × List Char)
  | [] => if separator = [] then some ([], []) else none
  | char :: rest =>
      if separator.isPrefixOf (char :: rest) then
        some ([], (char :: rest).drop separator.length)
      else (splitOnce separator rest).map fun parts => (char :: parts.1, parts.2)

theorem parseDigits_toDigits (n : Nat) : parseDigits (Nat.toDigits 10 n) = some n := by
  have digits : (Nat.toDigits 10 n).all Char.isDigit = true := by
    rw [List.all_eq_true]
    intro char member
    exact Nat.isDigit_of_mem_toDigits (by decide) (by decide) member
  rw [parseDigits, if_pos ⟨Nat.toDigits_ne_nil, digits⟩, Nat.ofDigitChars_ten_toDigits]

theorem isDigit_of_mem_zeroPadded {width n : Nat} {char : Char}
    (member : char ∈ zeroPadded width n) : char.isDigit = true := by
  cases List.mem_append.mp member with
  | inl padding =>
      rw [(List.mem_replicate.mp padding).2]
      decide
  | inr digit => exact Nat.isDigit_of_mem_toDigits (by decide) (by decide) digit

theorem parseDigits_zeroPadded (width n : Nat) : parseDigits (zeroPadded width n) = some n := by
  have digits : (zeroPadded width n).all Char.isDigit = true :=
    List.all_eq_true.mpr fun _ => isDigit_of_mem_zeroPadded
  have nonempty : zeroPadded width n ≠ [] := by
    simp [zeroPadded, Nat.toDigits_ne_nil]
  rw [parseDigits, if_pos ⟨nonempty, digits⟩, zeroPadded, Nat.ofDigitChars_append,
    Nat.ofDigitChars_replicate_zero, Nat.mul_zero, Nat.ofDigitChars_ten_toDigits]

private theorem head?_ne_of_not_digit {chars : List Char} {char : Char}
    (digits : ∀ other ∈ chars, other.isDigit = true) (sign : char.isDigit = false) :
    chars.head? ≠ some char := by
  intro first
  have := digits char (List.mem_of_head? first)
  rw [sign] at this
  cases this

theorem parseUnsigned_zeroPadded {most width n : Nat} (small : n ≤ most) :
    parseUnsigned most (zeroPadded width n) = some n := by
  have unsigned : (zeroPadded width n).head? ≠ some '+' :=
    head?_ne_of_not_digit (fun _ => isDigit_of_mem_zeroPadded) (by decide)
  rw [parseUnsigned, if_neg unsigned, parseDigits_zeroPadded, Option.filter_some,
    if_pos (decide_eq_true small)]

theorem parseInteger_decimal (value : Int) : parseInteger (decimal value) = some value := by
  cases value with
  | ofNat n =>
      have unsigned : ∀ sign : Char, sign.isDigit = false →
          (Nat.toDigits 10 n).head? ≠ some sign := fun _ =>
        head?_ne_of_not_digit fun _ =>
          Nat.isDigit_of_mem_toDigits (by decide) (by decide)
      have form : decimal (Int.ofNat n) = Nat.toDigits 10 n := rfl
      rw [form, parseInteger, if_neg (unsigned '-' (by decide)), if_neg (unsigned '+' (by decide)),
        parseDigits_toDigits, Option.map_some]
  | negSucc n =>
      have form : decimal (Int.negSucc n) = '-' :: Nat.toDigits 10 (n + 1) := rfl
      rw [form, parseInteger, if_pos List.head?_cons, List.tail_cons, parseDigits_toDigits]
      rfl

theorem parseSigned_decimal {least most value : Int} (lower : least ≤ value)
    (upper : value ≤ most) : parseSigned least most (decimal value) = some value := by
  rw [parseSigned, parseInteger_decimal, Option.filter_some, if_pos (by simp [lower, upper])]

theorem stripPrefix_append (start chars : List Char) :
    stripPrefix start (start ++ chars) = some chars := by
  rw [stripPrefix, if_pos (List.isPrefixOf_iff_prefix.mpr (List.prefix_append _ _)),
    List.drop_left]

theorem stripSuffix_append (chars suffix : List Char) :
    stripSuffix suffix (chars ++ suffix) = some chars := by
  rw [stripSuffix, if_pos (List.isSuffixOf_iff_suffix.mpr (List.suffix_append _ _))]
  simp

/-- The separator is found where it was put when its first character occurs nowhere
before. -/
theorem splitOnce_append {first : Char} {separator before : List Char} (after : List Char)
    (absent : first ∉ before) :
    splitOnce (first :: separator) (before ++ first :: separator ++ after) =
      some (before, after) := by
  induction before with
  | nil =>
      have found : (first :: separator).isPrefixOf (first :: (separator ++ after)) = true := by
        simp
      rw [List.nil_append, List.cons_append, splitOnce, if_pos found]
      simp
  | cons head tail ih =>
      obtain ⟨different, later⟩ := not_or.mp (mt List.mem_cons.mpr absent)
      rw [List.cons_append, List.cons_append, splitOnce, if_neg, ih later]
      · rfl
      · simp [List.isPrefixOf, different]

theorem splitOnce_eq_none {char : Char} {text : List Char} (absent : char ∉ text) :
    splitOnce [char] text = none := by
  induction text with
  | nil => rfl
  | cons head tail ih =>
      obtain ⟨different, later⟩ := not_or.mp (mt List.mem_cons.mpr absent)
      rw [splitOnce, if_neg (by simp [List.isPrefixOf, different]), ih later]
      rfl

theorem mem_decimal {value : Int} {char : Char} (member : char ∈ decimal value) :
    char = '-' ∨ char.isDigit = true := by
  cases value with
  | ofNat n => exact .inr (Nat.isDigit_of_mem_toDigits (by decide) (by decide) member)
  | negSucc n =>
      cases List.mem_cons.mp member with
      | inl sign => exact .inl sign
      | inr digit => exact .inr (Nat.isDigit_of_mem_toDigits (by decide) (by decide) digit)

theorem not_mem_decimal (value : Int) {char : Char} (sign : char ≠ '-')
    (letter : char.isDigit = false) : char ∉ decimal value := by
  intro member
  cases mem_decimal member with
  | inl same => exact sign same
  | inr digit =>
      rw [letter] at digit
      cases digit

/-! ## Joined parts -/

theorem splitOnP_append {cut : Char → Bool} {front : List Char}
    (kept : ∀ char ∈ front, cut char = false) (text : List Char) :
    (front ++ text).splitOnP cut = (text.splitOnP cut).modifyHead (front ++ ·) := by
  induction front with
  | nil => exact (congrFun List.modifyHead_id _).symm
  | cons head rest ih =>
      obtain ⟨here, later⟩ := List.forall_mem_cons.mp kept
      simp [List.splitOnP_cons_eq_if_modifyHead, here, ih later, Function.comp_def]

/-- Cutting a text never adds a character to its parts. -/
theorem mem_of_mem_splitOnP {cut : Char → Bool} {text part : List Char}
    (member : part ∈ text.splitOnP cut) {char : Char} (inside : char ∈ part) :
    char ∈ text ∧ cut char = false := by
  induction text generalizing part with
  | nil =>
      simp only [List.splitOnP_nil, List.mem_singleton] at member
      simp [member] at inside
  | cons head rest ih =>
      obtain ⟨piece, others, parts⟩ :=
        List.exists_cons_of_ne_nil (List.splitOnP_ne_nil cut rest)
      rw [List.splitOnP_cons_eq_if_modifyHead, parts] at member
      by_cases separates : cut head = true
      · simp only [separates, if_true, List.mem_cons] at member
        rcases member with rfl | member
        · simp at inside
        · obtain ⟨kept, free⟩ := ih (by rw [parts]; exact List.mem_cons.mpr member) inside
          exact ⟨List.mem_cons_of_mem _ kept, free⟩
      · simp only [separates, if_false, List.modifyHead_cons, List.mem_cons,
          Bool.false_eq_true] at member
        rcases member with rfl | member
        · rcases List.mem_cons.mp inside with rfl | inside
          · exact ⟨List.mem_cons_self, by simpa using separates⟩
          · obtain ⟨kept, free⟩ := ih (by rw [parts]; exact List.mem_cons_self) inside
            exact ⟨List.mem_cons_of_mem _ kept, free⟩
        · obtain ⟨kept, free⟩ := ih (by rw [parts]; exact List.mem_cons_of_mem _ member) inside
          exact ⟨List.mem_cons_of_mem _ kept, free⟩

/-- A character at which the text is not cut is in one of its parts. -/
theorem exists_mem_splitOnP {cut : Char → Bool} {text : List Char} {char : Char}
    (inside : char ∈ text) (kept : cut char = false) : ∃ part ∈ text.splitOnP cut, char ∈ part := by
  induction text with
  | nil => simp at inside
  | cons head rest ih =>
      obtain ⟨piece, others, parts⟩ :=
        List.exists_cons_of_ne_nil (List.splitOnP_ne_nil cut rest)
      rw [List.splitOnP_cons_eq_if_modifyHead, parts]
      rcases List.mem_cons.mp inside with rfl | inside
      · simp [kept]
      · obtain ⟨part, member, held⟩ := ih inside
        rw [parts] at member
        by_cases separates : cut head = true
        · simp only [separates, if_true]
          exact ⟨part, List.mem_cons_of_mem _ member, held⟩
        · simp only [separates, Bool.false_eq_true, if_false, List.modifyHead_cons]
          rcases List.mem_cons.mp member with rfl | member
          · exact ⟨head :: part, List.mem_cons_self, List.mem_cons_of_mem _ held⟩
          · exact ⟨part, List.mem_cons_of_mem _ member, held⟩

theorem intercalate_splitOnP (char : Char) (text : List Char) :
    [char].intercalate (text.splitOnP (· == char)) = text := by
  induction text with
  | nil => rfl
  | cons head rest ih =>
      have nonempty := List.splitOnP_ne_nil (· == char) rest
      rw [List.splitOnP_cons_eq_if_modifyHead]
      split
      · next same =>
          rw [List.intercalate_cons_of_ne_nil nonempty, ih, eq_of_beq same]
          rfl
      · obtain ⟨piece, others, cut⟩ := List.exists_cons_of_ne_nil nonempty
        rw [cut] at ih ⊢
        rw [List.modifyHead_cons, List.intercalate_cons_cons_left, ih]

theorem splitOnP_intercalate (char : Char) {parts : List (List Char)} (nonempty : parts ≠ []) :
    ([char].intercalate parts).splitOnP (· == char) =
      parts.flatMap fun part => part.splitOnP (· == char) := by
  induction parts with
  | nil => exact absurd rfl nonempty
  | cons part rest ih =>
      cases rest with
      | nil => simp
      | cons next others =>
          rw [List.intercalate_cons_cons, List.append_assoc, List.singleton_append,
            @List.splitOnP_append_cons _ (· == char) _ _ _ (beq_self_eq_true char), ih (List.cons_ne_nil _ _)]
          rfl

theorem intercalate_ne_nil {separator : List Char} {parts : List (List Char)}
    (nonempty : parts ≠ []) (each : ∀ part ∈ parts, part ≠ []) :
    separator.intercalate parts ≠ [] := by
  obtain ⟨part, rest, rfl⟩ := List.exists_cons_of_ne_nil nonempty
  have first := each part List.mem_cons_self
  cases rest with
  | nil => rwa [List.intercalate_singleton]
  | cons next others => simp [List.intercalate_cons_cons, first]

end Vpsiner.Lib.Text
