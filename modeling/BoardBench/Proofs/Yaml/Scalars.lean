import BoardBench.Proofs.Yaml.Flow

/-!
# Reading written scalars

Main results: a text in double quotes is read up to its closing quote, however it is made up, and a
word is read up to the comma behind it.

Proof strategy: both scanners look at one character after the other, so the proofs are inductions on
the text, and what an escape stands for is an induction on its digits.
-/
namespace BoardBench.Yaml

/-! ### Characters -/

/-- A character that ASCII shows. -/
def isShown (char : Char) : Bool :=
  0x21 ≤ char.toNat && char.toNat ≤ 0x7E

theorem ne_of_isShown {char other : Char} (shown : isShown char = true)
    (hidden : isShown other = false) : char ≠ other := by
  rintro rfl
  rw [shown] at hidden
  cases hidden

namespace Glyph

variable {glyph : Glyph}

theorem is_eq_false {char : Char} (apart : glyph.char ≠ char) : glyph.is char = false :=
  beq_false_of_ne apart

theorem isBreak_of_isShown (shown : isShown glyph.char = true) : glyph.isBreak = false := by
  have code := shown
  simp only [isShown, Bool.and_eq_true, decide_eq_true_eq] at code
  have separator : isSeparator glyph.char = false := by
    simp only [isSeparator, Bool.or_eq_false_iff, beq_eq_false_iff_ne]
    omega
  rw [isBreak, separator, Bool.or_false]
  exact beq_false_of_ne (ne_of_isShown shown (by decide))

theorem isBlank_of_isShown (shown : isShown glyph.char = true) : glyph.isBlank = false := by
  rw [isBlank, beq_false_of_ne (ne_of_isShown shown (by decide)),
    beq_false_of_ne (ne_of_isShown shown (by decide)), Bool.or_false]

end Glyph

theorem isLineMark_of_ne {mark : Char} {glyph : Glyph} (apart : glyph.char ≠ mark)
    (rest : List Glyph) : isLineMark mark (glyph :: rest) = false := by
  unfold isLineMark
  split
  next first second third more same =>
    cases same
    rw [Glyph.is_eq_false apart]
    simp
  next => rfl

theorem isDocumentMark_of_ne {glyph : Glyph} (notDash : glyph.char ≠ '-')
    (notDot : glyph.char ≠ '.') (rest : List Glyph) : isDocumentMark (glyph :: rest) = false := by
  rw [isDocumentMark, isLineMark_of_ne notDash, isLineMark_of_ne notDot, Bool.or_false]

/-! ### Quoted texts -/

theorem hexValue?_digitChar {digit : Nat} (small : digit < 16) :
    hexValue? digit.digitChar = some digit := by
  have all : ∀ digit < 16, hexValue? digit.digitChar = some digit := by decide
  exact all digit small

theorem first_hexDigit_lt {count code : Nat} (small : code < 16 ^ (count + 1)) :
    code / 16 ^ count < 16 :=
  Nat.div_lt_of_lt_mul (by rwa [Nat.pow_succ] at small)

/-- The digits of a code are read as the code. -/
theorem doubleQuoted_hexDigits (text : List Char) {count : Nat} (before : Nat) {code : Nat}
    {front : List Glyph} (back : List Glyph)
    (spelled : front.map Glyph.char = hexDigits (count + 1) code)
    (small : code < 16 ^ (count + 1)) (valid : (before * 16 ^ (count + 1) + code).isValidChar) :
    doubleQuoted text Gap.none (.digits (count + 1) before) (front ++ back) =
      doubleQuoted (Char.ofNat (before * 16 ^ (count + 1) + code) :: text) Gap.none .outside
        back := by
  -- `before` is what the digits in front stand for, so it grows with each of them.
  induction count generalizing before code front with
  | zero =>
    obtain ⟨glyph, rest, rfl, digit, none⟩ := List.map_eq_cons_iff.mp spelled
    obtain rfl := List.map_eq_nil_iff.mp none
    rw [Nat.zero_add, Nat.pow_one] at small valid ⊢
    have found : hexValue? glyph.char = some code := by
      rw [digit, Nat.pow_zero, Nat.div_one, hexValue?_digitChar small]
    rw [List.cons_append, doubleQuoted, found]
    simp only [Nat.le_refl, if_true, charOfCode?, if_pos valid]
    rfl
  | succ count ih =>
    obtain ⟨glyph, rest, rfl, digit, later⟩ := List.map_eq_cons_iff.mp spelled
    have power : 0 < 16 ^ (count + 1) := Nat.pow_pos (by decide)
    have found : hexValue? glyph.char = some (code / 16 ^ (count + 1)) := by
      rw [digit, hexValue?_digitChar (first_hexDigit_lt small)]
    have whole : (before * 16 + code / 16 ^ (count + 1)) * 16 ^ (count + 1) +
        code % 16 ^ (count + 1) = before * 16 ^ (count + 1 + 1) + code := by
      have parts := Nat.div_add_mod' code (16 ^ (count + 1))
      rw [Nat.add_mul, Nat.add_assoc, parts, Nat.pow_succ 16 (count + 1), Nat.mul_assoc,
        Nat.mul_comm 16]
    rw [List.cons_append, doubleQuoted, found]
    simp only [Nat.add_one_sub_one]
    -- More digits are to come, so none of them is checked yet to be a character.
    rw [if_neg (by omega), ih _ later (Nat.mod_lt _ power) (whole ▸ valid), whole]

/-- Eight digits are enough for the code of any character. -/
theorem toNat_lt_power (char : Char) : char.toNat < 16 ^ 8 := by
  have valid : char.toNat.isValidChar := char.valid
  unfold Nat.isValidChar at valid
  omega

theorem doubleQuoted_escaped {text : List Char} {char : Char} {front : List Glyph}
    (back : List Glyph) (spelled : front.map Glyph.char = escaped char) :
    doubleQuoted text Gap.none .outside (front ++ back) =
      doubleQuoted (char :: text) Gap.none .outside back := by
  obtain ⟨slash, front, rfl, isSlash, spelled⟩ := List.map_eq_cons_iff.mp spelled
  obtain ⟨mark, front, rfl, isMark, spelled⟩ := List.map_eq_cons_iff.mp spelled
  have valid : char.toNat.isValidChar := char.valid
  have read := doubleQuoted_hexDigits text 0 back spelled (toNat_lt_power char)
    (by rwa [Nat.zero_mul, Nat.zero_add])
  rw [Nat.zero_mul, Nat.zero_add, Char.ofNat_toNat] at read
  have shown : isShown slash.char = true := by rw [isSlash]; decide
  have shown' : isShown mark.char = true := by rw [isMark]; decide
  have unmarked (rest : List Glyph) : isDocumentMark (slash :: rest) = false :=
    isDocumentMark_of_ne (by rw [isSlash]; decide) (by rw [isSlash]; decide) rest
  have notQuote : slash.is doubleQuote = false := Glyph.is_eq_false (by rw [isSlash]; decide)
  -- The escape has neither a break nor a blank in it, so no gap is open behind it.
  have opens : slash.is backslash = true := by rw [Glyph.is, isSlash]; rfl
  have code : escapeCode mark.char = .code 8 := by rw [isMark]; rfl
  simp only [List.cons_append, doubleQuoted, Glyph.isBreak_of_isShown shown,
    Glyph.isBlank_of_isShown shown, Glyph.isBreak_of_isShown shown', unmarked, notQuote, opens,
    code, Bool.false_eq_true, if_false, if_true]
  exact read

/-- A written text is read up to its closing quote. -/
theorem doubleQuoted_inQuotes {text before : List Char} {front back : List Glyph} {quote : Glyph}
    (spelled : front.map Glyph.char = text.flatMap escaped) (closes : quote.char = doubleQuote) :
    doubleQuoted before Gap.none .outside (front ++ quote :: back) =
      some (reading (text.reverse ++ before) back) := by
  induction text generalizing before front with
  | nil =>
    obtain rfl := List.map_eq_nil_iff.mp spelled
    have shown : isShown quote.char = true := by rw [closes]; decide
    have unmarked : isDocumentMark (quote :: back) = false :=
      isDocumentMark_of_ne (by rw [closes]; decide) (by rw [closes]; decide) back
    have ends : quote.is doubleQuote = true := by rw [Glyph.is, closes]; rfl
    simp only [List.nil_append, doubleQuoted, Glyph.isBreak_of_isShown shown,
      Glyph.isBlank_of_isShown shown, unmarked, ends, Bool.false_eq_true, if_false, if_true]
    rfl
  | cons char rest ih =>
    rw [List.flatMap_cons] at spelled
    obtain ⟨first, later, rfl, here, there⟩ := List.map_eq_append_iff.mp spelled
    rw [List.append_assoc, doubleQuoted_escaped _ here, ih there]
    simp

/-! ### Words -/

theorem ne_of_isAlphanum {char other : Char} (letter : char.isAlphanum = true)
    (mark : other.isAlphanum = false) : char ≠ other := by
  rintro rfl
  rw [letter] at mark
  cases mark

theorem isShown_of_isAlphanum {char : Char} (letter : char.isAlphanum = true) :
    isShown char = true := by
  have code : (65 ≤ char.toNat ∧ char.toNat ≤ 90 ∨ 97 ≤ char.toNat ∧ char.toNat ≤ 122) ∨
      48 ≤ char.toNat ∧ char.toNat ≤ 57 := by
    rcases Bool.or_eq_true_iff.mp letter with letter | digit
    · rcases Bool.or_eq_true_iff.mp letter with upper | lower
      · exact .inl (.inl (of_decide_eq_true upper))
      · have both := Bool.and_eq_true_iff.mp lower
        exact .inl (.inr ⟨of_decide_eq_true both.1, of_decide_eq_true both.2⟩)
    · exact .inr (Char.isDigit_iff_toNat.mp digit)
  simp only [isShown, Bool.and_eq_true, decide_eq_true_eq]
  omega

/-- A word in a flow collection is read up to the comma behind it. -/
theorem plain_word {word before : List Char} {indent : Int} {front back : List Glyph}
    {comma : Glyph} (spelled : front.map Glyph.char = word)
    (letters : ∀ char ∈ word, char.isAlphanum = true) (ends : comma.char = ',') :
    plain true indent before Gap.none (front ++ comma :: back) =
      some (plainReading (word.reverse ++ before) Gap.none (comma :: back)) := by
  induction word generalizing before front with
  | nil =>
    obtain rfl := List.map_eq_nil_iff.mp spelled
    have shown : isShown comma.char = true := by rw [ends]; decide
    have stray : isStrayColon comma back = false := by
      unfold isStrayColon
      rw [Glyph.is_eq_false (by rw [ends]; decide), Bool.false_and]
    -- Nothing of the word is left, and the comma ends it.
    have last : endsInFlow comma = true := by rw [endsInFlow, Glyph.is, ends]; rfl
    simp only [List.nil_append, plain, Glyph.isBreak_of_isShown shown,
      Glyph.isBlank_of_isShown shown, stray, last, Bool.false_eq_true, if_false, ne_eq,
      not_true_eq_false, false_and, Bool.and_false, Bool.and_true, Bool.or_true, if_true]
    rfl
  | cons char rest ih =>
    obtain ⟨glyph, later, rfl, isChar, spelled⟩ := List.map_eq_cons_iff.mp spelled
    have both := List.forall_mem_cons.mp letters
    have letter : glyph.char.isAlphanum = true := isChar ▸ both.1
    have shown := isShown_of_isAlphanum letter
    have other (mark : Char) (isMark : mark.isAlphanum = false) : glyph.is mark = false :=
      Glyph.is_eq_false (ne_of_isAlphanum letter isMark)
    have notColon := other ':' (by decide)
    have stray (rest : List Glyph) : isStrayColon glyph rest = false := by
      unfold isStrayColon
      rw [notColon, Bool.false_and]
    have alone (rest : List Glyph) : standsAlone ':' (glyph :: rest) = false := by
      rw [standsAlone, notColon, Bool.false_and]
    have going : endsInFlow glyph = false := by
      simp only [endsInFlow, Bool.or_eq_false_iff]
      exact ⟨⟨⟨⟨other ',' (by decide), other '[' (by decide)⟩, other ']' (by decide)⟩,
        other '\x7b' (by decide)⟩, other '\x7d' (by decide)⟩
    have read : plain true indent (glyph.char :: before) Gap.none (later ++ comma :: back) = _ :=
      ih spelled both.2
    simp only [List.cons_append, plain, Glyph.isBreak_of_isShown shown,
      Glyph.isBlank_of_isShown shown, stray, alone, going, Bool.false_eq_true, if_false,
      ne_eq, not_true_eq_false, false_and, Bool.and_false, Bool.or_false]
    rw [List.reverse_cons, List.append_assoc, List.singleton_append, ← isChar, ← read]
    rfl

end BoardBench.Yaml
