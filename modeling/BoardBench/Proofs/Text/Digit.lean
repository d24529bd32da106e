import BoardBench.Text.Digit
import BoardBench.Proofs.Text.Blank
import Mathlib.Data.Nat.Digits.Defs

/-!
# Texts that denote numbers

Main result: a text is read as a number exactly if it denotes it, which takes an optional plus sign
and ASCII digits, and the number is below the bound. Every number is denoted by its decimal digits,
with any number of zeros in front of them.
-/
namespace BoardBench

/-- An optional plus sign and one or more ASCII digits, which denote the number. -/
def Denotes (text : List Char) (number : Nat) : Prop :=
  ∃ digits, (text = digits ∨ text = '+' :: digits) ∧ digits ≠ [] ∧
    (∀ digit ∈ digits, isAsciiDigit digit = true) ∧
    Nat.ofDigits 10 (digits.reverse.map fun digit => digit.toNat - 48) = number

/-! ### Digits -/

theorem digitsValue_eq_ofDigits (digits : List Char) :
    digitsValue digits =
      Nat.ofDigits 10 (digits.reverse.map fun digit => digit.toNat - 48) := by
  induction digits using List.reverseRecOn with
  | nil => rfl
  | append_singleton front last ih =>
    rw [List.reverse_concat, List.map_cons, Nat.ofDigits_cons, ← ih]
    simp [digitsValue, digitsFrom, Nat.add_comm]

theorem isAsciiDigit_iff_isDigit (char : Char) :
    isAsciiDigit char = true ↔ char.isDigit = true := by
  have first : '0'.toNat = 48 := rfl
  have last : '9'.toNat = 57 := rfl
  rw [Char.isDigit_iff_toNat, first, last]
  simp [isAsciiDigit]

theorem isBlank_of_isDigit {char : Char} (digit : char.isDigit = true) : isBlank char = false := by
  have bounds := Char.isDigit_iff_toNat.mp digit
  have first : '0'.toNat = 48 := rfl
  have last : '9'.toNat = 57 := rfl
  simp only [isBlank, Bool.or_eq_false_iff, Bool.and_eq_false_iff, decide_eq_false_iff_not,
    beq_eq_false_iff_ne]
  omega

theorem isTrimmed_of_isDigit {digits : List Char} (all : ∀ char ∈ digits, char.isDigit = true) :
    IsTrimmed digits := by
  refine (isTrimmed_iff _).mpr ⟨fun first among => ?_, fun last among => ?_⟩
  · exact isBlank_of_isDigit (all first (List.mem_of_mem_head? among))
  · exact isBlank_of_isDigit (all last (List.mem_of_mem_getLast? among))

/-! ### Reading -/

theorem plainNatural?_eq_some_iff (digits : List Char) (number : Nat) :
    plainNatural? digits = some number ↔
      digits ≠ [] ∧ (∀ digit ∈ digits, isAsciiDigit digit = true) ∧
        Nat.ofDigits 10 (digits.reverse.map fun digit => digit.toNat - 48) = number := by
  rw [plainNatural?, Option.ite_none_right_eq_some, List.all_eq_true, Option.some.injEq, and_assoc,
    digitsValue_eq_ofDigits]

/-- Digits do not start with a plus sign. -/
theorem plainNatural?_plus (rest : List Char) : plainNatural? ('+' :: rest) = none := by
  rw [plainNatural?, if_neg]
  rintro ⟨-, digits⟩
  exact absurd (List.all_eq_true.mp digits '+' List.mem_cons_self) (by decide)

theorem denotes_iff (text : List Char) (number : Nat) :
    Denotes text number ↔
      ∃ digits, (text = digits ∨ text = '+' :: digits) ∧ plainNatural? digits = some number := by
  simp only [plainNatural?_eq_some_iff]
  rfl

theorem natural?_eq_some_iff (bound : Nat) (text : List Char) (number : Nat) :
    natural? bound text = some number ↔ Denotes text number ∧ number < bound := by
  rw [denotes_iff]
  unfold natural?
  simp only
  split
  next rest =>
    rw [Option.filter_eq_some_iff, decide_eq_true_eq]
    refine and_congr_left fun _ => ⟨fun read => ⟨rest, .inr rfl, read⟩, ?_⟩
    rintro ⟨digits, rfl | same, read⟩
    · rw [plainNatural?_plus] at read
      cases read
    · cases same
      exact read
  next plain =>
    rw [Option.filter_eq_some_iff, decide_eq_true_eq]
    refine and_congr_left fun _ => ⟨fun read => ⟨text, .inl rfl, read⟩, ?_⟩
    rintro ⟨digits, rfl | same, read⟩
    · exact read
    · exact absurd same (plain digits)

/-- Numbers that are read as counts fit into a word. -/
theorem map_toNat_countOfText? (text : List Char) :
    (countOfText? text).map UInt64.toNat = natural? countBound text := by
  rw [countOfText?, Option.map_map]
  cases read : natural? countBound text with
  | none => rfl
  | some number =>
    have below := ((natural?_eq_some_iff _ _ _).mp read).2
    exact congrArg some (UInt64.toNat_ofNat_of_lt' below)

theorem countOfText?_eq_some_iff (text : List Char) (count : UInt64) :
    countOfText? text = some count ↔ Denotes text count.toNat := by
  have injective : Function.Injective UInt64.toNat := fun _ _ => UInt64.toNat_inj.mp
  rw [← (Option.map_injective injective).eq_iff, Option.map_some, map_toNat_countOfText?,
    natural?_eq_some_iff, and_iff_left]
  exact count.toNat_lt

/-! ### Writing -/

theorem isDigit_of_mem_padded {number zeros : Nat} {char : Char}
    (among : char ∈ List.replicate zeros '0' ++ Nat.toDigits 10 number) : char.isDigit = true := by
  rcases List.mem_append.mp among with zero | digit
  · rw [List.eq_of_mem_replicate zero]
    rfl
  · exact Nat.isDigit_of_mem_toDigits (by decide) (by decide) digit

theorem denotes_toDigits (zeros number : Nat) :
    Denotes (List.replicate zeros '0' ++ Nat.toDigits 10 number) number := by
  refine ⟨_, .inl rfl, ?_, ?_, ?_⟩
  · exact List.append_ne_nil_of_right_ne_nil _ Nat.toDigits_ne_nil
  · intro digit among
    exact (isAsciiDigit_iff_isDigit digit).mpr (isDigit_of_mem_padded among)
  · rw [← digitsValue_eq_ofDigits]
    -- Digits are evaluated from the front, and zeros there add nothing.
    change Nat.ofDigitChars 10 (List.replicate zeros '0' ++ Nat.toDigits 10 number) 0 = number
    rw [Nat.ofDigitChars_append, Nat.ofDigitChars_replicate_zero, Nat.mul_zero,
      Nat.ofDigitChars_ten_toDigits]

end BoardBench
