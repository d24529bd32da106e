import BoardBench.Yaml.Value
import Mathlib.Tactic.IntervalCases

/-!
# Scalars that keep their meaning

A text is read back if it is written in quotes, or plain where it cannot be taken for anything else.
Main result: a count that is written in decimal digits is read back, however large it is.
-/
namespace BoardBench.Yaml

/-! ### Digits -/

theorem digitOf?_of_isDigit {char : Char} (digit : char.isDigit = true) :
    digitOf? 10 char = some (char.toNat - '0'.toNat) := by
  have bounds := Char.isDigit_iff_toNat.mp digit
  have first : '0'.toNat = 48 := rfl
  have last : '9'.toNat = 57 := rfl
  simp only [digitOf?]
  have within : 48 ≤ char.toNat ∧ char.toNat ≤ 57 := by omega
  rw [if_pos within, if_pos (by omega), first]

theorem foldlM_digits {digits : List Char} (all : ∀ char ∈ digits, char.isDigit = true)
    (start : Nat) :
    digits.foldlM (fun value char => (digitOf? 10 char).map (10 * value + ·)) start =
      some (Nat.ofDigitChars 10 digits start) := by
  induction digits generalizing start with
  | nil => rfl
  | cons digit rest ih =>
    have both := List.forall_mem_cons.mp all
    rw [List.foldlM_cons, digitOf?_of_isDigit both.1, Nat.ofDigitChars_cons, ← ih both.2]
    rfl

/-- Only zero is written with a zero in front. -/
theorem head?_toDigits_ne {number : Nat} (positive : 0 < number) :
    (Nat.toDigits 10 number).head? ≠ some '0' := by
  induction number using Nat.strongRecOn with
  | ind number ih =>
    by_cases small : number < 10
    · rw [Nat.toDigits_of_lt_base small]
      interval_cases number <;> decide
    · have head := ih (number / 10) (by omega) (by omega)
      rw [Nat.toDigits_of_base_le (by decide) (by omega), List.head?_append]
      cases first : (Nat.toDigits 10 (number / 10)).head? with
      | none => exact absurd (List.head?_eq_none_iff.mp first) Nat.toDigits_ne_nil
      | some digit =>
        rw [first] at head
        exact head

theorem magnitude?_toDigits (number : Nat) : magnitude? (Nat.toDigits 10 number) = some number := by
  have read : numberIn? 10 (Nat.toDigits 10 number) = some number := by
    have all : ∀ char ∈ Nat.toDigits 10 number, char.isDigit = true :=
      fun _ => Nat.isDigit_of_mem_toDigits (by decide) (by decide)
    have folded := foldlM_digits all 0
    rw [Nat.ofDigitChars_toDigits (by decide) (by decide)] at folded
    unfold numberIn?
    split
    next none => exact absurd none Nat.toDigits_ne_nil
    next => exact folded
  rcases Nat.eq_zero_or_pos number with rfl | positive
  · rfl
  · have head := head?_toDigits_ne positive
    cases digits : Nat.toDigits 10 number with
    | nil => exact absurd digits Nat.toDigits_ne_nil
    | cons digit rest =>
      rw [digits] at read head
      have filled : digit ≠ '0' := by simpa using head
      unfold magnitude?
      split
      next same => exact absurd (List.cons.inj same).1 filled
      next same => exact absurd (List.cons.inj same).1 filled
      next same => exact absurd (List.cons.inj same).1 filled
      next same => exact absurd (List.cons.inj same).1 filled
      next => exact read

theorem toList_toString (number : Nat) : (toString number).toList = Nat.toDigits 10 number :=
  Nat.toList_repr

theorem isDigit_of_mem_toString {number : Nat} {char : Char}
    (among : char ∈ (toString number).toList) : char.isDigit = true := by
  rw [toList_toString] at among
  exact Nat.isDigit_of_mem_toDigits (by decide) (by decide) among

theorem wholeNumber?_toString (number : Nat) :
    wholeNumber? (toString number).toList = some (false, number) := by
  unfold wholeNumber?
  split
  next signed => exact absurd (isDigit_of_mem_toString (signed ▸ List.mem_cons_self)) (by decide)
  next signed => exact absurd (isDigit_of_mem_toString (signed ▸ List.mem_cons_self)) (by decide)
  next =>
    rw [toList_toString, magnitude?_toDigits]
    rfl

/-- A word with anything but digits in it is no number. -/
theorem contains_toString {number : Nat} {words : List String}
    (apart : words.all (fun word => word.toList.any fun char => !char.isDigit) = true) :
    words.contains (toString number) = false := by
  rw [List.contains_eq_mem, decide_eq_false_iff_not]
  intro among
  obtain ⟨char, inside, other⟩ := List.any_eq_true.mp (List.all_eq_true.mp apart _ among)
  rw [isDigit_of_mem_toString inside] at other
  cases other

theorem isEmpty_toString (number : Nat) : (toString number).isEmpty = false := by
  rw [← Bool.not_eq_true, String.isEmpty_iff]
  intro empty
  have digits := toList_toString number
  rw [empty] at digits
  exact absurd digits.symm Nat.toDigits_ne_nil

theorem plainValue?_toString (count : UInt64) :
    plainValue? (toString count.toNat) = some (.natural count) := by
  have null : isNullText (toString count.toNat) = false :=
    contains_toString (by decide)
  have bool : boolOfText? (toString count.toNat) = none := by
    rw [boolOfText?, contains_toString (by decide), contains_toString (by decide)]
    rfl
  have word : widthOf false count.toNat = .word := by
    have bound := count.toNat_lt
    have least : count.toNat ≤ Nat.pow 2 64 - 1 := by
      rw [show Nat.pow 2 64 = 2 ^ 64 from rfl]
      omega
    exact if_pos least
  have number : numberValue? (toString count.toNat) = some (some (.natural count)) := by
    simp only [numberValue?, wholeNumber?_toString, word]
    simp
  simp only [plainValue?, isEmpty_toString, null, bool, number]
  rfl

/-! ### Spellings -/

/-- A way to write texts and counts as scalars, so that each one is read back as what it is. -/
structure Spelling where
  style : String → Style
  digits : UInt64 → String
  isText : ∀ text, scalarValue? none (style text) text = some (.text text)
  isCount : ∀ count, scalarValue? none .plain (digits count) = some (.natural count)

namespace Spelling

/-- Every text in double quotes, and counts in decimal digits. -/
def quoted : Spelling where
  style _ := .doubleQuoted
  digits count := toString count.toNat
  isText _ := rfl
  isCount := plainValue?_toString

variable (spelling : Spelling)

def ofText (text : String) : Node :=
  .scalar none none (spelling.style text) text

def ofCount (count : UInt64) : Node :=
  .scalar none none .plain (spelling.digits count)

def ofSwitch (on : Bool) : Node :=
  .scalar none none .plain (if on then "true" else "false")

def ofTexts (texts : List String) : Node :=
  .sequence none none (texts.map spelling.ofText)

/-- A mapping with texts as keys. -/
def ofFields (fields : List (String × Node)) : Node :=
  .mapping none none (fields.map fun (key, value) => (spelling.ofText key, value))

/-- A mapping of texts to texts. -/
def ofBindings (bindings : List (String × String)) : Node :=
  spelling.ofFields (bindings.map fun (key, text) => (key, spelling.ofText text))

end Spelling

namespace Value

/-- What a mapping with texts as keys means. -/
def ofFields (fields : List (String × Value)) : Value :=
  .map (fields.map fun (key, value) => (.text key, value))

def ofBindings (bindings : List (String × String)) : Value :=
  ofFields (bindings.map fun (key, content) => (key, .text content))

end Value

end BoardBench.Yaml
