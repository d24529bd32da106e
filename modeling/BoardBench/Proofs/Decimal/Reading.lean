import BoardBench.Decimal.Reading
import BoardBench.Proofs.Text.Digit

/-!
# Texts that spell doubles

Main result: a text is read as a double exactly if it spells the double. It does so with a sign or
none and then with a word for the infinite or for what is not a number, or with digits that may have
a point among them and an exponent behind them.

Proof strategy: the description cuts a text into parts, and reading cuts it at the same places. What
follows on digits is a point, the mark of an exponent or nothing, and none of these is a digit. What
follows on a sign is a letter, a digit or a point, and none of these is a sign.
-/
namespace BoardBench.Decimal

/-! ### The description -/

/-- A minus sign, or a plus sign or nothing. -/
def IsSign (sign : List Char) (negative : Bool) : Prop :=
  sign = ['-'] ∧ negative = true ∨ (sign = ['+'] ∨ sign = []) ∧ negative = false

def AreDigits (digits : List Char) : Prop :=
  ∀ digit ∈ digits, isAsciiDigit digit = true

/-- The number that digits denote by their places. -/
def placeValue (digits : List Char) : Nat :=
  Nat.ofDigits 10 (digits.reverse.map fun digit => digit.toNat - 48)

/-- The letter `e` in either case, a sign and one or more digits, or nothing, which is zero. -/
inductive IsExponent : List Char → Int → Prop
  | absent : IsExponent [] 0
  | present {mark : Char} {sign digits : List Char} {negative : Bool} :
    mark.toLower = 'e' → IsSign sign negative → digits ≠ [] → AreDigits digits →
    IsExponent (mark :: (sign ++ digits))
      (if negative then -(placeValue digits : Int) else placeValue digits)

/-- One or more digits with at most one point before, among or behind them, and an exponent. -/
inductive IsNumeral : List Char → Numeral → Prop
  | whole {digits ending : List Char} {exponent : Int} :
    digits ≠ [] → AreDigits digits → IsExponent ending exponent →
    IsNumeral (digits ++ ending)
      { digits := placeValue digits, width := digits.length, scale := exponent }
  | pointed {digits fraction ending : List Char} {exponent : Int} :
    digits ++ fraction ≠ [] → AreDigits digits → AreDigits fraction →
    IsExponent ending exponent →
    IsNumeral (digits ++ '.' :: (fraction ++ ending))
      { digits := placeValue (digits ++ fraction), width := (digits ++ fraction).length
        scale := exponent - fraction.length }

/-- A sign, and then a word in whatever case its letters are, or a numeral. -/
inductive Spells : List Char → Float → Prop
  | infinite {sign word : List Char} {negative : Bool} : IsSign sign negative →
    word.map Char.toLower = "inf".toList ∨ word.map Char.toLower = "infinity".toList →
    Spells (sign ++ word) (floatOfBits negative infinityBits)
  | notANumber {sign word : List Char} {negative : Bool} : IsSign sign negative →
    word.map Char.toLower = "nan".toList →
    Spells (sign ++ word) (floatOfBits negative notANumberBits)
  | numeral {sign text : List Char} {negative : Bool} {number : Numeral} :
    IsSign sign negative → IsNumeral text number →
    Spells (sign ++ text) (floatOfBits negative number.bits)

theorem digitsValue_eq_placeValue (digits : List Char) : digitsValue digits = placeValue digits :=
  digitsValue_eq_ofDigits digits

/-! ### Letters, digits and signs -/

/-- Where the capital letters start, behind the digits, the point and the signs. -/
def firstLetter : Nat := 65

theorem toLower_of_lt {char : Char} (before : char.toNat < firstLetter) : char.toLower = char := by
  have letter : 'A'.val.toNat = firstLetter := rfl
  unfold Char.toLower
  rw [dif_neg]
  rintro ⟨least, -⟩
  rw [ge_iff_le, UInt32.le_iff_toNat_le, letter] at least
  exact absurd least (Nat.not_le.mpr before)

/-- What becomes a letter has been one. -/
theorem le_of_toLower {char letter : Char} (lowered : char.toLower = letter)
    (high : firstLetter ≤ letter.toNat) : firstLetter ≤ char.toNat := by
  by_contra before
  rw [toLower_of_lt (Nat.not_le.mp before)] at lowered
  exact before (lowered ▸ high)

theorem isAsciiDigit_of_le {char : Char} (letter : firstLetter ≤ char.toNat) :
    isAsciiDigit char = false := by
  simp only [firstLetter] at letter
  simp only [isAsciiDigit, Bool.and_eq_false_iff, decide_eq_false_iff_not]
  omega

/-- A text that does not start with a sign. -/
def IsUnsigned (text : List Char) : Prop :=
  ∀ first ∈ text.head?, first ≠ '-' ∧ first ≠ '+'

theorem isUnsigned_of_head {text : List Char} (starts : Char → Prop)
    (begins : ∀ first ∈ text.head?, starts first) (minus : ¬starts '-') (plus : ¬starts '+') :
    IsUnsigned text := by
  intro first among
  constructor
  · rintro rfl
    exact minus (begins '-' among)
  · rintro rfl
    exact plus (begins '+' among)

theorem AreDigits.isUnsigned {digits : List Char} (all : AreDigits digits) : IsUnsigned digits :=
  isUnsigned_of_head (isAsciiDigit · = true)
    (fun first among => all first (List.mem_of_mem_head? among)) (by decide) (by decide)

theorem takeSign_append {sign text : List Char} {negative : Bool} (isSign : IsSign sign negative)
    (unsigned : IsUnsigned text) : takeSign (sign ++ text) = (negative, text) := by
  rcases isSign with ⟨rfl, rfl⟩ | ⟨rfl | rfl, rfl⟩
  · rfl
  · rfl
  · rw [List.nil_append]
    unfold takeSign
    split
    next rest => exact absurd rfl (unsigned '-' rfl).1
    next rest => exact absurd rfl (unsigned '+' rfl).2
    next => rfl

theorem exists_sign (text : List Char) :
    ∃ sign, IsSign sign (takeSign text).1 ∧ text = sign ++ (takeSign text).2 := by
  unfold takeSign
  split
  next rest => exact ⟨['-'], .inl ⟨rfl, rfl⟩, rfl⟩
  next rest => exact ⟨['+'], .inr ⟨.inl rfl, rfl⟩, rfl⟩
  next => exact ⟨[], .inr ⟨.inr rfl, rfl⟩, rfl⟩

/-! ### Exponents -/

theorem exponentOf?_eq_some_iff (text : List Char) (exponent : Int) :
    exponentOf? text = some exponent ↔ IsExponent text exponent := by
  constructor
  · intro read
    cases text with
    | nil =>
      cases read
      exact .absent
    | cons mark rest =>
      obtain ⟨sign, isSign, split⟩ := exists_sign rest
      rw [exponentOf?, Option.ite_none_right_eq_some] at read
      obtain ⟨marks, read⟩ := read
      -- The rest is known only by how it is cut, and the cut is the one of the description.
      generalize takeSign rest = signed at isSign split read
      obtain ⟨negative, digits⟩ := signed
      simp only [Option.map_eq_some_iff, Option.bind_eq_bind, Option.bind_eq_some_iff,
        Option.pure_def, Option.some.injEq, plainNatural?_eq_some_iff] at read
      obtain ⟨_, ⟨_, ⟨filled, all, rfl⟩, rfl⟩, rfl⟩ := read
      rw [split]
      exact .present marks isSign filled all
  · rintro (_ | ⟨marks, isSign, filled, all⟩)
    · rfl
    · rw [exponentOf?, if_pos marks, takeSign_append isSign all.isUnsigned]
      simp only
      rw [(plainNatural?_eq_some_iff _ _).mpr ⟨filled, all, rfl⟩]
      rfl

section Exponent

variable {text : List Char} {exponent : Int} (isExponent : IsExponent text exponent)
include isExponent

theorem IsExponent.begins : ∀ first ∈ text.head?, firstLetter ≤ first.toNat := by
  cases isExponent with
  | absent => simp
  | present marks =>
    intro first among
    cases among
    exact le_of_toLower marks (by decide)

theorem IsExponent.stops : ∀ first ∈ text.head?, isAsciiDigit first = false :=
  fun first among => isAsciiDigit_of_le (isExponent.begins first among)

theorem IsExponent.ne_point (more : List Char) : text ≠ '.' :: more := by
  rintro rfl
  exact absurd (isExponent.begins '.' rfl) (by decide)

end Exponent

/-! ### Numerals -/

section Digits

variable {digits rest : List Char} (all : AreDigits digits)
  (stops : ∀ first ∈ rest.head?, isAsciiDigit first = false)
include all stops

theorem takeWhile_digits : (digits ++ rest).takeWhile isAsciiDigit = digits := by
  rw [List.takeWhile_append_of_pos all]
  cases rest with
  | nil => simp
  | cons first more => simp [stops first rfl]

theorem dropWhile_digits : (digits ++ rest).dropWhile isAsciiDigit = rest := by
  rw [List.dropWhile_append_of_pos all]
  cases rest with
  | nil => simp
  | cons first more => simp [stops first rfl]

end Digits

theorem areDigits_takeWhile (text : List Char) : AreDigits (text.takeWhile isAsciiDigit) :=
  fun _ => List.mem_takeWhile_imp

/-- The numeral of digits before and behind a point and of what follows on them. -/
def numeralOf? (digits fraction ending : List Char) : Option Numeral :=
  if digits ++ fraction = [] then none
  else
    (exponentOf? ending).map fun exponent =>
      { digits := placeValue (digits ++ fraction), width := (digits ++ fraction).length
        scale := exponent - fraction.length }

theorem numeral?_of_pointed {text more : List Char}
    (pointed : text.dropWhile isAsciiDigit = '.' :: more) :
    numeral? text = numeralOf? (text.takeWhile isAsciiDigit) (more.takeWhile isAsciiDigit)
      (more.dropWhile isAsciiDigit) := by
  unfold numeral? numeralOf?
  simp only [pointed, digitsValue_eq_placeValue, List.isEmpty_iff]

theorem numeral?_of_unpointed {text : List Char}
    (unpointed : ∀ more, text.dropWhile isAsciiDigit ≠ '.' :: more) :
    numeral? text = numeralOf? (text.takeWhile isAsciiDigit) []
      (text.dropWhile isAsciiDigit) := by
  unfold numeral? numeralOf?
  simp only [digitsValue_eq_placeValue, List.isEmpty_iff]

theorem numeralOf?_eq_some_iff (digits fraction ending : List Char) (number : Numeral) :
    numeralOf? digits fraction ending = some number ↔
      digits ++ fraction ≠ [] ∧ ∃ exponent, IsExponent ending exponent ∧
        number =
          { digits := placeValue (digits ++ fraction), width := (digits ++ fraction).length
            scale := exponent - fraction.length } := by
  simp only [numeralOf?, Option.ite_none_left_eq_some, Option.map_eq_some_iff,
    exponentOf?_eq_some_iff, eq_comm (b := number)]

theorem numeral?_eq_some_iff (text : List Char) (number : Numeral) :
    numeral? text = some number ↔ IsNumeral text number := by
  constructor
  · intro read
    have digits := areDigits_takeWhile text
    -- The digits in front end at a point, or else at the exponent.
    rw [← List.takeWhile_append_dropWhile (p := isAsciiDigit) (l := text)]
    by_cases pointed : ∃ more, text.dropWhile isAsciiDigit = '.' :: more
    · obtain ⟨more, pointed⟩ := pointed
      rw [numeral?_of_pointed pointed, numeralOf?_eq_some_iff] at read
      obtain ⟨filled, exponent, ends, rfl⟩ := read
      have cut : more = more.takeWhile isAsciiDigit ++ more.dropWhile isAsciiDigit :=
        List.takeWhile_append_dropWhile.symm
      rw [pointed]
      nth_rewrite 1 [cut]
      exact .pointed filled digits (areDigits_takeWhile more) ends
    · rw [numeral?_of_unpointed (not_exists.mp pointed), numeralOf?_eq_some_iff] at read
      obtain ⟨filled, exponent, ends, rfl⟩ := read
      simp only [List.append_nil, List.length_nil, Nat.cast_zero, Int.sub_zero] at filled ⊢
      exact .whole filled digits ends
  · intro isNumeral
    cases isNumeral with
    | @whole digits ending exponent filled all ends =>
      have cut := dropWhile_digits all ends.stops
      have unpointed (more : List Char) : (digits ++ ending).dropWhile isAsciiDigit ≠ '.' :: more :=
        cut.trans_ne (ends.ne_point more)
      rw [numeral?_of_unpointed unpointed, takeWhile_digits all ends.stops, cut,
        numeralOf?_eq_some_iff]
      exact ⟨by simpa using filled, exponent, ends, by simp⟩
    | @pointed digits fraction ending exponent filled all fractional ends =>
      have point : ∀ first ∈ ('.' :: (fraction ++ ending)).head?, isAsciiDigit first = false := by
        simp [isAsciiDigit]
      rw [numeral?_of_pointed (dropWhile_digits all point), takeWhile_digits all point,
        takeWhile_digits fractional ends.stops, dropWhile_digits fractional ends.stops,
        numeralOf?_eq_some_iff]
      exact ⟨filled, exponent, ends, rfl⟩

/-! ### Words -/

/-- What becomes a word has started with a letter. -/
theorem begins_of_map {text word : List Char} (lowered : text.map Char.toLower = word)
    (letter : ∀ first ∈ word.head?, firstLetter ≤ first.toNat) :
    ∀ first ∈ text.head?, firstLetter ≤ first.toNat := by
  intro first among
  have high : firstLetter ≤ first.toLower.toNat := by
    apply letter
    rw [← lowered, List.head?_map]
    exact Option.mem_map_of_mem _ among
  exact le_of_toLower rfl high

theorem isUnsigned_of_map {text word : List Char} (lowered : text.map Char.toLower = word)
    (letter : ∀ first ∈ word.head?, firstLetter ≤ first.toNat) : IsUnsigned text :=
  isUnsigned_of_head (firstLetter ≤ ·.toNat) (begins_of_map lowered letter) (by decide) (by decide)

section Numeral

variable {text : List Char} {number : Numeral} (isNumeral : IsNumeral text number)
include isNumeral

/-- A numeral starts with a digit or a point. -/
theorem IsNumeral.begins :
    ∃ first ∈ text.head?, isAsciiDigit first = true ∨ first = '.' := by
  cases isNumeral with
  | @whole digits ending _ filled all =>
    obtain ⟨first, rest, rfl⟩ := List.exists_cons_of_ne_nil filled
    exact ⟨first, rfl, .inl (all first List.mem_cons_self)⟩
  | @pointed digits fraction ending _ _ all =>
    cases digits with
    | nil => exact ⟨'.', rfl, .inr rfl⟩
    | cons first rest => exact ⟨first, rfl, .inl (all first List.mem_cons_self)⟩

theorem IsNumeral.isUnsigned : IsUnsigned text := by
  obtain ⟨first, among, begins⟩ := isNumeral.begins
  refine isUnsigned_of_head (fun char => isAsciiDigit char = true ∨ char = '.') ?_ (by decide)
    (by decide)
  intro other same
  cases Option.mem_unique among same
  exact begins

theorem IsNumeral.map_ne {word : List Char}
    (letter : ∀ first ∈ word.head?, firstLetter ≤ first.toNat) : text.map Char.toLower ≠ word := by
  intro lowered
  obtain ⟨first, among, digit | rfl⟩ := isNumeral.begins
  · rw [isAsciiDigit_of_le (begins_of_map lowered letter first among)] at digit
    cases digit
  · exact absurd (begins_of_map lowered letter '.' among) (by decide)

end Numeral

/-! ### Doubles -/

theorem floatOfChars?_eq_some_iff (text : List Char) (value : Float) :
    floatOfChars? text = some value ↔ Spells text value := by
  constructor
  · intro read
    obtain ⟨sign, isSign, split⟩ := exists_sign text
    unfold floatOfChars? at read
    generalize takeSign text = signed at isSign split read
    obtain ⟨negative, unsigned⟩ := signed
    rw [split]
    simp only at read
    split at read
    next word =>
      cases read
      exact .infinite isSign word
    next =>
      split at read
      next word =>
        cases read
        exact .notANumber isSign word
      next =>
        obtain ⟨number, numeral, rfl⟩ := Option.map_eq_some_iff.mp read
        exact .numeral isSign ((numeral?_eq_some_iff _ _).mp numeral)
  · intro spells
    cases spells with
    | infinite isSign word =>
      have unsigned := word.elim (isUnsigned_of_map · (by simp [firstLetter]))
        (isUnsigned_of_map · (by simp [firstLetter]))
      rw [floatOfChars?, takeSign_append isSign unsigned]
      exact if_pos word
    | @notANumber _ _ _ isSign word =>
      have unsigned := isUnsigned_of_map word (by simp [firstLetter])
      rw [floatOfChars?, takeSign_append isSign unsigned]
      simp only [lowerChars, word]
      rfl
    | @numeral _ text _ _ isSign isNumeral =>
      -- The words are looked for first, but a numeral does not start with a letter.
      have inf : text.map Char.toLower ≠ "inf".toList := isNumeral.map_ne (by simp [firstLetter])
      have infinity : text.map Char.toLower ≠ "infinity".toList :=
        isNumeral.map_ne (by simp [firstLetter])
      have nan : text.map Char.toLower ≠ "nan".toList := isNumeral.map_ne (by simp [firstLetter])
      rw [floatOfChars?, takeSign_append isSign isNumeral.isUnsigned]
      simp only [lowerChars, (numeral?_eq_some_iff _ _).mpr isNumeral, Option.map_some]
      rw [if_neg (not_or.mpr ⟨inf, infinity⟩), if_neg nan]

end BoardBench.Decimal
