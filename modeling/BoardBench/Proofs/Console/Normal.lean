import BoardBench.Console.Normal
import BoardBench.Proofs.Text.Blank

/-!
# Decorated lines

A terminal puts a timestamp in front of a line, a device a `#`; either, both or none of them may be
there, and blanks may stand around the text. Normalizing takes the decoration off and leaves the
trimmed text. Without a `#` this needs a text that cannot be taken for a decoration itself.
-/
namespace BoardBench.Console

/-! ### The timestamp pattern -/

theorem afterSlots?_append {slots : List Slot} {stamp : List Char}
    (matched : afterSlots? slots stamp = some []) (rest : List Char) :
    afterSlots? slots (stamp ++ rest) = some rest := by
  induction slots generalizing stamp with
  | nil =>
    simp only [afterSlots?, Option.some.injEq] at matched
    rw [matched, List.nil_append, afterSlots?]
  | cons slot slots ih =>
    cases stamp with
    | nil => simp [afterSlots?] at matched
    | cons char more =>
      rw [afterSlots?] at matched
      rw [List.cons_append, afterSlots?]
      split at matched
      next admitted => rw [if_pos admitted, ih matched]
      next => cases matched

theorem afterSlots?_extend {slots : List Slot} {text left : List Char}
    (matched : afterSlots? slots text = some left) (rest : List Char) :
    afterSlots? slots (text ++ rest) = some (left ++ rest) := by
  induction slots generalizing text with
  | nil =>
    simp only [afterSlots?, Option.some.injEq] at matched
    rw [matched, afterSlots?]
  | cons slot slots ih =>
    cases text with
    | nil => simp [afterSlots?] at matched
    | cons char more =>
      rw [afterSlots?] at matched
      rw [List.cons_append, afterSlots?]
      split at matched
      next admitted => rw [if_pos admitted, ih matched]
      next => cases matched

/-- A pattern that matches a longer text matches its beginning, or some of the pattern is left over
for the rest. -/
theorem afterSlots?_append_cases {slots : List Slot} {text rest left : List Char}
    (matched : afterSlots? slots (text ++ rest) = some left) :
    (∃ remains, afterSlots? slots text = some remains) ∨
      ∃ taken slot more, slots = taken ++ slot :: more ∧
        afterSlots? (slot :: more) rest = some left := by
  induction slots generalizing text with
  | nil => exact Or.inl ⟨text, rfl⟩
  | cons slot slots ih =>
    cases text with
    | nil => exact Or.inr ⟨[], slot, slots, rfl, matched⟩
    | cons char more =>
      rw [List.cons_append, afterSlots?] at matched
      split at matched
      next admitted =>
        rcases ih matched with ⟨remains, whole⟩ | ⟨taken, next, others, split, excess⟩
        · exact Or.inl ⟨remains, by rw [afterSlots?, if_pos admitted, whole]⟩
        · exact Or.inr ⟨slot :: taken, next, others, by rw [split, List.cons_append], excess⟩
      next => cases matched

theorem afterSlots?_init {slots : List Slot} {slot : Slot} {text left : List Char}
    (matched : afterSlots? (slots ++ [slot]) text = some left) :
    ∃ char, slot.admits char = true ∧ afterSlots? slots text = some (char :: left) := by
  induction slots generalizing text with
  | nil =>
    cases text with
    | nil => simp [afterSlots?] at matched
    | cons char more =>
      rw [List.nil_append, afterSlots?] at matched
      split at matched
      next admitted =>
        simp only [afterSlots?, Option.some.injEq] at matched
        exact ⟨char, admitted, by rw [afterSlots?, matched]⟩
      next => cases matched
  | cons first slots ih =>
    cases text with
    | nil => simp [afterSlots?] at matched
    | cons char more =>
      rw [List.cons_append, afterSlots?] at matched
      split at matched
      next admitted =>
        obtain ⟨final, admits, init⟩ := ih matched
        exact ⟨final, admits, by rw [afterSlots?, if_pos admitted, init]⟩
      next => cases matched

/-- The timestamp pattern up to its `#`. -/
def stampHead : List Slot :=
  timestamp.dropLast

theorem timestamp_eq : timestamp = stampHead ++ [.exact ' '] := by
  rfl

theorem stampHead_eq : ∃ init, stampHead = init ++ [.exact '#'] :=
  ⟨stampHead.dropLast, rfl⟩

theorem afterSlots?_suffix {slots : List Slot} {text left : List Char}
    (matched : afterSlots? slots text = some left) : left <:+ text := by
  induction slots generalizing text with
  | nil =>
    simp only [afterSlots?, Option.some.injEq] at matched
    exact matched ▸ List.suffix_rfl
  | cons slot slots ih =>
    cases text with
    | nil => simp [afterSlots?] at matched
    | cons char more =>
      rw [afterSlots?] at matched
      split at matched
      next => exact (ih matched).trans (List.suffix_cons char more)
      next => cases matched

theorem admits_of_mem {slots : List Slot} {stamp : List Char}
    (matched : afterSlots? slots stamp = some []) {char : Char} (member : char ∈ stamp) :
    ∃ slot ∈ slots, slot.admits char = true := by
  induction slots generalizing stamp with
  | nil =>
    simp only [afterSlots?, Option.some.injEq] at matched
    simp [matched] at member
  | cons slot slots ih =>
    cases stamp with
    | nil => simp at member
    | cons first more =>
      rw [afterSlots?] at matched
      split at matched
      next admitted =>
        rcases List.mem_cons.mp member with rfl | later
        · exact ⟨slot, by simp, admitted⟩
        · obtain ⟨other, among, admits⟩ := ih matched later
          exact ⟨other, by simp [among], admits⟩
      next => cases matched

/-- A timestamp ends in a blank that is no line end. -/
theorem stamp_last {stamp : List Char} (matched : afterSlots? timestamp stamp = some []) :
    stamp.getLast? = some ' ' := by
  rw [timestamp_eq] at matched
  obtain ⟨char, admitted, init⟩ := afterSlots?_init matched
  obtain ⟨before, split⟩ := afterSlots?_suffix init
  have blank : char = ' ' := by simpa [Slot.admits] using admitted
  rw [← split, blank, List.getLast?_concat]

/-- Each run of digits lies between two neighbouring groups of blanks. -/
theorem not_isDecimal_of_isBlank {char : Char} (blank : isBlank char = true) :
    isDecimal char = false := by
  -- Checked run by run.
  have apart : ∀ start ∈ decimalRuns, 13 < start ∧ start + 10 ≤ 0x85 ∧ 0x20 < start ∨
      0xA0 < start ∧ start + 10 ≤ 0x1680 ∨ 0x1680 < start ∧ start + 10 ≤ 0x2000 ∨
      0x205F < start ∧ start + 10 ≤ 0x3000 ∨ 0x3000 < start := by
    decide
  simp only [isBlank, Bool.or_eq_true, Bool.and_eq_true, decide_eq_true_eq, beq_iff_eq] at blank
  rw [isDecimal, List.any_eq_false]
  intro start member
  simp only [Bool.and_eq_true, decide_eq_true_eq]
  rintro ⟨low, high⟩
  have gap := apart start member
  omega

/-! ### Texts that are no decoration -/

/-- A text that begins neither with `#` nor with a timestamp up to its `#`. -/
structure IsPlain (text : List Char) : Prop where
  unhashed : text.head? ≠ some '#'
  unstamped : afterSlots? stampHead text = none

instance (text : List Char) : Decidable (IsPlain text) :=
  decidable_of_iff (text.head? ≠ some '#' ∧ afterSlots? stampHead text = none)
    ⟨fun both => ⟨both.1, both.2⟩, fun plain => ⟨plain.unhashed, plain.unstamped⟩⟩

/-- A text from which nothing is taken off before it is trimmed. -/
structure IsBare (text : List Char) : Prop where
  unhashed : text.head? ≠ some '#'
  unstamped : afterSlots? timestamp text = none

theorem IsPlain.isBare {text : List Char} (plain : IsPlain text) : IsBare text where
  unhashed := plain.unhashed
  unstamped := by
    cases matched : afterSlots? timestamp text with
    | none => rfl
    | some left =>
      rw [timestamp_eq] at matched
      obtain ⟨char, -, init⟩ := afterSlots?_init matched
      rw [plain.unstamped] at init
      cases init

theorem IsBare.of_append {text rest : List Char} (bare : IsBare (text ++ rest)) : IsBare text where
  unhashed := by
    have unhashed := bare.unhashed
    cases text with
    | nil => simp
    | cons char more => simpa using unhashed
  unstamped := by
    cases matched : afterSlots? timestamp text with
    | none => rfl
    | some left =>
      have longer := afterSlots?_extend matched rest
      rw [bare.unstamped] at longer
      cases longer

/-- Blanks in front leave no place for a decoration. -/
theorem IsBare.blank_append {before text : List Char} (blank : AllBlank before)
    (bare : IsBare text) : IsBare (before ++ text) := by
  cases before with
  | nil => exact bare
  | cons char more =>
    have white : isBlank char = true := blank char (by simp)
    constructor
    · rw [List.cons_append, List.head?_cons]
      rintro ⟨⟩
      exact absurd white (by decide)
    · have refused : Slot.digit.admits char = false := not_isDecimal_of_isBlank white
      obtain ⟨more, first⟩ : ∃ more, timestamp = .digit :: more := ⟨_, rfl⟩
      rw [first, List.cons_append, afterSlots?, refused]
      rfl

/-- A timestamp cannot reach over blanks: it would have its `#` among them. -/
theorem IsPlain.append_blank {text after : List Char} (plain : IsPlain text)
    (blank : AllBlank after) : IsPlain (text ++ after) where
  unhashed := by
    cases text with
    | nil =>
      intro hash
      exact absurd (blank '#' (List.mem_of_mem_head? hash)) (by decide)
    | cons char more => exact plain.unhashed
  unstamped := by
    cases matched : afterSlots? stampHead (text ++ after) with
    | none => rfl
    | some left =>
      rcases afterSlots?_append_cases matched with
        ⟨remains, whole⟩ | ⟨taken, slot, more, split, excess⟩
      · rw [plain.unstamped] at whole
        cases whole
      -- What is left of the pattern for the blanks still ends in its hash.
      · obtain ⟨init, head⟩ := stampHead_eq
        obtain ⟨front, ends⟩ : ∃ front, slot :: more = front ++ [.exact '#'] := by
          have lasts := congrArg List.getLast? (head.symm.trans split)
          rw [List.getLast?_concat, List.getLast?_append_cons] at lasts
          exact List.getLast?_eq_some_iff.mp lasts.symm
        rw [ends] at excess
        obtain ⟨char, admitted, reached⟩ := afterSlots?_init excess
        have hash : char = '#' := by simpa [Slot.admits] using admitted
        have among : char ∈ after := (afterSlots?_suffix reached).subset (by simp)
        exact absurd (blank char among) (by rw [hash]; decide)

/-- Nor can it reach over a character that has no place in it. -/
theorem IsPlain.append_stop {text : List Char} (plain : IsPlain text) {stop : Char}
    (foreign : ∀ slot ∈ stampHead, slot.admits stop = false) (unhashed : stop ≠ '#')
    (rest : List Char) : IsPlain (text ++ stop :: rest) where
  unhashed := by
    cases text with
    | nil => simpa using unhashed
    | cons char more => exact plain.unhashed
  unstamped := by
    cases matched : afterSlots? stampHead (text ++ stop :: rest) with
    | none => rfl
    | some left =>
      rcases afterSlots?_append_cases matched with
        ⟨remains, whole⟩ | ⟨taken, slot, more, split, excess⟩
      · rw [plain.unstamped] at whole
        cases whole
      · rw [afterSlots?, foreign slot (by simp [split])] at excess
        cases excess

/-! ### Taking a decoration off -/

/-- What may stand in front of a line: a timestamp, a `#`, both or nothing. -/
structure Decoration where
  stamp : List Char := []
  hash : Bool := false
  isStamp : stamp = [] ∨ afterSlots? timestamp stamp = some []

namespace Decoration

def text (decoration : Decoration) : List Char :=
  decoration.stamp ++ if decoration.hash then ['#'] else []

theorem lineFeed_not_mem_text (decoration : Decoration) : '\n' ∉ decoration.text := by
  unfold text
  rw [List.mem_append, not_or]
  constructor
  · intro member
    rcases decoration.isStamp with empty | matched
    · simp [empty] at member
    · obtain ⟨slot, among, admitted⟩ := admits_of_mem matched member
      have foreign : ∀ slot ∈ timestamp, slot.admits '\n' = false := by decide
      rw [foreign slot among] at admitted
      cases admitted
  · split <;> simp

theorem last_text (decoration : Decoration) :
    ∀ last ∈ decoration.text.getLast?, isLineEnd last = false := by
  intro last final
  unfold text at final
  split at final
  next =>
    rw [List.getLast?_concat, Option.mem_some_iff] at final
    rw [← final]
    decide
  next =>
    rw [List.append_nil] at final
    rcases decoration.isStamp with empty | matched
    · simp [empty] at final
    · rw [stamp_last matched, Option.mem_some_iff] at final
      rw [← final]
      decide

theorem dropHash_dropTimestamp (decoration : Decoration) {body : List Char}
    (bare : decoration.hash = false → IsBare body) :
    dropHash (dropTimestamp (decoration.text ++ body)) = body := by
  -- The stamp goes first; without one the text must not look like one.
  have stampless : ∀ rest, (decoration.stamp = [] → afterSlots? timestamp rest = none) →
      dropTimestamp (decoration.stamp ++ rest) = rest := by
    intro rest unstamped
    rcases decoration.isStamp with empty | matched
    · rw [empty, List.nil_append, dropTimestamp, unstamped empty]
      rfl
    · rw [dropTimestamp, afterSlots?_append matched]
      rfl
  unfold text
  split
  next =>
    rw [List.append_assoc, stampless _ fun _ => rfl]
    rfl
  next hashless =>
    have body_bare := bare (by simpa using hashless)
    rw [List.append_nil, stampless _ fun _ => body_bare.unstamped, dropHash]
    intro rest same
    exact body_bare.unhashed (by rw [same]; rfl)

end Decoration

theorem isBlank_of_isLineEnd {char : Char} (ends : isLineEnd char = true) :
    isBlank char = true := by
  simp only [isLineEnd, Bool.or_eq_true, beq_iff_eq] at ends
  rcases ends with rfl | rfl <;> decide

/-- Normalizing a decorated line leaves its body, trimmed. -/
theorem normalChars_decorated (decoration : Decoration) {body : List Char}
    (bare : decoration.hash = false → IsBare body) :
    normalChars (decoration.text ++ body) = trimChars body := by
  -- The line end is dropped before the decoration and would be trimmed off afterwards anyway.
  obtain ⟨tail, split, all⟩ := dropEndWhile_split isLineEnd body
  have kept_bare : decoration.hash = false → IsBare (dropEndWhile isLineEnd body) := by
    intro hashless
    exact IsBare.of_append (split ▸ bare hashless)
  have blank : AllBlank tail := fun char member => isBlank_of_isLineEnd (all char member)
  have same := trimChars_append_blank (dropEndWhile isLineEnd body) blank
  rw [← split] at same
  rw [normalChars, dropEndWhile_append_of_kept decoration.last_text,
    decoration.dropHash_dropTimestamp kept_bare, same]

end BoardBench.Console
