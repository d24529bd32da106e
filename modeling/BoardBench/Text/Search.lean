/-!
# Searching and comparing texts

Substring search, equality up to ASCII case, and the code-point order of texts.
-/
namespace BoardBench

/-- `part` occurs somewhere in `text` as a run of neighbours. -/
def occursIn (part : List Char) : List Char → Bool
  | [] => part.isEmpty
  | char :: rest => part.isPrefixOf (char :: rest) || occursIn part rest

theorem occursIn_iff (part text : List Char) :
    occursIn part text = true ↔ ∃ before after, text = before ++ part ++ after := by
  induction text with
  | nil =>
    simp only [occursIn, List.isEmpty_iff]
    constructor
    · rintro rfl
      exact ⟨[], [], rfl⟩
    · rintro ⟨before, after, split⟩
      simp at split
      exact split.2.1
  | cons char rest ih =>
    simp only [occursIn, Bool.or_eq_true, List.isPrefixOf_iff_prefix, ih]
    constructor
    · rintro (⟨after, split⟩ | ⟨before, after, split⟩)
      · exact ⟨[], after, by simpa using split.symm⟩
      · exact ⟨char :: before, after, by simp [split]⟩
    · rintro ⟨before, after, split⟩
      cases before with
      | nil => exact Or.inl ⟨after, by simpa using split.symm⟩
      | cons first more =>
        simp only [List.cons_append, List.cons.injEq] at split
        exact Or.inr ⟨more, after, split.2⟩

def contains (text part : String) : Bool :=
  occursIn part.toList text.toList

/-- ASCII letters in lower case, every other character as it is. -/
def lowerChars (text : List Char) : List Char :=
  text.map Char.toLower

def lower (text : String) : String :=
  String.ofList (lowerChars text.toList)

/-- Equality up to the case of ASCII letters. -/
def sameIgnoringCase (left right : String) : Bool :=
  lowerChars left.toList == lowerChars right.toList

/-- Strict order of texts by code point. -/
def textBefore (left right : String) : Bool :=
  decide (left < right)

end BoardBench
