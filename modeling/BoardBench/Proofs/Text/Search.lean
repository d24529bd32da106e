import BoardBench.Text.Search
import BoardBench.Proofs.Text.Blank

/-!
# Finding a word in a longer text

A word that begins and ends with something visible is found in a text exactly when it is found there
with blanks around it. A word without separators is found in a text exactly when it is found in one
of its pieces.
-/
namespace BoardBench

/-- Not empty, and no blank at either end. -/
structure IsVisible (word : List Char) : Prop where
  first : ∃ char rest, word = char :: rest ∧ isBlank char = false
  last : ∃ rest char, word = rest ++ [char] ∧ isBlank char = false

theorem occursIn_append_left {part text : List Char} (before : List Char)
    (found : occursIn part text = true) : occursIn part (before ++ text) = true := by
  obtain ⟨left, right, split⟩ := (occursIn_iff part text).mp found
  exact (occursIn_iff part _).mpr ⟨before ++ left, right, by simp [split]⟩

theorem occursIn_append_right {part text : List Char} (found : occursIn part text = true)
    (after : List Char) : occursIn part (text ++ after) = true := by
  obtain ⟨left, right, split⟩ := (occursIn_iff part text).mp found
  exact (occursIn_iff part _).mpr ⟨left, right ++ after, by simp [split]⟩

private theorem occursIn_blank_append {word before text : List Char} (visible : IsVisible word)
    (blank : AllBlank before) (found : occursIn word (before ++ text) = true) :
    occursIn word text = true := by
  obtain ⟨char, tail, begins, shown⟩ := visible.first
  induction before with
  | nil => exact found
  | cons other rest ih =>
    simp only [AllBlank, List.mem_cons, forall_eq_or_imp] at blank
    rw [List.cons_append, occursIn, Bool.or_eq_true] at found
    rcases found with here | later
    · have same : char = other := by simp_all
      rw [same, blank.1] at shown
      cases shown
    · exact ih blank.2 later

private theorem occursIn_append_blank {word text after : List Char} (visible : IsVisible word)
    (blank : AllBlank after) (found : occursIn word (text ++ after) = true) :
    occursIn word text = true := by
  obtain ⟨rest, char, ends, shown⟩ := visible.last
  obtain ⟨left, right, split⟩ := (occursIn_iff word _).mp found
  rcases List.append_eq_append_iff.mp split with ⟨excess, longer, covers⟩ | ⟨excess, longer, _⟩
  · -- The word would have to end among the blanks.
    cases excess using List.reverseRecOn with
    | nil => exact (occursIn_iff word text).mpr ⟨left, [], by simpa using longer.symm⟩
    | append_singleton init last =>
      have same : last = char := by
        rw [ends, ← List.append_assoc, ← List.append_assoc] at longer
        exact ((List.append_inj' longer rfl).2 ▸ rfl : [char] = [last]) |> List.cons.inj |>.1.symm
      have white := blank last (by simp [covers])
      rw [same, shown] at white
      cases white
  · exact (occursIn_iff word text).mpr ⟨left, excess, longer⟩

theorem occursIn_pad_iff {word before text after : List Char} (visible : IsVisible word)
    (left : AllBlank before) (right : AllBlank after) :
    occursIn word (before ++ text ++ after) = true ↔ occursIn word text = true := by
  constructor
  · intro found
    exact occursIn_blank_append visible left (occursIn_append_blank visible right found)
  · intro found
    exact occursIn_append_right (occursIn_append_left before found) after

theorem occursIn_cut_iff {word : List Char} {separator : Char} (outside : separator ∉ word)
    (before after : List Char) :
    occursIn word (before ++ separator :: after) = true ↔
      occursIn word before = true ∨ occursIn word after = true := by
  constructor
  · intro found
    obtain ⟨left, right, split⟩ := (occursIn_iff word _).mp found
    rcases List.append_eq_append_iff.mp split with ⟨excess, longer, covers⟩ | ⟨excess, shorter, _⟩
    -- The word reaches up to the separator at most, or it begins behind it.
    · cases excess with
      | nil =>
        exact Or.inl ((occursIn_iff word before).mpr ⟨left, [], by simpa using longer.symm⟩)
      | cons char more =>
        simp only [List.cons_append, List.cons.injEq] at covers
        obtain ⟨rfl, covers⟩ := covers
        rcases List.append_eq_append_iff.mp longer with ⟨inner, _, holds⟩ | ⟨inner, _, holds⟩
        · exact absurd (by simp [holds] : separator ∈ word) outside
        · cases inner with
          | nil =>
            have whole : word = separator :: more := by simpa using holds.symm
            exact absurd (by simp [whole]) outside
          | cons head tail =>
            simp only [List.cons_append, List.cons.injEq] at holds
            exact Or.inr ((occursIn_iff word after).mpr
              ⟨tail, right, by rw [covers, holds.2]⟩)
    · exact Or.inl ((occursIn_iff word before).mpr ⟨left, excess, shorter⟩)
  · rintro (found | found)
    · exact occursIn_append_right found _
    · rw [← List.singleton_append, ← List.append_assoc]
      exact occursIn_append_left _ found

theorem occursIn_intercalate_iff {word : List Char} {separator : Char} (outside : separator ∉ word)
    {parts : List (List Char)} (some : parts ≠ []) :
    occursIn word ([separator].intercalate parts) = true ↔
      ∃ part ∈ parts, occursIn word part = true := by
  induction parts with
  | nil => exact absurd rfl some
  | cons part rest ih =>
    cases rest with
    | nil => simp
    | cons next more =>
      rw [List.intercalate_cons_cons, List.append_assoc, List.singleton_append,
        occursIn_cut_iff outside, ih (by simp)]
      simp

/-! ### Letter case -/

theorem toLower_of_isBlank {char : Char} (blank : isBlank char = true) : char.toLower = char := by
  -- No blank lies between A and Z.
  unfold Char.toLower
  rw [dif_neg]
  rintro ⟨low, high⟩
  have least : 65 ≤ char.toNat := UInt32.le_iff_toNat_le.mp low
  have greatest : char.toNat ≤ 90 := UInt32.le_iff_toNat_le.mp high
  simp only [isBlank, Bool.or_eq_true, Bool.and_eq_true, decide_eq_true_eq, beq_iff_eq] at blank
  omega

section Change

/-! A search may look at changed characters, such as letters in lower case, as long as blanks stay
what they are. -/

variable {change : Char → Char} (keeps : ∀ char, isBlank char = true → change char = char)
include keeps

theorem map_of_allBlank {text : List Char} (blank : AllBlank text) : text.map change = text := by
  conv_rhs => rw [← List.map_id text]
  exact List.map_congr_left fun char member => keeps char (blank char member)

theorem occursIn_map_pad_iff {word before text after : List Char} (visible : IsVisible word)
    (left : AllBlank before) (right : AllBlank after) :
    occursIn word ((before ++ text ++ after).map change) = true ↔
      occursIn word (text.map change) = true := by
  rw [List.map_append, List.map_append, map_of_allBlank keeps left, map_of_allBlank keeps right]
  exact occursIn_pad_iff visible left right

theorem occursIn_map_trimChars_iff {word : List Char} (visible : IsVisible word)
    (text : List Char) :
    occursIn word ((trimChars text).map change) = true ↔
      occursIn word (text.map change) = true := by
  obtain ⟨before, after, left, right, split⟩ := trimChars_split text
  conv_rhs => rw [split]
  exact (occursIn_map_pad_iff keeps visible left right).symm

end Change

theorem map_intercalate (change : Char → Char) (separator : Char) (parts : List (List Char)) :
    ([separator].intercalate parts).map change =
      [change separator].intercalate (parts.map (List.map change)) := by
  induction parts with
  | nil => rfl
  | cons part rest ih =>
    cases rest with
    | nil => simp
    | cons next more =>
      rw [List.map_cons, List.map_cons, List.intercalate_cons_cons, List.intercalate_cons_cons,
        List.map_append, List.map_append, ih]
      rfl

end BoardBench
