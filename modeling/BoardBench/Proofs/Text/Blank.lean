import BoardBench.Text.Blank
import Mathlib.Data.List.DropRight

/-!
# Trimming and cutting

Laws of the operations that take blanks off a text and cut it at separators. Blanks around a text
do not show in its trimmed form, and they do not show in the trimmed pieces of a text either, since
a separator is no blank.
-/
namespace BoardBench

variable {α : Type}

/-! ### Dropping at the end -/

theorem dropEndWhile_eq_rdropWhile (drop : α → Bool) (items : List α) :
    dropEndWhile drop items = items.rdropWhile drop := by
  induction items using List.reverseRecOn with
  | nil => rfl
  | append_singleton items last ih =>
    rw [List.rdropWhile_concat, ← ih]
    clear ih
    -- What remains is how the last item fares, by induction from the front.
    induction items with
    | nil => simp [dropEndWhile]
    | cons item rest ih =>
      simp only [List.cons_append, dropEndWhile, ih]
      by_cases dropped : drop last = true
      · simp [dropped]
      · simp [dropped]

theorem dropEndWhile_append_of_all {drop : α → Bool} {items tail : List α}
    (all : ∀ item ∈ tail, drop item = true) :
    dropEndWhile drop (items ++ tail) = dropEndWhile drop items := by
  simp only [dropEndWhile_eq_rdropWhile, List.rdropWhile, List.reverse_append]
  rw [List.dropWhile_append_of_pos]
  simpa using all

theorem dropEndWhile_append_of_kept {drop : α → Bool} {front : List α}
    (kept : ∀ last ∈ front.getLast?, drop last = false) (back : List α) :
    dropEndWhile drop (front ++ back) = front ++ dropEndWhile drop back := by
  induction back using List.reverseRecOn with
  | nil =>
    rw [List.append_nil, dropEndWhile_eq_rdropWhile, List.rdropWhile_eq_self_iff.mpr]
    · simp [dropEndWhile]
    · intro nonempty
      simpa using kept _ (List.getLast?_eq_some_getLast nonempty)
  | append_singleton init last ih =>
    by_cases dropped : drop last = true
    · have gone : ∀ item ∈ [last], drop item = true := by simpa using dropped
      rw [← List.append_assoc, dropEndWhile_append_of_all gone, dropEndWhile_append_of_all gone, ih]
    · rw [← List.append_assoc, dropEndWhile_eq_rdropWhile, List.rdropWhile_concat_neg _ _ _ dropped,
        dropEndWhile_eq_rdropWhile, List.rdropWhile_concat_neg _ _ _ dropped, List.append_assoc]

theorem dropEndWhile_eq_self {drop : α → Bool} {items : List α}
    (kept : ∀ last ∈ items.getLast?, drop last = false) : dropEndWhile drop items = items := by
  simpa [dropEndWhile] using dropEndWhile_append_of_kept kept []

theorem dropEndWhile_getLast? {drop : α → Bool} {items : List α} :
    ∀ last ∈ (dropEndWhile drop items).getLast?, drop last = false := by
  intro last final
  rw [dropEndWhile_eq_rdropWhile] at final
  have nonempty : items.rdropWhile drop ≠ [] := by
    intro empty
    simp [empty] at final
  have kept := List.rdropWhile_last_not drop items nonempty
  rw [List.getLast?_eq_some_getLast nonempty, Option.mem_some_iff] at final
  simpa [final] using kept

/-- What is dropped stood at the end. -/
theorem dropEndWhile_split (drop : α → Bool) (items : List α) :
    ∃ tail, items = dropEndWhile drop items ++ tail ∧ ∀ item ∈ tail, drop item = true := by
  induction items with
  | nil => exact ⟨[], rfl, by simp⟩
  | cons item rest ih =>
    obtain ⟨tail, split, all⟩ := ih
    rw [dropEndWhile]
    split
    next gone =>
      rw [gone, List.nil_append] at split
      by_cases dropped : drop item = true
      · refine ⟨item :: rest, by simp [dropped], ?_⟩
        intro other member
        rcases List.mem_cons.mp member with rfl | member
        · exact dropped
        · exact all other (split ▸ member)
      · exact ⟨tail, by simp [dropped, ← split], all⟩
    next => exact ⟨tail, by rw [List.cons_append, ← split], all⟩

/-! ### Trimming -/

def AllBlank (text : List Char) : Prop :=
  ∀ char ∈ text, isBlank char = true

instance (text : List Char) : Decidable (AllBlank text) :=
  List.decidableBAll (isBlank · = true) text

/-- No blank stands at either end. -/
def IsTrimmed (text : List Char) : Prop :=
  trimChars text = text

instance (text : List Char) : Decidable (IsTrimmed text) :=
  inferInstanceAs (Decidable (trimChars text = text))

theorem trimChars_pad {before text after : List Char} (left : AllBlank before)
    (right : AllBlank after) : trimChars (before ++ text ++ after) = trimChars text := by
  unfold trimChars
  rw [List.append_assoc, List.dropWhile_append_of_pos left, List.dropWhile_append]
  split
  -- The text is all blank, and then so is what follows it.
  next gone =>
    rw [List.isEmpty_iff] at gone
    have blank : after.dropWhile isBlank = [] := List.dropWhile_eq_nil_iff.mpr right
    rw [gone, blank]
  next => rw [dropEndWhile_append_of_all right]

theorem trimChars_blank_append {before : List Char} (left : AllBlank before) (text : List Char) :
    trimChars (before ++ text) = trimChars text := by
  rw [trimChars, List.dropWhile_append_of_pos left, trimChars]

theorem trimChars_append_blank (text : List Char) {after : List Char} (right : AllBlank after) :
    trimChars (text ++ after) = trimChars text :=
  trimChars_pad (by simp [AllBlank] : AllBlank []) right

theorem trimChars_split (text : List Char) :
    ∃ before after, AllBlank before ∧ AllBlank after ∧
      text = before ++ trimChars text ++ after := by
  obtain ⟨after, split, right⟩ := dropEndWhile_split isBlank (text.dropWhile isBlank)
  refine ⟨text.takeWhile isBlank, after, fun _ => List.mem_takeWhile_imp, right, ?_⟩
  rw [List.append_assoc, trimChars, ← split, List.takeWhile_append_dropWhile]

theorem isTrimmed_trimChars (text : List Char) : IsTrimmed (trimChars text) := by
  obtain ⟨before, after, left, right, split⟩ := trimChars_split text
  have same : trimChars (before ++ trimChars text ++ after) = trimChars (trimChars text) :=
    trimChars_pad left right
  rw [← split] at same
  exact same.symm

theorem IsTrimmed.pad {before text after : List Char} (trimmed : IsTrimmed text)
    (left : AllBlank before) (right : AllBlank after) :
    trimChars (before ++ text ++ after) = text := by
  rw [trimChars_pad left right]
  exact trimmed

theorem isTrimmed_iff (text : List Char) :
    IsTrimmed text ↔ (∀ first ∈ text.head?, isBlank first = false) ∧
      ∀ last ∈ text.getLast?, isBlank last = false := by
  constructor
  · intro trimmed
    have same : dropEndWhile isBlank (text.dropWhile isBlank) = text := trimmed
    constructor
    · -- Nothing is dropped in front, or the trimmed text would be shorter.
      obtain ⟨tail, split, -⟩ := dropEndWhile_split isBlank (text.dropWhile isBlank)
      have kept : text.dropWhile isBlank = text := by
        rw [same] at split
        exact (List.dropWhile_suffix isBlank).eq_of_length_le (by simp [split])
      intro first begins
      cases text with
      | nil => cases begins
      | cons char rest =>
        cases begins
        have shown := List.dropWhile_eq_self_iff.mp kept (by simp)
        rwa [List.getElem_cons_zero, Bool.not_eq_true] at shown
    · intro last ends
      rw [← same] at ends
      exact dropEndWhile_getLast? last ends
  · rintro ⟨begins, ends⟩
    have kept : text.dropWhile isBlank = text := by
      cases text with
      | nil => rfl
      | cons char rest =>
        have shown : isBlank char = false := begins char rfl
        simp [shown]
    rw [IsTrimmed, trimChars, kept]
    exact dropEndWhile_eq_self ends

/-! ### Cutting -/

variable {separates : α → Bool}

theorem pieces_append_cons {separator : α} (cut : separates separator = true)
    (before after : List α) :
    pieces separates (before ++ separator :: after) =
      pieces separates before ++ pieces separates after := by
  induction before with
  | nil => simp [pieces, cut]
  | cons item rest ih =>
    simp only [List.cons_append, pieces]
    by_cases here : separates item = true
    · simp [here, ih]
    · simp only [here, Bool.false_eq_true, if_false, ih]
      cases first : pieces separates rest with
      | nil => exact absurd first (pieces_ne_nil _ _)
      | cons piece more => rfl

theorem pieces_eq_singleton {items : List α} (whole : ∀ item ∈ items, separates item = false) :
    pieces separates items = [items] := by
  induction items with
  | nil => rfl
  | cons item rest ih =>
    simp only [List.mem_cons, forall_eq_or_imp] at whole
    simp [pieces, whole.1, ih whole.2]

/-- Without its separators a text is one piece, each separator makes one more. -/
theorem length_pieces (items : List α) :
    (pieces separates items).length = items.countP separates + 1 := by
  induction items with
  | nil => rfl
  | cons item rest ih =>
    rw [pieces]
    by_cases here : separates item = true
    · simp [here, ih]
    · simp only [here, Bool.false_eq_true, if_false, not_false_eq_true, List.countP_cons_of_neg]
      rw [← ih]
      cases first : pieces separates rest with
      | nil => exact absurd first (pieces_ne_nil _ _)
      | cons piece more => rfl

theorem pieces_intercalate {separator : α} (cut : separates separator = true)
    {parts : List (List α)} (some : parts ≠ [])
    (whole : ∀ part ∈ parts, ∀ item ∈ part, separates item = false) :
    pieces separates ([separator].intercalate parts) = parts := by
  induction parts with
  | nil => exact absurd rfl some
  | cons part rest ih =>
    simp only [List.mem_cons, forall_eq_or_imp] at whole
    cases rest with
    | nil => simpa using pieces_eq_singleton whole.1
    | cons next more =>
      rw [List.intercalate_cons_cons, List.append_assoc, List.singleton_append,
        pieces_append_cons cut, pieces_eq_singleton whole.1, ih (by simp) whole.2]
      rfl

/-- Cutting is splitting as the standard library does it. -/
theorem pieces_eq_splitOnP (items : List α) :
    pieces separates items = items.splitOnP separates := by
  induction items with
  | nil => rfl
  | cons item rest ih =>
    rw [pieces, List.splitOnP_cons_eq_if_modifyHead, ← ih]
    split
    next => rfl
    next =>
      cases first : pieces separates rest with
      | nil => exact absurd first (pieces_ne_nil _ _)
      | cons piece more => rfl

theorem pieces_eq_splitOn [BEq α] (separator : α) (items : List α) :
    pieces (· == separator) items = items.splitOn separator := by
  rw [pieces_eq_splitOnP, List.splitOn_eq_splitOnP]

theorem intercalate_pieces [BEq α] [LawfulBEq α] (separator : α) (items : List α) :
    [separator].intercalate (pieces (· == separator) items) = items := by
  rw [pieces_eq_splitOn]
  exact List.intercalate_splitOn separator

theorem mem_of_mem_intercalate {separator item : α} {parts : List (List α)}
    (member : item ∈ [separator].intercalate parts) :
    item = separator ∨ ∃ part ∈ parts, item ∈ part := by
  induction parts with
  | nil => simp at member
  | cons part rest ih =>
    cases rest with
    | nil => exact Or.inr ⟨part, by simp, by simpa using member⟩
    | cons next more =>
      simp only [List.intercalate_cons_cons, List.mem_append, List.mem_singleton] at member
      rcases member with (here | same) | later
      · exact Or.inr ⟨part, by simp, here⟩
      · exact Or.inl same
      · rcases ih later with same | ⟨other, among, inside⟩
        · exact Or.inl same
        · exact Or.inr ⟨other, by simp [among], inside⟩

/-- A text is one piece, or a piece, a separator and a shorter text: what can be shown for these two
can be shown for all texts. -/
theorem cut_induction {motive : List α → Prop} (separates : α → Bool)
    (last : ∀ items, (∀ item ∈ items, separates item = false) → motive items)
    (first : ∀ items separator rest, (∀ item ∈ items, separates item = false) →
      separates separator = true → motive rest → motive (items ++ separator :: rest))
    (text : List α) : motive text := by
  -- The piece under way is carried along: it may still grow by what follows.
  suffices grown : ∀ before : List α, (∀ item ∈ before, separates item = false) →
      motive (before ++ text) from grown [] (by simp)
  induction text with
  | nil =>
    intro before whole
    simpa using last before whole
  | cons item rest ih =>
    intro before whole
    by_cases here : separates item = true
    · exact first before item rest whole here (ih [] (by simp))
    · have longer := ih (before ++ [item]) (by
        intro other member
        rcases List.mem_append.mp member with old | new
        · exact whole other old
        · simpa [List.mem_singleton.mp new] using here)
      simpa using longer

/-- No separator is left in a piece. -/
theorem separates_eq_false_of_mem_pieces {items piece : List α}
    (member : piece ∈ pieces separates items) : ∀ item ∈ piece, separates item = false := by
  induction items using cut_induction separates with
  | last items whole =>
    rw [pieces_eq_singleton whole, List.mem_singleton] at member
    exact member ▸ whole
  | first items separator rest whole cut ih =>
    rw [pieces_append_cons cut, pieces_eq_singleton whole] at member
    rcases List.mem_cons.mp member with rfl | later
    · exact whole
    · exact ih later

/-! ### Words -/

/-- Only a blank text has no words. -/
theorem words_eq_nil_iff (line : String) : words line = [] ↔ AllBlank line.toList := by
  rw [words, List.map_eq_nil_iff, wordsOf]
  induction line.toList using cut_induction isBlank with
  | last items whole =>
    rw [pieces_eq_singleton whole, List.filter_eq_nil_iff, List.forall_mem_singleton]
    cases items with
    | nil => simp [AllBlank]
    | cons char rest => simp [AllBlank, whole char List.mem_cons_self]
  | first items separator rest whole cut ih =>
    rw [pieces_append_cons cut, pieces_eq_singleton whole, List.cons_append, List.nil_append]
    cases items with
    | nil => simpa [AllBlank, cut] using ih
    | cons char others => simp [AllBlank, whole char List.mem_cons_self]

/-- The words of a text: runs of characters that are no blanks, with blanks between them. -/
inductive AreWords : List Char → List (List Char) → Prop
  | blank {text : List Char} : AllBlank text → AreWords text []
  | word {before word rest : List Char} {words : List (List Char)} : AllBlank before →
    word ≠ [] → (∀ char ∈ word, isBlank char = false) →
    (∀ first ∈ rest.head?, isBlank first = true) → AreWords rest words →
    AreWords (before ++ word ++ rest) (word :: words)

theorem wordsOf_blank_append {before : List Char} (blank : AllBlank before) (text : List Char) :
    wordsOf (before ++ text) = wordsOf text := by
  induction before with
  | nil => rfl
  | cons char rest ih =>
    have both := List.forall_mem_cons.mp blank
    rw [List.cons_append, wordsOf, pieces, if_pos both.1, List.filter_cons_of_neg (by simp)]
    exact ih both.2

theorem wordsOf_word_append {word rest : List Char} (some : word ≠ [])
    (whole : ∀ char ∈ word, isBlank char = false)
    (cut : ∀ first ∈ rest.head?, isBlank first = true) :
    wordsOf (word ++ rest) = word :: wordsOf rest := by
  have filled : (!word.isEmpty) = true := by simpa using some
  cases rest with
  | nil => simp [wordsOf, pieces_eq_singleton whole, pieces, filled]
  | cons blank rest =>
    have separates : isBlank blank = true := cut blank rfl
    have singleton : AllBlank [blank] := List.forall_mem_singleton.mpr separates
    rw [show blank :: rest = [blank] ++ rest from rfl, wordsOf_blank_append singleton, wordsOf,
      List.singleton_append, pieces_append_cons separates, pieces_eq_singleton whole,
      List.singleton_append, List.filter_cons, if_pos filled, wordsOf]

theorem AreWords.blank_append {before text : List Char} {words : List (List Char)}
    (blank : AllBlank before) (areWords : AreWords text words) :
    AreWords (before ++ text) words := by
  cases areWords with
  | blank all => exact .blank (List.forall_mem_append.mpr ⟨blank, all⟩)
  | word first some whole cut rest =>
    rw [← List.append_assoc, ← List.append_assoc]
    exact .word (List.forall_mem_append.mpr ⟨blank, first⟩) some whole cut rest

/-- Each text has its words and no others. -/
theorem areWords_iff (text : List Char) (words : List (List Char)) :
    AreWords text words ↔ wordsOf text = words := by
  constructor
  · intro areWords
    induction areWords with
    | @blank text all =>
      rw [← List.append_nil text, wordsOf_blank_append all]
      rfl
    | word first some whole cut _ ih =>
      rw [List.append_assoc, wordsOf_blank_append first, wordsOf_word_append some whole cut, ih]
  · rintro rfl
    induction text using cut_induction isBlank with
    | last items whole =>
      by_cases empty : items = []
      · subst empty
        exact .blank (List.forall_mem_nil _)
      · have ends : ∀ first ∈ ([] : List Char).head?, isBlank first = true := by simp
        have only := wordsOf_word_append empty whole ends
        rw [List.append_nil] at only
        have areWords := AreWords.word (List.forall_mem_nil _) empty whole ends
          (.blank (List.forall_mem_nil _))
        rw [List.nil_append, List.append_nil] at areWords
        exact only ▸ areWords
    | first items separator rest whole cut ih =>
      have blank : AllBlank [separator] := List.forall_mem_singleton.mpr cut
      have later : AreWords (separator :: rest) (wordsOf (separator :: rest)) := by
        rw [show separator :: rest = [separator] ++ rest from rfl, wordsOf_blank_append blank]
        exact ih.blank_append blank
      by_cases empty : items = []
      · subst empty
        exact later
      · have starts : ∀ first ∈ (separator :: rest).head?, isBlank first = true := by
          simpa using cut
        rw [wordsOf_word_append empty whole starts]
        exact .word (List.forall_mem_nil _) empty whole starts later

/-! ### Trimmed pieces -/

section TrimmedPieces

variable {separates : Char → Bool} (visible : ∀ char, isBlank char = true → separates char = false)
include visible

private theorem trimmed_pieces_before {before : List Char} (blank : AllBlank before)
    (text : List Char) :
    (pieces separates (before ++ text)).map trimChars = (pieces separates text).map trimChars := by
  induction before with
  | nil => rfl
  | cons char rest ih =>
    simp only [AllBlank, List.mem_cons, forall_eq_or_imp] at blank
    rw [← ih blank.2, List.cons_append, pieces]
    simp only [visible char blank.1, Bool.false_eq_true, if_false]
    cases first : pieces separates (rest ++ text) with
    | nil => exact absurd first (pieces_ne_nil _ _)
    | cons piece more =>
      have same : trimChars (char :: piece) = trimChars piece :=
        trimChars_blank_append (by simpa [AllBlank] using blank.1 : AllBlank [char]) piece
      simp [same]

private theorem ends_pieces_after (text : List Char) {after : List Char}
    (blank : AllBlank after) :
    (pieces separates (text ++ after)).map (dropEndWhile isBlank) =
      (pieces separates text).map (dropEndWhile isBlank) := by
  induction text with
  | nil =>
    have gone : dropEndWhile isBlank ([] ++ after) = dropEndWhile isBlank [] :=
      dropEndWhile_append_of_all blank
    rw [List.nil_append, pieces_eq_singleton fun char member => visible char (blank char member)]
    rw [List.nil_append] at gone
    simp [pieces, gone]
  | cons char rest ih =>
    rw [List.cons_append, pieces, pieces]
    by_cases here : separates char = true
    · simp [here, ih]
    · simp only [here, Bool.false_eq_true, if_false]
      cases long : pieces separates (rest ++ after) with
      | nil => exact absurd long (pieces_ne_nil _ _)
      | cons piece more =>
        cases short : pieces separates rest with
        | nil => exact absurd short (pieces_ne_nil _ _)
        | cons other others =>
          simp only [long, short, List.map_cons, List.cons.injEq] at ih
          simp [dropEndWhile, ih.1, ih.2]

omit visible in
private theorem trimChars_dropEndWhile (text : List Char) :
    trimChars (dropEndWhile isBlank text) = trimChars text := by
  obtain ⟨after, split, blank⟩ := dropEndWhile_split isBlank text
  have same := trimChars_append_blank (dropEndWhile isBlank text) blank
  rw [← split] at same
  exact same.symm

/-- Blanks around a text do not show in its trimmed pieces. -/
theorem trimmed_pieces_pad {before after : List Char} (left : AllBlank before)
    (right : AllBlank after) (text : List Char) :
    (pieces separates (before ++ text ++ after)).map trimChars =
      (pieces separates text).map trimChars := by
  have ends := congrArg (List.map trimChars) (ends_pieces_after visible text right)
  simp only [List.map_map, Function.comp_def, trimChars_dropEndWhile] at ends
  rw [List.append_assoc, trimmed_pieces_before visible left, ends]

theorem trimmed_pieces_trimChars (text : List Char) :
    (pieces separates (trimChars text)).map trimChars = (pieces separates text).map trimChars := by
  obtain ⟨before, after, left, right, split⟩ := trimChars_split text
  have same := trimmed_pieces_pad visible left right (trimChars text)
  rw [← split] at same
  exact same.symm

end TrimmedPieces

end BoardBench
