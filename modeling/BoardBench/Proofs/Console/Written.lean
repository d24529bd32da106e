import BoardBench.Proofs.Console.Line
import BoardBench.Proofs.Console.Normal
import BoardBench.Proofs.Console.Window
import BoardBench.Proofs.Telemetry.Table
import BoardBench.Proofs.Text.Search
import Mathlib.Data.List.Forall2

/-!
# Written table lines

A line of a table is written as its cells with delimiters between them. On its way it may get blanks
around its cells, a decoration in front and a carriage return behind. Normalizing leaves a line with
the same cells, in which the same words are found.
-/
namespace BoardBench.Console

open Telemetry (Row delimiter fieldsOf isHeader)

/-- What normalizing leaves of the bytes of a line. -/
def normalLine (line : Bytes) : String :=
  normalize (lineText line)

theorem normalLine_eq (line : Bytes) :
    normalLine line = String.ofList (normalChars (lossyChars line)) := by
  -- The carriage returns that reading drops are line ends to normalizing as well.
  obtain ⟨tail, split, all⟩ := dropEndWhile_split (· == '\r') (lossyChars line)
  have ends : ∀ char ∈ tail, isLineEnd char = true := by
    intro char member
    simp [isLineEnd, all char member]
  have same : dropEndWhile isLineEnd (dropEndWhile (· == '\r') (lossyChars line) ++ tail) =
      dropEndWhile isLineEnd (dropEndWhile (· == '\r') (lossyChars line)) :=
    dropEndWhile_append_of_all ends
  rw [← split] at same
  rw [normalLine, normalize, toList_lineText, normalChars, normalChars, same]

/-! ### Cells and their lines -/

/-- A cell that can be told from its line: trimmed, without delimiter and line feed. -/
structure IsCell (cell : String) : Prop where
  trimmed : IsTrimmed cell.toList
  undelimited : delimiter ∉ cell.toList
  unbroken : '\n' ∉ cell.toList

instance (cell : String) : Decidable (IsCell cell) :=
  decidable_of_iff (IsTrimmed cell.toList ∧ delimiter ∉ cell.toList ∧ '\n' ∉ cell.toList)
    ⟨fun all => ⟨all.1, all.2.1, all.2.2⟩, fun all => ⟨all.trimmed, all.undelimited, all.unbroken⟩⟩

def tableLine (cells : List String) : String :=
  join ";" cells

/-- A line of cells that is taken for nothing else: it holds no marker and does not begin like a
decoration. -/
structure IsTableLine (cells : List String) : Prop where
  areCells : ∀ cell ∈ cells, IsCell cell
  unopened : contains (tableLine cells) beginMarker = false
  unended : contains (tableLine cells) endMarker = false
  plain : ∀ first ∈ cells.head?, IsPlain first.toList

instance (cells : List String) : Decidable (IsTableLine cells) :=
  decidable_of_iff ((∀ cell ∈ cells, IsCell cell) ∧ contains (tableLine cells) beginMarker = false ∧
      contains (tableLine cells) endMarker = false ∧ ∀ first ∈ cells.head?, IsPlain first.toList)
    ⟨fun all => ⟨all.1, all.2.1, all.2.2.1, all.2.2.2⟩,
      fun all => ⟨all.areCells, all.unopened, all.unended, all.plain⟩⟩

/-- The cell with blanks around it, none of them a line feed. -/
def IsPadded (cell : String) (text : List Char) : Prop :=
  ∃ before after, AllBlank before ∧ AllBlank after ∧ '\n' ∉ before ∧ '\n' ∉ after ∧
    text = before ++ cell.toList ++ after

/-- The bytes of a line of cells: padded cells after a decoration, and before the line feed perhaps
a carriage return. -/
def IsWritten (cells : List String) (line : Bytes) : Prop :=
  ∃ (decoration : Decoration) (texts : List (List Char)) (turn : List Char),
    List.Forall₂ IsPadded cells texts ∧ (turn = [] ∨ turn = ['\r']) ∧
      line = encode (String.ofList (decoration.text ++ ([delimiter].intercalate texts ++ turn)))

theorem delimiter_not_blank (char : Char) (blank : isBlank char = true) :
    (char == delimiter) = false := by
  rw [beq_eq_false_iff_ne]
  rintro rfl
  exact absurd blank (by decide)

theorem IsPadded.trimChars_eq {cell : String} {text : List Char} (padded : IsPadded cell text)
    (isCell : IsCell cell) : trimChars text = cell.toList := by
  obtain ⟨before, after, left, right, -, -, rfl⟩ := padded
  exact isCell.trimmed.pad left right

theorem IsPadded.undelimited {cell : String} {text : List Char} (padded : IsPadded cell text)
    (isCell : IsCell cell) : ∀ char ∈ text, (char == delimiter) = false := by
  obtain ⟨before, after, left, right, -, -, rfl⟩ := padded
  intro char member
  rcases List.mem_append.mp member with front | behind
  · rcases List.mem_append.mp front with blank | inner
    · exact delimiter_not_blank char (left char blank)
    · rw [beq_eq_false_iff_ne]
      rintro rfl
      exact isCell.undelimited inner
  · exact delimiter_not_blank char (right char behind)

theorem IsPadded.unbroken {cell : String} {text : List Char} (padded : IsPadded cell text)
    (isCell : IsCell cell) : '\n' ∉ text := by
  obtain ⟨before, after, -, -, left, right, rfl⟩ := padded
  simp [left, right, isCell.unbroken]

section Padded

variable {cells : List String} {texts : List (List Char)}

theorem map_trimChars_padded (padded : List.Forall₂ IsPadded cells texts)
    (areCells : ∀ cell ∈ cells, IsCell cell) : texts.map trimChars = cells.map String.toList := by
  induction padded with
  | nil => rfl
  | cons first _ ih =>
    simp only [List.mem_cons, forall_eq_or_imp] at areCells
    rw [List.map_cons, List.map_cons, first.trimChars_eq areCells.1, ih areCells.2]

/-- Each of the texts is one of the cells, padded. -/
theorem cell_of_mem_padded (padded : List.Forall₂ IsPadded cells texts) {text : List Char}
    (member : text ∈ texts) : ∃ cell ∈ cells, IsPadded cell text := by
  induction padded with
  | nil => simp at member
  | cons first _ ih =>
    rcases List.mem_cons.mp member with rfl | later
    · exact ⟨_, by simp, first⟩
    · obtain ⟨cell, among, pads⟩ := ih later
      exact ⟨cell, by simp [among], pads⟩

/-- A word is found in padded cells exactly when it is found in the cells, also in changed
letters. -/
theorem occursIn_padded_iff (padded : List.Forall₂ IsPadded cells texts) {word : List Char}
    (visible : IsVisible word) {change : Char → Char}
    (keeps : ∀ char, isBlank char = true → change char = char) :
    (∃ text ∈ texts, occursIn word (text.map change) = true) ↔
      ∃ cell ∈ cells, occursIn word (cell.toList.map change) = true := by
  induction padded with
  | nil => simp
  | cons first _ ih =>
    obtain ⟨before, after, left, right, -, -, rfl⟩ := first
    simp only [List.mem_cons, exists_eq_or_imp, ih, occursIn_map_pad_iff keeps visible left right]

/-- The first cell, the blanks around it and the delimiter after it leave no place for a
decoration. -/
theorem isBare_padded (wide : 2 ≤ cells.length)
    (plain : ∀ first ∈ cells.head?, IsPlain first.toList)
    (padded : List.Forall₂ IsPadded cells texts) (turn : List Char) :
    IsBare ([delimiter].intercalate texts ++ turn) := by
  -- With two cells or more there is a delimiter, at which every timestamp breaks off.
  cases padded with
  | nil => simp at wide
  | @cons cell text _ _ first others =>
    cases others with
    | nil => simp at wide
    | @cons _ next _ more _ _ =>
      obtain ⟨before, after, left, right, -, -, rfl⟩ := first
      have cellPlain : IsPlain (cell.toList ++ after) :=
        (plain cell (by simp)).append_blank right
      have linePlain : IsPlain (cell.toList ++ after ++
          delimiter :: ([delimiter].intercalate (next :: more) ++ turn)) :=
        cellPlain.append_stop (by decide) (by decide) _
      have bare := IsBare.blank_append left linePlain.isBare
      simpa [List.intercalate_cons_cons] using bare

end Padded

/-! ### What is left of a written line -/

theorem isVisible_iterationColumn : IsVisible Row.iterationColumn.toList where
  first := ⟨'i', _, rfl, by decide⟩
  last := ⟨"iteratio".toList, 'n', by decide, by decide⟩

theorem isVisible_beginMarker : IsVisible beginMarker.toList where
  first := ⟨'=', _, rfl, by decide⟩
  last := ⟨"=== Benchmark Begins ==".toList, '=', by decide, by decide⟩

theorem isVisible_endMarker : IsVisible endMarker.toList where
  first := ⟨'=', _, rfl, by decide⟩
  last := ⟨"=== Benchmark End ==".toList, '=', by decide, by decide⟩

section Written

variable {cells : List String} {line : Bytes} (wide : 2 ≤ cells.length) (sound : IsTableLine cells)
  (written : IsWritten cells line)

include sound written in
theorem IsWritten.isRun : IsRun line := by
  obtain ⟨decoration, texts, turn, padded, turns, rfl⟩ := written
  intro member
  have among := mem_of_mem_encode (by decide) member
  rw [String.toList_ofList] at among
  rcases List.mem_append.mp among with front | body
  · exact decoration.lineFeed_not_mem_text front
  · rcases List.mem_append.mp body with inner | behind
    · rcases mem_of_mem_intercalate inner with same | ⟨text, part, inside⟩
      · exact absurd same (by decide)
      · obtain ⟨cell, isCell, pads⟩ := cell_of_mem_padded padded part
        exact pads.unbroken (sound.areCells cell isCell) inside
    · rcases turns with rfl | rfl
      · simp at behind
      · exact absurd behind (by decide)

include wide sound written in
theorem IsWritten.normal : ∃ texts, List.Forall₂ IsPadded cells texts ∧
    normalLine line = String.ofList (trimChars ([delimiter].intercalate texts)) := by
  obtain ⟨decoration, texts, turn, padded, turns, rfl⟩ := written
  have blank : AllBlank turn := by
    rcases turns with rfl | rfl
    · simp [AllBlank]
    · simp [AllBlank, isBlank]
  refine ⟨texts, padded, ?_⟩
  rw [normalLine_eq, lossyChars_encode, String.toList_ofList, normalChars_decorated decoration
    fun _ => isBare_padded wide sound.plain padded turn, trimChars_append_blank _ blank]

include wide sound written in
theorem IsWritten.fieldsOf_eq : fieldsOf (normalLine line) = cells := by
  obtain ⟨texts, padded, normal⟩ := written.normal wide sound
  have some : texts ≠ [] := by
    rintro rfl
    have none := padded.length_eq
    simp only [List.length_nil] at none
    omega
  have whole : ∀ text ∈ texts, ∀ char ∈ text, (char == delimiter) = false := by
    intro text member
    obtain ⟨cell, among, pads⟩ := cell_of_mem_padded padded member
    exact pads.undelimited (sound.areCells cell among)
  -- Trimming the line first makes no difference to its trimmed pieces.
  have cut : (pieces (· == delimiter) (trimChars ([delimiter].intercalate texts))).map trimChars =
      cells.map String.toList := by
    rw [trimmed_pieces_trimChars delimiter_not_blank, pieces_intercalate (by simp) some whole,
      map_trimChars_padded padded sound.areCells]
  have named := congrArg (List.map String.ofList) cut
  simpa [fieldsOf, normal, Function.comp_def] using named

include wide sound written in
theorem IsWritten.occursIn_eq {word : List Char} (visible : IsVisible word)
    (outside : delimiter ∉ word) {change : Char → Char}
    (keeps : ∀ char, isBlank char = true → change char = char)
    (fixed : change delimiter = delimiter) :
    occursIn word ((normalLine line).toList.map change) =
      occursIn word ((tableLine cells).toList.map change) := by
  obtain ⟨texts, padded, normal⟩ := written.normal wide sound
  have someCell : cells ≠ [] := by
    rintro rfl
    simp at wide
  have someText : texts ≠ [] := by
    rintro rfl
    exact someCell (List.length_eq_zero_iff.mp padded.length_eq)
  have whole : (tableLine cells).toList = [delimiter].intercalate (cells.map String.toList) :=
    String.toList_intercalate
  -- Both lines hold the word exactly if one of their cells does.
  rw [Bool.eq_iff_iff, normal, String.toList_ofList, occursIn_map_trimChars_iff keeps visible,
    whole, map_intercalate, map_intercalate, fixed,
    occursIn_intercalate_iff outside (by simpa using someText),
    occursIn_intercalate_iff outside (by simpa using someCell)]
  simpa using occursIn_padded_iff padded visible keeps

include wide sound written in
theorem IsWritten.isHeader_eq : isHeader (normalLine line) = isHeader (tableLine cells) :=
  written.occursIn_eq wide sound isVisible_iterationColumn (by decide)
    (fun _ blank => toLower_of_isBlank blank) (by decide)

include wide sound written in
theorem IsWritten.contains_eq {marker : String} (visible : IsVisible marker.toList)
    (outside : delimiter ∉ marker.toList) :
    contains (normalLine line) marker = contains (tableLine cells) marker := by
  have same : occursIn marker.toList ((normalLine line).toList.map id) =
      occursIn marker.toList ((tableLine cells).toList.map id) :=
    written.occursIn_eq wide sound visible outside (fun _ _ => rfl) rfl
  simpa [contains] using same

include wide sound written in
theorem IsWritten.isClosing_eq_false : isClosing (normalLine line) = false := by
  have unended := written.contains_eq wide sound isVisible_endMarker (by decide)
  rw [isClosing, unended, sound.unended, Bool.false_and]

include wide sound written in
theorem IsWritten.isCaptured_eq_true : isCaptured (normalLine line) = true := by
  have unopened := written.contains_eq wide sound isVisible_beginMarker (by decide)
  have content : (normalLine line).isEmpty = false := by
    rw [← Bool.not_eq_true, String.isEmpty_iff]
    -- An empty line has a single cell.
    intro empty
    have fields := written.fieldsOf_eq wide sound
    rw [empty] at fields
    rw [← fields, Telemetry.length_fieldsOf] at wide
    simp at wide
  rw [isCaptured, unopened, sound.unopened, content]
  rfl

end Written

end BoardBench.Console
