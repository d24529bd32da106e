import BoardBench.Results.Csv
import BoardBench.Proofs.Text.Sorted

/-!
# Reading CSV back

A strict reader of RFC 4180 text. Records end with a line feed, commas stand between fields, and an
empty line is a record of one empty field. A field in quotes holds any characters, its quotes
doubled; a field without quotes holds no quote and no carriage return.

Main result: reading the CSV form of a result set succeeds and yields the columns in ascending
order, and then the cells of each row. So the text determines the table.

Proof strategy: the reader is followed over one field, then over one record, then over the text. A
written field takes the reader from the opening of a field to its end, with the text of the field in
its hands.
-/
namespace BoardBench

namespace Csv

/-- Where in a field the reader is. -/
inductive Place where
  | opening
  | plain
  | quoted
  /-- Behind a quote inside quotes, which closes them or is the first one of two. -/
  | closing
  deriving DecidableEq

/-- Reads the rest of a text, given the fields of the record so far and the field under way. -/
def readFrom (record : List String) (field : List Char) (place : Place) :
    List Char → Option (List (List String))
  | [] =>
    match place with
    | .quoted => none
    -- Behind a line feed nothing of a further record has begun.
    | .opening => some (if record.isEmpty then [] else [record ++ [""]])
    | .plain | .closing => some [record ++ [String.ofList field]]
  | char :: rest =>
    if place = .quoted then
      if char = quote then readFrom record field .closing rest
      else readFrom record (field ++ [char]) .quoted rest
    else if char = ',' then readFrom (record ++ [String.ofList field]) [] .opening rest
    else if char = '\n' then
      (readFrom [] [] .opening rest).map ((record ++ [String.ofList field]) :: ·)
    else if char = quote then
      match place with
      | .opening => readFrom record field .quoted rest
      | .closing => readFrom record (field ++ [quote]) .quoted rest
      | .plain | .quoted => none
    else if char = '\r' ∨ place = .closing then none
    else readFrom record (field ++ [char]) .plain rest

/-- The records of a text, unless it is no CSV. -/
def read (text : String) : Option (List (List String)) :=
  readFrom [] [] .opening text.toList

/-! ### One field -/

section Field

variable (record : List String) (field rest : List Char)

theorem readFrom_char {place : Place} {char : Char} (begun : place = .opening ∨ place = .plain)
    (plain : needsQuotes char = false) :
    readFrom record field place (char :: rest) = readFrom record (field ++ [char]) .plain rest := by
  simp only [needsQuotes, Bool.or_eq_false_iff, beq_eq_false_iff_ne] at plain
  obtain ⟨⟨⟨noComma, noQuote⟩, noFeed⟩, noReturn⟩ := plain
  rcases begun with rfl | rfl
  · simp [readFrom, noComma, noQuote, noFeed, noReturn]
  · simp [readFrom, noComma, noQuote, noFeed, noReturn]

theorem readFrom_chars {text : List Char} (plain : text.any needsQuotes = false) :
    readFrom record field .plain (text ++ rest) = readFrom record (field ++ text) .plain rest := by
  induction text generalizing field with
  | nil => simp
  | cons char more ih =>
    rw [List.any_cons, Bool.or_eq_false_iff] at plain
    rw [List.cons_append, readFrom_char _ _ _ (.inr rfl) plain.1, ih _ plain.2, List.append_assoc,
      List.singleton_append]

theorem readFrom_doubledQuotes (text : List Char) :
    readFrom record field .quoted (doubledQuotes text ++ rest) =
      readFrom record (field ++ text) .quoted rest := by
  induction text generalizing field with
  | nil => simp [doubledQuotes]
  | cons char more ih =>
    have first : readFrom record field .quoted (doubledQuotes (char :: more) ++ rest) =
        readFrom record (field ++ [char]) .quoted (doubledQuotes more ++ rest) := by
      by_cases isQuote : char = quote
      -- The first of the two quotes might close the field, the second one says that it does not.
      · subst isQuote
        rfl
      · simp [doubledQuotes, isQuote, readFrom]
    rw [first, ih, List.append_assoc, List.singleton_append]

/-- A comma or a line feed ends any field but one whose quotes are still open. -/
theorem readFrom_stop {place : Place} {stop : Char} (unquoted : place ≠ .quoted)
    (stops : stop = ',' ∨ stop = '\n') :
    readFrom record field place (stop :: rest) = readFrom record field .plain (stop :: rest) := by
  rcases stops with rfl | rfl
  · simp [readFrom, unquoted]
  · simp [readFrom, unquoted]

/-- A written field takes the reader to its end. -/
theorem readFrom_field (text : List Char) {stop : Char} (stops : stop = ',' ∨ stop = '\n') :
    readFrom record [] .opening (fieldChars text ++ stop :: rest) =
      readFrom record text .plain (stop :: rest) := by
  unfold fieldChars
  split
  next =>
    calc
      readFrom record [] .opening (quote :: doubledQuotes text ++ [quote] ++ stop :: rest)
        = readFrom record [] .quoted (doubledQuotes text ++ quote :: stop :: rest) := by
          rw [List.append_assoc, List.cons_append]
          rfl
      _ = readFrom record text .quoted (quote :: stop :: rest) :=
          readFrom_doubledQuotes _ _ _ _
      _ = readFrom record text .closing (stop :: rest) := rfl
      _ = readFrom record text .plain (stop :: rest) := readFrom_stop _ _ _ (by decide) stops
  next unquoted =>
    have plain : text.any needsQuotes = false := by simpa using unquoted
    cases text with
    | nil => exact readFrom_stop _ _ _ (by decide) stops
    | cons char more =>
      rw [List.any_cons, Bool.or_eq_false_iff] at plain
      rw [List.cons_append, readFrom_char _ _ _ (.inl rfl) plain.1, readFrom_chars _ _ _ plain.2]
      rfl

end Field

/-! ### Records -/

theorem toList_line_singleton (cell : String) :
    (line [cell]).toList = fieldChars cell.toList ++ ['\n'] := by
  simp [line, join, field]

theorem toList_line_cons (cell next : String) (more : List String) :
    (line (cell :: next :: more)).toList =
      fieldChars cell.toList ++ ',' :: (line (next :: more)).toList := by
  simp [line, join, field]

/-- A written record adds its cells and is then complete. -/
theorem readFrom_line (record : List String) {cells : List String} (filled : cells ≠ [])
    (rest : List Char) :
    readFrom record [] .opening ((line cells).toList ++ rest) =
      (readFrom [] [] .opening rest).map ((record ++ cells) :: ·) := by
  induction cells generalizing record with
  | nil => exact absurd rfl filled
  | cons cell more ih =>
    cases more with
    | nil =>
      rw [toList_line_singleton, List.append_assoc, List.singleton_append,
        readFrom_field _ _ _ (.inr rfl)]
      simp [readFrom]
    | cons next more =>
      rw [toList_line_cons, List.append_assoc, List.cons_append, readFrom_field _ _ _ (.inl rfl)]
      -- The comma hands the cell over to the record.
      have comma :
          readFrom record cell.toList .plain (',' :: ((line (next :: more)).toList ++ rest)) =
            readFrom (record ++ [cell]) [] .opening ((line (next :: more)).toList ++ rest) := by
        simp [readFrom]
      rw [comma, ih _ (by simp), List.append_assoc, List.singleton_append]

/-- What was written as lines is read as records. -/
theorem read_join_lines (table : List (List String)) (filled : ∀ record ∈ table, record ≠ []) :
    read (String.join (table.map line)) = some table := by
  rw [read, String.toList_join]
  induction table with
  | nil => rfl
  | cons record rest ih =>
    simp only [List.mem_cons, forall_eq_or_imp] at filled
    rw [List.map_cons, List.flatMap_cons, readFrom_line _ filled.1, ih filled.2]
    rfl

/-- A quote in a field without quotes is refused, and an empty line is a record. -/
example : read "a\"b\n" = none ∧ read "\n\"\"\n" = some [[""], [""]] := by decide +kernel

end Csv

/-! ### Result sets -/

open Telemetry (Row)

theorem Telemetry.Row.getD_of_not_mem {row : Row} {name : String} (absent : name ∉ row.columns) :
    row.getD name = "" := by
  have none : row.cells.lookup name = none := by
    apply List.lookup_eq_none_iff.mpr
    intro cell member
    rw [bne_iff_ne]
    rintro rfl
    exact absent (List.mem_map_of_mem member)
  rw [Row.getD, Row.get?, none]
  rfl

namespace ResultSet

/-- Some row has a column. -/
def IsTitled (set : ResultSet) : Prop :=
  ∃ row ∈ set.records, row.columns ≠ []

theorem mem_fieldNames_iff (set : ResultSet) (name : String) :
    name ∈ set.fieldNames ↔ ∃ row ∈ set.records, name ∈ row.columns := by
  rw [fieldNames, mem_sortedMembers_iff isOrder_textBefore, List.mem_flatMap]

theorem pairwise_fieldNames (set : ResultSet) : set.fieldNames.Pairwise (· < ·) := by
  apply (pairwise_sortedMembers isOrder_textBefore (set.records.flatMap Row.columns)).imp
  intro low high ascending
  simpa [textBefore] using ascending

theorem IsTitled.fieldNames_ne_nil {set : ResultSet} (titled : set.IsTitled) :
    set.fieldNames ≠ [] := by
  obtain ⟨row, among, columns⟩ := titled
  obtain ⟨name, member⟩ := List.exists_mem_of_ne_nil _ columns
  exact List.ne_nil_of_mem ((mem_fieldNames_iff set name).mpr ⟨row, among, member⟩)

theorem read_csv {set : ResultSet} (titled : set.IsTitled) : Csv.read set.csv = some set.table := by
  have names := titled.fieldNames_ne_nil
  apply Csv.read_join_lines
  intro record member
  rcases List.mem_cons.mp member with rfl | member
  · exact names
  -- Every record has a cell for each column, so none is empty.
  · obtain ⟨row, -, rfl⟩ := List.mem_map.mp member
    simpa [Row.cellsUnder] using names

/-- Two result sets with the same columns, the same number of rows and the same cells. -/
def IsSameTable (set other : ResultSet) : Prop :=
  set.fieldNames = other.fieldNames ∧ set.size = other.size ∧
    ∀ (index : Nat) (row row' : Row), set.records[index]? = some row →
      other.records[index]? = some row' → ∀ name, (row.get? name).getD "" = (row'.get? name).getD ""

theorem table_eq_iff (set other : ResultSet) : set.table = other.table ↔ set.IsSameTable other := by
  unfold table
  rw [List.cons.injEq]
  constructor
  · rintro ⟨names, cells⟩
    refine ⟨names, ?_, ?_⟩
    · simpa [size] using congrArg List.length cells
    · intro index row row' found found' name
      have same := congrArg (·[index]?) cells
      simp only [List.getElem?_map, found, found', Option.map_some, Option.some.injEq, ← names]
        at same
      by_cases titled : name ∈ set.fieldNames
      · exact List.map_inj_left.mp same name titled
      -- A column that no row has is empty in all of them.
      · have absent : name ∉ row.columns := fun member =>
          titled ((mem_fieldNames_iff set name).mpr ⟨row, List.mem_of_getElem? found, member⟩)
        rw [names] at titled
        have absent' : name ∉ row'.columns := fun member =>
          titled ((mem_fieldNames_iff other name).mpr ⟨row', List.mem_of_getElem? found', member⟩)
        exact (Row.getD_of_not_mem absent).trans (Row.getD_of_not_mem absent').symm
  · rintro ⟨names, sizes, cells⟩
    refine ⟨names, ?_⟩
    rw [← names]
    apply List.ext_getElem (by simpa [size] using sizes)
    intro index within within'
    rw [List.getElem_map, List.getElem_map]
    apply List.map_congr_left
    intro name _
    exact cells index _ _ (List.getElem?_eq_getElem _) (List.getElem?_eq_getElem _) name

theorem csv_eq_iff {set other : ResultSet} (titled : set.IsTitled) (titled' : other.IsTitled) :
    set.csv = other.csv ↔ set.table = other.table := by
  constructor
  · intro same
    have read := read_csv titled
    rw [same, read_csv titled'] at read
    exact (Option.some.inj read).symm
  · intro same
    rw [csv, csv, same]

/-- Reading the CSV form of a result set yields its columns, which are those of its rows in strictly
ascending order, and then one record for each row with its cells, empty ones for columns that the
row lacks. Two result sets have the same CSV form exactly if they are the same table. -/
theorem csv_faithful (set : ResultSet) (titled : set.IsTitled) :
    set.fieldNames.Pairwise (· < ·) ∧
    (∀ name, name ∈ set.fieldNames ↔ ∃ row ∈ set.records, name ∈ row.columns) ∧
    Csv.read set.csv = some (set.fieldNames :: set.records.map fun row =>
      set.fieldNames.map fun name => (row.get? name).getD "") ∧
    ∀ other : ResultSet, other.IsTitled → (set.csv = other.csv ↔ set.IsSameTable other) := by
  refine ⟨pairwise_fieldNames set, mem_fieldNames_iff set, read_csv titled, ?_⟩
  intro other titled'
  rw [csv_eq_iff titled titled', table_eq_iff]

/-- Cells with a comma, a quote and line ends, and a row that lacks a column. -/
def awkward : ResultSet where
  records :=
    [.ofCells [("note", "say \"hi\", then\r\nstop"), ("a,b", "")], .ofCells [("note", "")]]

theorem read_csv_awkward :
    Csv.read awkward.csv =
      some [["a,b", "note"], ["", "say \"hi\", then\r\nstop"], ["", ""]] := by
  have titled : awkward.IsTitled := by
    unfold IsTitled
    decide +kernel
  exact (csv_faithful awkward titled).2.2.1.trans (by decide +kernel)

end ResultSet
end BoardBench
