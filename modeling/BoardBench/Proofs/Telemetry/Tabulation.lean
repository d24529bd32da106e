import BoardBench.Proofs.Telemetry.Table
import BoardBench.Proofs.Telemetry.Row
import Mathlib.Data.List.Forall2

/-!
# Tables by their description

Main result: the rows of a table are told by its first header line and the lines after that. A line
with delimiters and with as many fields as the header is a row, whatever it says, and nothing else
is. A row has the distinct names of the header as its columns, and under a name that comes more than
once the field at its last place.

Proof strategy: each part of the description is matched by the function that computes it. A line has
the fields that cutting and trimming gives, fields make one row only, and the rows under a header
are collected line by line.
-/
namespace BoardBench.Telemetry

/-! ### The description -/

/-- `iteration` stands in the line, in whatever case its letters are. -/
def NamesIteration (line : String) : Prop :=
  ∃ before word after, line.toList = before ++ word ++ after ∧
    word.map Char.toLower = "iteration".toList

/-- The text is the field with blanks around it, and no more blanks are at the ends of the field. -/
structure IsTrimmedTo (text : List Char) (field : String) : Prop where
  padded : ∃ before after, AllBlank before ∧ AllBlank after ∧
    text = before ++ field.toList ++ after
  begins : ∀ first ∈ field.toList.head?, isBlank first = false
  ends : ∀ last ∈ field.toList.getLast?, isBlank last = false

/-- The fields of a line are the trimmed texts between its delimiters. -/
def HasFields (line : String) (fields : List String) : Prop :=
  ∃ texts, texts ≠ [] ∧ (∀ text ∈ texts, delimiter ∉ text) ∧
    line.toList = [delimiter].intercalate texts ∧ List.Forall₂ IsTrimmedTo texts fields

/-- A line with these fields is data under these names. -/
structure IsData (names : List String) (line : String) (fields : List String) : Prop where
  delimited : delimiter ∈ line.toList
  hasFields : HasFields line fields
  fits : fields.length = names.length

/-- The columns are the distinct names, in the order in which they first occur. The value under a
name is the field at its last place. -/
structure IsRowOf (names fields : List String) (row : Row) : Prop where
  columns : row.columns = names.eraseDups
  values : ∀ before name after, names = before ++ name :: after → name ∉ after →
    row.get? name = fields[before.length]?

/-- The rows of the lines that follow a header: one for each line of data, in order. -/
inductive RowsUnder (names : List String) : List String → List Row → Prop
  | done : RowsUnder names [] []
  | data {line : String} {fields : List String} {row : Row} {lines : List String}
      {rows : List Row} : IsData names line fields → IsRowOf names fields row →
    RowsUnder names lines rows → RowsUnder names (line :: lines) (row :: rows)
  | other {line : String} {lines : List String} {rows : List Row} :
    (∀ fields, ¬IsData names line fields) → RowsUnder names lines rows →
    RowsUnder names (line :: lines) rows

/-- The lines are split at the first one that names the iteration. -/
structure IsHeaded (lines before : List String) (header : String) (rest : List String) : Prop where
  split : lines = before ++ header :: rest
  first : ∀ line ∈ before, ¬NamesIteration line
  heads : NamesIteration header

/-- The rows of a table. -/
inductive Tabulates (lines : List String) : List Row → Prop
  | headless : (∀ line ∈ lines, ¬NamesIteration line) → Tabulates lines []
  | headed {before : List String} {header : String} {rest names : List String} {rows : List Row} :
    IsHeaded lines before header rest → HasFields header names → RowsUnder names rest rows →
    Tabulates lines rows

/-! ### Lines -/

theorem namesIteration_iff (line : String) : NamesIteration line ↔ isHeader line = true := by
  rw [isHeader, occursIn_iff]
  constructor
  · rintro ⟨before, word, after, split, lowered⟩
    refine ⟨lowerChars before, lowerChars after, ?_⟩
    rw [split, lowerChars, List.map_append, List.map_append, lowered]
    rfl
  · rintro ⟨before, after, split⟩
    -- What lowering made of the line is cut where the line itself can be cut.
    obtain ⟨front, back, whole, fronts, rfl⟩ := List.map_eq_append_iff.mp split
    obtain ⟨left, word, rfl, rfl, lowered⟩ := List.map_eq_append_iff.mp fronts
    exact ⟨left, word, back, whole, lowered⟩

theorem IsTrimmedTo.trimChars_eq {text : List Char} {field : String}
    (trims : IsTrimmedTo text field) : trimChars text = field.toList := by
  obtain ⟨⟨before, after, left, right, rfl⟩, begins, ends⟩ := trims
  have trimmed : IsTrimmed field.toList := (isTrimmed_iff _).mpr ⟨begins, ends⟩
  exact trimmed.pad left right

theorem isTrimmedTo_trimChars (text : List Char) :
    IsTrimmedTo text (String.ofList (trimChars text)) := by
  obtain ⟨before, after, left, right, split⟩ := trimChars_split text
  obtain ⟨begins, ends⟩ := (isTrimmed_iff _).mp (isTrimmed_trimChars text)
  constructor
  · exact ⟨before, after, left, right, by rw [String.toList_ofList]; exact split⟩
  · simpa using begins
  · simpa using ends

/-- What holds of the field that a text is trimmed to. -/
theorem exists_isTrimmedTo_iff (text : List Char) (holds : List Char → Prop) :
    (∃ field, IsTrimmedTo text field ∧ holds field.toList) ↔ holds (trimChars text) := by
  constructor
  · rintro ⟨field, trims, held⟩
    rw [trims.trimChars_eq]
    exact held
  · intro held
    refine ⟨_, isTrimmedTo_trimChars text, ?_⟩
    rw [String.toList_ofList]
    exact held

theorem hasFields_iff (line : String) (fields : List String) :
    HasFields line fields ↔ fields = fieldsOf line := by
  constructor
  · rintro ⟨texts, some, undelimited, split, trims⟩
    have whole : ∀ text ∈ texts, ∀ char ∈ text, (char == delimiter) = false := by
      intro text member char among
      rw [beq_eq_false_iff_ne]
      rintro rfl
      exact undelimited text member among
    rw [fieldsOf, split, pieces_intercalate (by simp) some whole]
    clear some undelimited split whole
    induction trims with
    | nil => rfl
    | cons first _ ih => rw [List.map_cons, first.trimChars_eq, String.ofList_toList, ← ih]
  · rintro rfl
    refine ⟨pieces (· == delimiter) line.toList, pieces_ne_nil _ _, ?_,
      (intercalate_pieces delimiter line.toList).symm, ?_⟩
    · intro text member among
      simpa using separates_eq_false_of_mem_pieces member delimiter among
    · rw [fieldsOf, List.forall₂_map_right_iff, List.forall₂_same]
      exact fun text _ => isTrimmedTo_trimChars text

/-! ### Rows -/

/-- Each name has a last place. -/
theorem exists_last_place {name : String} {names : List String} (member : name ∈ names) :
    ∃ before after, names = before ++ name :: after ∧ name ∉ after := by
  obtain ⟨after, before, split, fresh⟩ :=
    List.eq_append_cons_of_mem (List.mem_reverse.mpr member)
  refine ⟨before.reverse, after.reverse, ?_, by simpa using fresh⟩
  simpa using congrArg List.reverse split

theorem isRowOf_ofCells {names fields : List String} (fits : fields.length = names.length) :
    IsRowOf names fields (Row.ofCells (names.zip fields)) := by
  constructor
  · rw [Row.columns_ofCells, List.map_fst_zip fits.ge]
  · rintro before name after rfl last
    -- The fields are cut where the names are cut.
    have room : before.length < fields.length := by
      rw [fits, List.length_append, List.length_cons]
      omega
    have cut : fields = fields.take before.length ++
        fields[before.length] :: fields.drop (before.length + 1) := by simp
    have counts : before.length = (fields.take before.length).length := by
      rw [List.length_take]
      omega
    have behind : after.length ≤ (fields.drop (before.length + 1)).length := by
      rw [List.length_drop, fits, List.length_append, List.length_cons]
      omega
    have zipped : (before ++ name :: after).zip fields =
        before.zip (fields.take before.length) ++
          (name, fields[before.length]) :: after.zip (fields.drop (before.length + 1)) := by
      conv_lhs => rw [cut]
      rw [List.zip_append counts, List.zip_cons_cons]
    rw [zipped, Row.get?_ofCells, List.getElem?_eq_getElem room]
    rw [List.map_fst_zip behind]
    exact last

theorem IsRowOf.unique {names fields : List String} {row other : Row}
    (one : IsRowOf names fields row) (two : IsRowOf names fields other) : row = other := by
  apply Row.eq_of_get? (one.columns.trans two.columns.symm)
  intro name member
  rw [one.columns, List.mem_eraseDups] at member
  obtain ⟨before, after, split, last⟩ := exists_last_place member
  rw [one.values before name after split last, two.values before name after split last]

theorem isData_iff (names : List String) (line : String) (fields : List String) :
    IsData names line fields ↔ line.toList.contains delimiter = true ∧
      fields = fieldsOf line ∧ fields.length = names.length := by
  rw [List.contains_iff_mem, ← hasFields_iff]
  constructor
  · intro data
    exact ⟨data.delimited, data.hasFields, data.fits⟩
  · rintro ⟨delimited, hasFields, fits⟩
    exact ⟨delimited, hasFields, fits⟩

theorem rowOf?_eq_some_iff (names : List String) (line : String) (row : Row) :
    rowOf? names line = some row ↔
      ∃ fields, IsData names line fields ∧ IsRowOf names fields row := by
  simp only [rowOf?, isData_iff]
  constructor
  · intro made
    split at made
    next data =>
      cases made
      exact ⟨fieldsOf line, ⟨data.1, rfl, data.2⟩, isRowOf_ofCells data.2⟩
    next => cases made
  · rintro ⟨fields, ⟨delimited, rfl, fits⟩, isRow⟩
    rw [if_pos ⟨delimited, fits⟩, (isRowOf_ofCells fits).unique isRow]

theorem rowOf?_eq_none_iff (names : List String) (line : String) :
    rowOf? names line = none ↔ ∀ fields, ¬IsData names line fields := by
  constructor
  · intro passed fields data
    have fits := data.fits
    have made := (rowOf?_eq_some_iff names line _).mpr ⟨fields, data, isRowOf_ofCells fits⟩
    rw [passed] at made
    cases made
  · intro other
    cases made : rowOf? names line with
    | none => rfl
    | some row =>
      obtain ⟨fields, data, -⟩ := (rowOf?_eq_some_iff names line row).mp made
      exact absurd data (other fields)

/-! ### Tables -/

theorem rowsUnder_iff (names lines : List String) (rows : List Row) :
    RowsUnder names lines rows ↔ rows = lines.filterMap (rowOf? names) := by
  constructor
  · intro under
    induction under with
    | done => rfl
    | data isData isRow _ ih =>
      have made := (rowOf?_eq_some_iff names _ _).mpr ⟨_, isData, isRow⟩
      rw [List.filterMap_cons_some made, ih]
    | other passed _ ih =>
      have none := (rowOf?_eq_none_iff names _).mpr passed
      rw [List.filterMap_cons_none none, ih]
  · rintro rfl
    induction lines with
    | nil => exact .done
    | cons line rest ih =>
      cases made : rowOf? names line with
      | none =>
        rw [List.filterMap_cons_none made]
        exact .other ((rowOf?_eq_none_iff names line).mp made) ih
      | some row =>
        obtain ⟨fields, isData, isRow⟩ := (rowOf?_eq_some_iff names line row).mp made
        rw [List.filterMap_cons_some made]
        exact .data isData isRow ih

theorem headless_iff (lines : List String) :
    (∀ line ∈ lines, ¬NamesIteration line) ↔ ∀ line ∈ lines, isHeader line = false := by
  simp [namesIteration_iff]

theorem IsHeaded.parseRows_eq {lines before : List String} {header : String}
    {rest : List String} (headed : IsHeaded lines before header rest) :
    parseRows lines = rest.filterMap (rowOf? (fieldsOf header)) := by
  obtain ⟨rfl, first, heads⟩ := headed
  exact parseRows_header ((headless_iff before).mp first) ((namesIteration_iff header).mp heads)
    rest

/-- Lines have a header, or none of them is one. -/
theorem headless_or_headed (lines : List String) :
    (∀ line ∈ lines, ¬NamesIteration line) ∨
      ∃ before header rest, IsHeaded lines before header rest := by
  cases first : lines.find? isHeader with
  | none => exact .inl ((headless_iff lines).mpr (by simpa using first))
  | some header =>
    obtain ⟨heads, before, rest, split, headless⟩ := List.find?_eq_some_iff_append.mp first
    refine .inr ⟨before, header, rest, split, ?_, (namesIteration_iff header).mpr heads⟩
    exact (headless_iff before).mpr (by simpa using headless)

theorem tabulates_iff (lines : List String) (rows : List Row) :
    Tabulates lines rows ↔ rows = parseRows lines := by
  constructor
  · intro tabulates
    cases tabulates with
    | headless none => rw [parseRows_headless ((headless_iff lines).mp none)]
    | headed headed named under =>
      rw [hasFields_iff] at named
      subst named
      rw [headed.parseRows_eq]
      exact (rowsUnder_iff _ _ rows).mp under
  · rintro rfl
    rcases headless_or_headed lines with none | ⟨before, header, rest, headed⟩
    · rw [parseRows_headless ((headless_iff lines).mp none)]
      exact .headless none
    · rw [headed.parseRows_eq]
      exact .headed headed ((hasFields_iff header _).mpr rfl) ((rowsUnder_iff _ rest _).mpr rfl)

/-- The line at the head is the header of all that follow it. -/
theorem IsHeaded.behind {lines before : List String} {header : String} {rest : List String}
    (headed : IsHeaded lines before header rest) (more : List String) :
    IsHeaded (header :: more) [] header more :=
  ⟨rfl, by simp, headed.heads⟩

theorem IsHeaded.cut {lines before : List String} {header : String} {rest : List String}
    (headed : IsHeaded lines before header rest) (more : List String) :
    IsHeaded (before ++ header :: more) before header more :=
  ⟨rfl, headed.first, headed.heads⟩

/-- A line that has come after the header adds its row, or nothing; it cannot change what the lines
before it and behind it yield. -/
theorem IsHeaded.parseRows_append {lines before : List String} {header : String}
    {left right : List String} (headed : IsHeaded lines before header (left ++ right)) :
    parseRows lines = parseRows (before ++ header :: left) ++ parseRows (header :: right) := by
  rw [headed.parseRows_eq, (headed.cut left).parseRows_eq, (headed.behind right).parseRows_eq,
    List.filterMap_append]

/-- The rows of a table are those of its description, and there are no others. Under one header all
rows have the same columns, a header without delimiters has no rows, a later line is a row also if
it could be a header itself, and tables that are read in two parts only need the header of the first
one again. -/
theorem parseRows_described (lines : List String) :
    (∀ rows, Tabulates lines rows ↔ rows = parseRows lines) ∧
    ∀ before header rest names, IsHeaded lines before header rest → HasFields header names →
      (∀ row ∈ parseRows lines, row.columns = names.eraseDups) ∧
      (delimiter ∉ header.toList → parseRows lines = []) ∧
      (∀ left line right fields, rest = left ++ line :: right → NamesIteration line →
        IsData names line fields →
        ∃ row, IsRowOf names fields row ∧ parseRows lines =
          parseRows (before ++ header :: left) ++ row :: parseRows (header :: right)) ∧
      ∀ more, parseRows (lines ++ more) = parseRows lines ++ parseRows (header :: more) := by
  refine ⟨tabulates_iff lines, ?_⟩
  intro before header rest names headed named
  rw [hasFields_iff] at named
  subst named
  refine ⟨?_, ?_, ?_, ?_⟩
  · intro row member
    rw [headed.parseRows_eq, List.mem_filterMap] at member
    obtain ⟨line, -, made⟩ := member
    obtain ⟨fields, -, isRow⟩ := (rowOf?_eq_some_iff _ line row).mp made
    exact isRow.columns
  · -- A line with a delimiter has two fields or more, and the header has one.
    intro whole
    by_contra some
    rw [headed.parseRows_eq] at some
    have wide := ((filterMap_rowOf?_ne_nil_iff _ rest).mp some).1
    rw [← contains_delimiter_iff, List.contains_iff_mem] at wide
    exact whole wide
  · rintro left line right fields rfl - isData
    have isRow := isRowOf_ofCells isData.fits
    have made := (rowOf?_eq_some_iff _ line _).mpr ⟨fields, isData, isRow⟩
    refine ⟨_, isRow, ?_⟩
    rw [headed.parseRows_append, (headed.behind _).parseRows_eq, (headed.behind _).parseRows_eq,
      List.filterMap_cons_some made]
  · intro more
    have longer : IsHeaded (lines ++ more) before header (rest ++ more) :=
      ⟨by rw [headed.split]; simp, headed.first, headed.heads⟩
    rw [longer.parseRows_append, ← headed.split]

example : (parseRows ["Iteration;us;us", "1; 20;30", "iteration;2"]).map Row.cells =
    [[("Iteration", "1"), ("us", "30")]] := by decide

end BoardBench.Telemetry
