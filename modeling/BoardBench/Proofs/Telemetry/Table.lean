import BoardBench.Telemetry.Table
import BoardBench.Proofs.Text.Blank

/-!
# What a table yields

The first header line divides a table: nothing before it counts, and each later line counts on its
own. A line with as many cells as a header of two columns or more is a data line whatever it holds.
-/
namespace BoardBench.Telemetry

/-! ### Cells of a line -/

/-- Without a delimiter a line is one cell, each delimiter makes one more. -/
theorem length_fieldsOf (line : String) :
    (fieldsOf line).length = line.toList.countP (· == delimiter) + 1 := by
  rw [fieldsOf, List.length_map, length_pieces]

theorem contains_delimiter_iff (line : String) :
    line.toList.contains delimiter = true ↔ 2 ≤ (fieldsOf line).length := by
  have some : 0 < line.toList.countP (· == delimiter) ↔ line.toList.contains delimiter = true := by
    rw [List.countP_pos_iff, List.contains_iff_mem]
    simp
  rw [← some, length_fieldsOf]
  omega

/-! ### Rows -/

theorem rowOf?_eq_none {header : List String} {line : String}
    (garbled : (fieldsOf line).length ≠ header.length) : rowOf? header line = none := by
  simp [rowOf?, garbled]

theorem rowOf?_eq_some {header : List String} {line : String} (wide : 2 ≤ header.length)
    (fits : (fieldsOf line).length = header.length) :
    rowOf? header line = some (Row.ofCells (header.zip (fieldsOf line))) := by
  have delimited := (contains_delimiter_iff line).mpr (fits ▸ wide)
  simp only [rowOf?]
  rw [if_pos ⟨delimited, fits⟩]

theorem rowOf?_isSome_iff (header : List String) (line : String) :
    (rowOf? header line).isSome = true ↔
      2 ≤ header.length ∧ (fieldsOf line).length = header.length := by
  simp only [rowOf?, contains_delimiter_iff]
  split
  next both => simp [← both.2, both.1]
  next failed =>
    simp only [Option.isSome_none, Bool.false_eq_true, false_iff]
    rintro ⟨wide, fits⟩
    exact failed ⟨fits ▸ wide, fits⟩

theorem parseRows_headless {lines : List String}
    (headless : ∀ line ∈ lines, isHeader line = false) :
    parseRows lines = [] := by
  induction lines with
  | nil => rfl
  | cons line rest ih =>
    simp only [List.mem_cons, forall_eq_or_imp] at headless
    rw [parseRows, headless.1]
    exact ih headless.2

theorem parseRows_header {before : List String} {header : String}
    (headless : ∀ line ∈ before, isHeader line = false) (isHead : isHeader header = true)
    (rest : List String) :
    parseRows (before ++ header :: rest) = rest.filterMap (rowOf? (fieldsOf header)) := by
  induction before with
  | nil => rw [List.nil_append, parseRows, if_pos isHead]
  | cons line more ih =>
    simp only [List.mem_cons, forall_eq_or_imp] at headless
    rw [List.cons_append, parseRows, headless.1]
    exact ih headless.2

/-- A table that yields rows: its first header has two columns or more, and some later line has as
many cells. -/
def IsFilledTable (lines : List String) : Prop :=
  ∃ before header rest, lines = before ++ header :: rest ∧
    (∀ line ∈ before, isHeader line = false) ∧ isHeader header = true ∧
    2 ≤ (fieldsOf header).length ∧
    ∃ line ∈ rest, (fieldsOf line).length = (fieldsOf header).length

theorem filterMap_rowOf?_ne_nil_iff (header : List String) (lines : List String) :
    lines.filterMap (rowOf? header) ≠ [] ↔
      2 ≤ header.length ∧ ∃ line ∈ lines, (fieldsOf line).length = header.length := by
  have rows : lines.filterMap (rowOf? header) ≠ [] ↔
      ∃ line ∈ lines, (rowOf? header line).isSome = true := by
    rw [Ne, List.filterMap_eq_nil_iff]
    push Not
    simp only [Option.isSome_iff_ne_none]
  rw [rows]
  simp only [rowOf?_isSome_iff]
  constructor
  · rintro ⟨line, member, wide, fits⟩
    exact ⟨wide, line, member, fits⟩
  · rintro ⟨wide, line, member, fits⟩
    exact ⟨line, member, wide, fits⟩

theorem parseRows_ne_nil_iff (lines : List String) :
    parseRows lines ≠ [] ↔ IsFilledTable lines := by
  constructor
  · intro rows
    cases first : lines.find? isHeader with
    | none => exact absurd (parseRows_headless (by simpa using first)) rows
    | some header =>
      obtain ⟨isHead, before, rest, split, headless⟩ := List.find?_eq_some_iff_append.mp first
      have unheaded : ∀ line ∈ before, isHeader line = false := by simpa using headless
      rw [split, parseRows_header unheaded isHead, filterMap_rowOf?_ne_nil_iff] at rows
      exact ⟨before, header, rest, split, unheaded, isHead, rows⟩
  · rintro ⟨before, header, rest, split, headless, isHead, filled⟩
    rw [split, parseRows_header headless isHead, filterMap_rowOf?_ne_nil_iff]
    exact filled

/-! ### Rows under distinct columns -/

theorem setCell_of_not_mem {column : String} {cells : List Cell}
    (fresh : column ∉ cells.map Prod.fst) (value : String) :
    setCell column value cells = cells ++ [(column, value)] := by
  induction cells with
  | nil => rfl
  | cons cell rest ih =>
    simp only [List.map_cons, List.mem_cons, not_or] at fresh
    rw [setCell, if_neg (Ne.symm fresh.1), ih fresh.2, List.cons_append]

/-- A row that is set cell by cell under distinct columns holds these cells. -/
theorem cells_ofCells {cells : List Cell} (distinct : (cells.map Prod.fst).Nodup) :
    (Row.ofCells cells).cells = cells := by
  induction cells using List.reverseRecOn with
  | nil => rfl
  | append_singleton init cell ih =>
    rw [List.map_append, List.nodup_append] at distinct
    obtain ⟨front, _, apart⟩ := distinct
    have step : (Row.ofCells (init ++ [cell])).cells =
        setCell cell.1 cell.2 (Row.ofCells init).cells := by
      simp [Row.ofCells, List.foldl_append, Row.set]
    -- The new column is not among the ones before, so its cell goes to the end.
    rw [step, ih front, setCell_of_not_mem]
    intro member
    exact apart cell.1 member cell.1 (by simp) rfl

end BoardBench.Telemetry
