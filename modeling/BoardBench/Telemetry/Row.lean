import BoardBench.Text.Blank
import BoardBench.Text.Digit
import BoardBench.Text.Search

/-!
# Telemetry rows

One measurement: values under pairwise distinct column names, in the order in which the columns
were first set. Setting a column that is there keeps its place.
-/
namespace BoardBench.Telemetry

abbrev Cell := String × String

/-- Sets a column in a list of cells. -/
def setCell (column value : String) : List Cell → List Cell
  | [] => [(column, value)]
  | (name, old) :: rest =>
    if name = column then (name, value) :: rest else (name, old) :: setCell column value rest

theorem mem_setCell_names (column value name : String) (cells : List Cell) :
    name ∈ (setCell column value cells).map Prod.fst ↔
      name = column ∨ name ∈ cells.map Prod.fst := by
  induction cells with
  | nil => simp [setCell]
  | cons cell rest ih =>
    obtain ⟨other, old⟩ := cell
    rw [setCell]
    split
    next same => simp [same]
    next differ =>
      simp only [List.map_cons, List.mem_cons, ih]
      constructor <;> rintro (h | h | h) <;> simp [h]

theorem nodup_setCell (column value : String) (cells : List Cell)
    (distinct : (cells.map Prod.fst).Nodup) :
    ((setCell column value cells).map Prod.fst).Nodup := by
  induction cells with
  | nil => simp [setCell]
  | cons cell rest ih =>
    obtain ⟨other, old⟩ := cell
    simp only [List.map_cons, List.nodup_cons] at distinct
    rw [setCell]
    split
    next same => simpa using distinct
    next differ =>
      simp only [List.map_cons, List.nodup_cons, mem_setCell_names, not_or]
      exact ⟨⟨differ, distinct.1⟩, ih distinct.2⟩

structure Row where
  cells : List Cell := []
  distinct : (cells.map Prod.fst).Nodup := by simp
  deriving DecidableEq

namespace Row

def empty : Row := {}

def set (row : Row) (column value : String) : Row where
  cells := setCell column value row.cells
  distinct := nodup_setCell column value row.cells row.distinct

def get? (row : Row) (column : String) : Option String :=
  row.cells.lookup column

def getD (row : Row) (column : String) : String :=
  (row.get? column).getD ""

def columns (row : Row) : List String :=
  row.cells.map Prod.fst

def size (row : Row) : Nat :=
  row.cells.length

/-- The row built by setting each cell in turn. -/
def ofCells (cells : List Cell) : Row :=
  cells.foldl (fun row cell => row.set cell.1 cell.2) empty

/-- The column that orders rows, in any case of its letters. -/
def iterationColumn : String := "iteration"

/-- The number in the first column named `iteration` up to ASCII case. -/
def iteration? (row : Row) : Option UInt64 :=
  match row.cells.find? fun cell => sameIgnoringCase cell.1 iterationColumn with
  | some (_, value) => countOfText? (trimChars value.toList)
  | none => none

end Row

end BoardBench.Telemetry
