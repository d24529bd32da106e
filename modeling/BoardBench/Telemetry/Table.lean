import BoardBench.Telemetry.Row

/-!
# Telemetry tables

The table that a device prints: cells separated by `;`, a header line that contains `iteration`
in any case, and data lines. A data line with another number of cells than the header is garbled
and left out.
-/
namespace BoardBench.Telemetry

def delimiter : Char := ';'

/-- The trimmed cells of a line. -/
def fieldsOf (line : String) : List String :=
  (pieces (· == delimiter) line.toList).map fun field => String.ofList (trimChars field)

def isHeader (line : String) : Bool :=
  occursIn Row.iterationColumn.toList (lowerChars line.toList)

/-- The row of a data line under a header, unless the line is garbled. -/
def rowOf? (header : List String) (line : String) : Option Row :=
  let fields := fieldsOf line
  if line.toList.contains delimiter ∧ fields.length = header.length then
    some (Row.ofCells (header.zip fields))
  else none

/-- The rows of a table: the data lines after the first header line. -/
def parseRows : List String → List Row
  | [] => []
  | line :: rest =>
    if isHeader line then rest.filterMap (rowOf? (fieldsOf line)) else parseRows rest

end BoardBench.Telemetry
