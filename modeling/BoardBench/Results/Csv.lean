import BoardBench.Telemetry.Row
import BoardBench.Text.Sorted
import BoardBench.Text.Pad

/-!
# Result sets as CSV

A result set is the list of enriched rows in the order in which they were collected. Its CSV form
has the sorted union of all columns as header, one record per row, an empty cell where a row lacks
the column. Fields are quoted as RFC 4180 asks, records end with a line feed.
-/
namespace BoardBench

open Telemetry (Row)

structure ResultSet where
  records : List Row := []
  deriving DecidableEq

namespace ResultSet

def extend (set : ResultSet) (rows : List Row) : ResultSet :=
  ⟨set.records ++ rows⟩

def size (set : ResultSet) : Nat :=
  set.records.length

/-- The columns of all records, ascending by code point. -/
def fieldNames (set : ResultSet) : List String :=
  sortedMembers textBefore (set.records.flatMap Row.columns)

end ResultSet

namespace Csv

def quote : Char := Char.ofNat 34

/-- The characters that a field cannot hold unquoted. -/
def needsQuotes (char : Char) : Bool :=
  char == ',' || char == quote || char == '\n' || char == '\r'

def doubledQuotes (field : List Char) : List Char :=
  field.flatMap fun char => if char == quote then [quote, quote] else [char]

def fieldChars (field : List Char) : List Char :=
  if field.any needsQuotes then quote :: doubledQuotes field ++ [quote] else field

def field (text : String) : String :=
  String.ofList (fieldChars text.toList)

def line (cells : List String) : String :=
  join "," (cells.map field) ++ "\n"

end Csv

/-- The cells of a record under a list of columns. -/
def Telemetry.Row.cellsUnder (columns : List String) (row : Row) : List String :=
  columns.map row.getD

/-- The table that the CSV text holds: header first. -/
def ResultSet.table (set : ResultSet) : List (List String) :=
  set.fieldNames :: set.records.map (Row.cellsUnder set.fieldNames)

def ResultSet.csv (set : ResultSet) : String :=
  String.join (set.table.map Csv.line)

end BoardBench
