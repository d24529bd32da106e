/-!
# Columns and lines of text

Fields of a fixed width, counted in characters, and printed lines. A text wider than its field is
kept whole.
-/
namespace BoardBench

def spaces (count : Nat) : String :=
  String.ofList (List.replicate count ' ')

/-- The text at the left end of its field. -/
def padRight (width : Nat) (text : String) : String :=
  text ++ spaces (width - text.length)

/-- The text at the right end of its field. -/
def padLeft (width : Nat) (text : String) : String :=
  spaces (width - text.length) ++ text

def join (separator : String) (texts : List String) : String :=
  String.intercalate separator texts

/-- Lines as printed text, each with its line feed. -/
def printed (lines : List String) : String :=
  String.join (lines.map fun line => line ++ "\n")

end BoardBench
