import BoardBench.Text.Blank
import BoardBench.Text.Digit

/-!
# Normalized lines

Terminal programs put a timestamp in front of each console line, and device comments start with
`#`. Normalizing takes off one layer of that: the line end, one timestamp, one `#`, and the blanks
around what remains.
-/
namespace BoardBench.Console

/-- One place of the timestamp pattern. -/
inductive Slot where
  | digit
  | exact (char : Char)
  deriving Repr, DecidableEq

def Slot.admits : Slot → Char → Bool
  | .digit, char => isDecimal char
  | .exact expected, char => char == expected

def digitSlots (count : Nat) : List Slot :=
  List.replicate count .digit

/-- `dddd-dd-dd dd:dd:dd,ddd # ` with decimal digits of any script. -/
def timestamp : List Slot :=
  digitSlots 4 ++ [.exact '-'] ++ digitSlots 2 ++ [.exact '-'] ++ digitSlots 2 ++ [.exact ' '] ++
    digitSlots 2 ++ [.exact ':'] ++ digitSlots 2 ++ [.exact ':'] ++ digitSlots 2 ++ [.exact ','] ++
    digitSlots 3 ++ [.exact ' ', .exact '#', .exact ' ']

/-- What follows the pattern at the start of a text, if it stands there. -/
def afterSlots? : List Slot → List Char → Option (List Char)
  | [], text => some text
  | _ :: _, [] => none
  | slot :: slots, char :: rest => if slot.admits char then afterSlots? slots rest else none

def dropTimestamp (text : List Char) : List Char :=
  (afterSlots? timestamp text).getD text

def dropHash : List Char → List Char
  | '#' :: rest => rest
  | text => text

def isLineEnd (char : Char) : Bool :=
  char == '\n' || char == '\r'

def normalChars (line : List Char) : List Char :=
  trimChars (dropHash (dropTimestamp (dropEndWhile isLineEnd line)))

/-- The line without line end, one timestamp, one `#` and surrounding blanks. -/
def normalize (line : String) : String :=
  String.ofList (normalChars line.toList)

end BoardBench.Console
