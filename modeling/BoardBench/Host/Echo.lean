import BoardBench.Text.Utf8

/-!
# Echoed text

What the shell's own `echo` writes: its arguments with single spaces between them, in which a
backslash starts an escape. An escape stands for a control character, for a byte by its octal
digits, or for the end of everything that is written.
-/
namespace BoardBench.Host

def backslash : Char := Char.ofNat 92
def doubleQuote : Char := Char.ofNat 34

/-- Where a reader of escapes stands. -/
inductive EchoMode where
  | plain
  | escaped
  /-- An octal number of which so many more digits may follow. -/
  | octal (value due : Nat)
  deriving Repr, DecidableEq

/-- What was written so far, reversed. -/
structure Echo where
  written : Bytes := []
  mode : EchoMode := .plain
  isOver : Bool := false
  deriving Repr, DecidableEq

/-- The byte that a letter after a backslash stands for. -/
def escapedByte? : Char → Option UInt8
  | 'a' => some 7
  | 'b' => some 8
  | 't' => some 9
  | 'n' => some 10
  | 'v' => some 11
  | 'f' => some 12
  | 'r' => some 13
  | char => if char = backslash ∨ char = doubleQuote then some (UInt8.ofNat char.toNat) else none

def octalDigit? (char : Char) : Option Nat :=
  if '0' ≤ char ∧ char ≤ '7' then some (char.toNat - 48) else none

namespace Echo

def addByte (echo : Echo) (byte : UInt8) : Echo :=
  { echo with written := byte :: echo.written, mode := .plain }

def addChar (echo : Echo) (char : Char) : Echo :=
  { echo with
    written := (encode (String.singleton char)).reverse ++ echo.written, mode := .plain }

/-- Takes a character that continues no escape. -/
def takePlain (echo : Echo) (char : Char) : Echo :=
  if char = backslash then { echo with mode := .escaped } else echo.addChar char

/-- Takes the character after a backslash. A zero may have three more digits. -/
def takeEscaped (echo : Echo) (char : Char) : Echo :=
  if char = 'c' then { echo with isOver := true, mode := .plain }
  else
    match escapedByte? char, octalDigit? char with
    | some byte, _ => echo.addByte byte
    | none, some digit => { echo with mode := .octal digit (if digit = 0 then 3 else 2) }
    | none, none => (echo.addChar backslash).addChar char

def step (echo : Echo) (char : Char) : Echo :=
  if echo.isOver then echo
  else
    match echo.mode with
    | .plain => echo.takePlain char
    | .escaped => echo.takeEscaped char
    | .octal value due =>
      match due, octalDigit? char with
      | due + 1, some digit => { echo with mode := .octal (8 * value + digit) due }
      | _, _ => (echo.addByte (UInt8.ofNat value)).takePlain char

/-- Ends an escape that is under way. -/
def finish (echo : Echo) : Echo :=
  match echo.mode with
  | .plain => echo
  | .escaped => echo.addChar backslash
  | .octal value _ => echo.addByte (UInt8.ofNat value)

end Echo

/-- What `echo` writes for its arguments. -/
def echoed (arguments : List String) : Bytes :=
  let isOpen := arguments.head? == some "-n"
  let text := String.intercalate " " (if isOpen then arguments.drop 1 else arguments)
  let echo := (text.toList.foldl Echo.step {}).finish
  echo.written.reverse ++ if isOpen || echo.isOver then [] else encode "\n"

end BoardBench.Host
