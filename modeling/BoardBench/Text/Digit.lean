/-!
# Digits and natural numbers

Two classes of digits: the decimal digits of every script, which a timestamp may be written with,
and the ten ASCII digits, which numbers are written with. `natural?` reads an unsigned number
below a bound.
-/
namespace BoardBench

/-- The first characters of the runs of ten characters with general category `Nd`. -/
def decimalRuns : List Nat :=
  [0x30, 0x660, 0x6F0, 0x7C0, 0x966, 0x9E6, 0xA66, 0xAE6, 0xB66, 0xBE6, 0xC66, 0xCE6, 0xD66, 0xDE6,
    0xE50, 0xED0, 0xF20, 0x1040, 0x1090, 0x17E0, 0x1810, 0x1946, 0x19D0, 0x1A80, 0x1A90, 0x1B50,
    0x1BB0, 0x1C40, 0x1C50, 0xA620, 0xA8D0, 0xA900, 0xA9D0, 0xA9F0, 0xAA50, 0xABF0, 0xFF10, 0x104A0,
    0x10D30, 0x10D40, 0x11066, 0x110F0, 0x11136, 0x111D0, 0x112F0, 0x11450, 0x114D0, 0x11650,
    0x116C0, 0x116D0, 0x116DA, 0x11730, 0x118E0, 0x11950, 0x11BF0, 0x11C50, 0x11D50, 0x11DA0,
    0x11F50, 0x16130, 0x16A60, 0x16AC0, 0x16B50, 0x16D70, 0x1CCF0, 0x1D7CE, 0x1D7D8, 0x1D7E2,
    0x1D7EC, 0x1D7F6, 0x1E140, 0x1E2F0, 0x1E4F0, 0x1E5F1, 0x1E950, 0x1FBF0]

/-- A decimal digit of some script. -/
def isDecimal (char : Char) : Bool :=
  decimalRuns.any fun start => start ≤ char.toNat && char.toNat < start + 10

def isAsciiDigit (char : Char) : Bool :=
  48 ≤ char.toNat && char.toNat ≤ 57

/-- The number that ASCII digits denote in a base, after `start` has been read. -/
def digitsFrom (base start : Nat) (digits : List Char) : Nat :=
  digits.foldl (fun value digit => base * value + (digit.toNat - 48)) start

def digitsValue (digits : List Char) : Nat :=
  digitsFrom 10 0 digits

/-- A number written in one or more ASCII digits. -/
def plainNatural? (digits : List Char) : Option Nat :=
  if digits ≠ [] ∧ digits.all isAsciiDigit then some (digitsValue digits) else none

/-- Reads an optional `+` and one or more ASCII digits that denote a number below `bound`. -/
def natural? (bound : Nat) (text : List Char) : Option Nat :=
  let digits := match text with
    | '+' :: rest => rest
    | other => other
  (plainNatural? digits).filter (· < bound)

/-- Counts and iteration numbers are below this bound. -/
def countBound : Nat := UInt64.size

/-- A count is below `countBound`; blanks around it are the caller's to trim. -/
def countOfText? (text : List Char) : Option UInt64 :=
  (natural? countBound text).map UInt64.ofNat

end BoardBench
