import BoardBench.Decimal.Binary
import BoardBench.Text.Blank
import BoardBench.Text.Digit
import BoardBench.Text.Search

/-!
# Reading decimal numbers

A number is an optional sign and either `inf`, `infinity` or `nan` in any case, or decimal digits
with at most one point and an optional exponent. At least one digit must stand before the exponent,
and one in it. The value is the double nearest to what is written.
-/
namespace BoardBench.Decimal

/-- `digits * 10 ^ scale`, where `width` digits were written. -/
structure Numeral where
  digits : Nat
  width : Nat
  scale : Int
  deriving Repr, DecidableEq

/-- A sign in front of a number, if one stands there. -/
def takeSign : List Char → Bool × List Char
  | '-' :: rest => (true, rest)
  | '+' :: rest => (false, rest)
  | text => (false, text)

/-- What follows the digits: nothing, or an exponent. -/
def exponentOf? : List Char → Option Int
  | [] => some 0
  | mark :: rest =>
    if mark.toLower = 'e' then
      let (negative, digits) := takeSign rest
      (plainNatural? digits).map fun value => if negative then -(value : Int) else value
    else none

def numeral? (text : List Char) : Option Numeral :=
  let whole := text.takeWhile isAsciiDigit
  let rest := text.dropWhile isAsciiDigit
  let (fraction, rest) := match rest with
    | '.' :: more => (more.takeWhile isAsciiDigit, more.dropWhile isAsciiDigit)
    | _ => ([], rest)
  let digits := whole ++ fraction
  if digits.isEmpty then none
  else
    (exponentOf? rest).map fun exponent =>
      { digits := digitsValue digits, width := digits.length, scale := exponent - fraction.length }

/-- The bits of the double nearest to a numeral. Far outside the range of the doubles the power of
ten is not computed. -/
def Numeral.bits (number : Numeral) : Nat :=
  if number.digits = 0 then 0
  else
    let leading : Int := (number.digits.log2 * 30103 / 100000 : Nat) + number.scale
    if 320 < leading then infinityBits
    else if leading < -340 then 0
    else if 0 ≤ number.scale then nearestBits (number.digits * Nat.pow 10 number.scale.toNat) 1
    else nearestBits number.digits (Nat.pow 10 (-number.scale).toNat)

def floatOfChars? (text : List Char) : Option Float :=
  let (negative, unsigned) := takeSign text
  let word := lowerChars unsigned
  if word = "inf".toList ∨ word = "infinity".toList then some (floatOfBits negative infinityBits)
  else if word = "nan".toList then some (floatOfBits negative notANumberBits)
  else (numeral? unsigned).map fun number => floatOfBits negative number.bits

/-- Reads a number with blanks around it. -/
def floatOfText? (text : String) : Option Float :=
  floatOfChars? (trimChars text.toList)

end BoardBench.Decimal
