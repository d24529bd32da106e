import BoardBench.Decimal.Binary
import BoardBench.Text.Blank

/-!
# Writing decimal numbers

`shortest` writes the fewest digits that read back as the same double: it tries ever finer decimal
grids, and the first grid with a point in the interval that rounds to the value gives the digits.
`fixed` writes a given number of places of the exact value. Both are positional, never with an
exponent.
-/
namespace BoardBench.Decimal

/-- A decimal number `digits * 10 ^ scale`. -/
structure Point where
  digits : Nat
  scale : Int
  deriving Repr, DecidableEq

/-- The unit of quarter mantissa steps over the unit of a decimal grid, as a ratio. -/
def gridRatio (exponent scale : Int) : Nat × Nat :=
  let (num, den) := scaleDown 1 1 (2 - exponent)
  if 0 ≤ scale then (num, den * Nat.pow 10 scale.toNat)
  else (num * Nat.pow 10 (-scale).toNat, den)

/-- The point of the grid `10 ^ scale` nearest to `mantissa * 2 ^ exponent` among those that round
to it; of two equally near ones the greater. -/
def gridPoint? (mantissa : Nat) (exponent scale : Int) : Option Point :=
  let (num, den) := gridRatio exponent scale
  let low := if mantissa = leastNormal ∧ leastExponent < exponent then 4 * mantissa - 1
    else 4 * mantissa - 2
  let high := 4 * mantissa + 2
  let inside (point : Nat) : Bool :=
    if mantissa % 2 = 0 then low * num ≤ point * den && point * den ≤ high * num
    else low * num < point * den && point * den < high * num
  let below := 4 * mantissa * num / den
  let above := below + 1
  let nearAbove := 8 * mantissa * num ≥ (below + above) * den
  if inside above && (nearAbove || !inside below) then some ⟨above, scale⟩
  else if inside below then some ⟨below, scale⟩
  else none

/-- The scales of the decimal grids, coarse to fine. -/
def scales : List Int :=
  (List.range 634).map fun (index : Nat) => (309 : Int) - index

def shortestPoint (mantissa : Nat) (exponent : Int) : Point :=
  (scales.findSome? (gridPoint? mantissa exponent)).getD ⟨0, 0⟩

def digitChars (value : Nat) : List Char :=
  Nat.toDigits 10 value

/-- Puts the point in front of the last `places` digits. -/
def withPoint (places : Nat) (digits : List Char) : List Char :=
  if places = 0 then digits
  else
    let filled := List.replicate (places + 1 - digits.length) '0' ++ digits
    filled.take (filled.length - places) ++ '.' :: filled.drop (filled.length - places)

def Point.chars (point : Point) : List Char :=
  if 0 ≤ point.scale then digitChars point.digits ++ List.replicate point.scale.toNat '0'
  else withPoint (-point.scale).toNat (digitChars point.digits)

def signed (negative : Bool) (chars : List Char) : String :=
  String.ofList (if negative then '-' :: chars else chars)

/-- Writes an exact value, given how to write a finite one without its sign. -/
def Exact.write (finite : Nat → Int → List Char) : Exact → String
  | .finite negative mantissa exponent => signed negative (finite mantissa exponent)
  | .infinite negative => signed negative "inf".toList
  | .notANumber => "NaN"

def shortest (value : Float) : String :=
  (exactOf value).write fun mantissa exponent =>
    if mantissa = 0 then ['0'] else (shortestPoint mantissa exponent).chars

def fixedChars (places : Nat) (mantissa : Nat) (exponent : Int) : List Char :=
  let (num, den) := scaleDown (mantissa * Nat.pow 10 places) 1 (-exponent)
  withPoint places (digitChars (roundHalfEven num den))

/-- The exact value to a number of places, a half to the even digit. -/
def fixed (places : Nat) (value : Float) : String :=
  (exactOf value).write (fixedChars places)

end BoardBench.Decimal
