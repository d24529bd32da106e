/-!
# Binary floating point

Doubles as exact numbers: a finite one is `mantissa * 2 ^ exponent` with a sign. `nearestBits`
rounds an exact positive ratio to the nearest double, a tie to the even neighbour.
-/
namespace BoardBench.Decimal

/-- The exact value of a double. -/
inductive Exact where
  | finite (negative : Bool) (mantissa : Nat) (exponent : Int)
  | infinite (negative : Bool)
  | notANumber
  deriving Repr, DecidableEq

/-- The exponent of the smallest positive double. -/
def leastExponent : Int := -1074

/-- Mantissas of normal doubles start here. -/
def leastNormal : Nat := Nat.pow 2 52

/-- The bit of the sign. -/
def signBit : Nat := Nat.pow 2 63

def infinityBits : Nat := 0x7FF * leastNormal

/-- The bits of the value that is not a number. -/
def notANumberBits : Nat := infinityBits + leastNormal / 2

def exactOfBits (bits : Nat) : Exact :=
  let negative := bits / signBit == 1
  let field := bits / leastNormal % 2048
  let fraction := bits % leastNormal
  if field = 2047 then if fraction = 0 then .infinite negative else .notANumber
  else if field = 0 then .finite negative fraction leastExponent
  else .finite negative (leastNormal + fraction) (leastExponent + (field - 1 : Int))

def exactOf (value : Float) : Exact :=
  exactOfBits value.toBits.toNat

/-- Numerator and denominator of `num / den / 2 ^ exponent`. -/
def scaleDown (num den : Nat) (exponent : Int) : Nat × Nat :=
  if 0 ≤ exponent then (num, den * Nat.pow 2 exponent.toNat)
  else (num * Nat.pow 2 (-exponent).toNat, den)

/-- The quotient rounded to a whole number, a half to the even one. -/
def roundHalfEven (num den : Nat) : Nat :=
  let floor := num / den
  let rest := num % den
  if 2 * rest < den then floor
  else if den < 2 * rest then floor + 1
  else floor + floor % 2

/-- The exponent of the greatest power of two that is at most the positive ratio. -/
def ratioLog2 (num den : Nat) : Int :=
  let guess : Int := (num.log2 : Int) - (den.log2 : Int)
  let (scaledNum, scaledDen) := scaleDown num den guess
  if scaledDen ≤ scaledNum then guess else guess - 1

/-- The bits of the double nearest to a ratio; infinity past the greatest one. -/
def nearestBits (num den : Nat) : Nat :=
  if num = 0 then 0
  else
    let exponent := max (ratioLog2 num den - 52) leastExponent
    let (scaledNum, scaledDen) := scaleDown num den exponent
    let mantissa := roundHalfEven scaledNum scaledDen
    min (mantissa + (exponent - leastExponent).toNat * leastNormal) infinityBits

def floatOfBits (negative : Bool) (bits : Nat) : Float :=
  Float.ofBits (UInt64.ofNat (if negative then signBit + bits else bits))

def nearest (negative : Bool) (num den : Nat) : Float :=
  floatOfBits negative (nearestBits num den)

end BoardBench.Decimal
