import BoardBench.Text.Blank

/-!
# UTF-8

A decoder that never fails. It runs over the bytes with the sequence under way as its only state.
A maximal run of bytes that begins a sequence and is not continued counts as one invalid part
(`none`); every other part is a character. Lossy reading writes U+FFFD for an invalid part, strict
reading refuses the text.
-/
namespace BoardBench

abbrev Bytes := List UInt8

/-- A sequence under way: the bits read, how many bytes are still due, and where the next one must
lie. Only the second byte of a sequence has a narrower range than `80..BF`. -/
structure Sequence where
  bits : Nat
  due : Nat
  low : Nat := 0x80
  high : Nat := 0xBF
  deriving Repr, DecidableEq

/-- The sequence that a lead byte opens. Overlong forms, surrogates and values past U+10FFFF are
excluded by the range of the second byte. -/
def Sequence.opened? (byte : Nat) : Option Sequence :=
  if 0xC2 ≤ byte ∧ byte ≤ 0xDF then some { bits := byte - 0xC0, due := 1 }
  else if byte = 0xE0 then some { bits := 0, due := 2, low := 0xA0 }
  else if byte = 0xED then some { bits := 0xD, due := 2, high := 0x9F }
  else if 0xE1 ≤ byte ∧ byte ≤ 0xEF then some { bits := byte - 0xE0, due := 2 }
  else if byte = 0xF0 then some { bits := 0, due := 3, low := 0x90 }
  else if byte = 0xF4 then some { bits := 4, due := 3, high := 0x8F }
  else if 0xF1 ≤ byte ∧ byte ≤ 0xF3 then some { bits := byte - 0xF0, due := 3 }
  else none

def Sequence.accepts (seq : Sequence) (byte : Nat) : Bool :=
  seq.low ≤ byte && byte ≤ seq.high

/-- What one byte adds to the output when no sequence is under way. -/
def openByte (byte : Nat) : List (Option Char) × Option Sequence :=
  if byte < 0x80 then ([some (Char.ofNat byte)], none)
  else
    match Sequence.opened? byte with
    | some seq => ([], some seq)
    | none => ([none], none)

/-- What one byte adds to the output. -/
def decodeByte (state : Option Sequence) (byte : Nat) : List (Option Char) × Option Sequence :=
  match state with
  | none => openByte byte
  | some seq =>
    if seq.accepts byte then
      let bits := seq.bits * 64 + (byte - 0x80)
      if seq.due ≤ 1 then ([some (Char.ofNat bits)], none)
      else ([], some { bits, due := seq.due - 1 })
    else
      let (parts, next) := openByte byte
      (none :: parts, next)

def decodeFrom (state : Option Sequence) : Bytes → List (Option Char)
  | [] => if state.isSome then [none] else []
  | byte :: rest =>
    let (parts, next) := decodeByte state byte.toNat
    parts ++ decodeFrom next rest

/-- The parts of a byte string: characters, and `none` for each invalid part. -/
def decode (bytes : Bytes) : List (Option Char) :=
  decodeFrom none bytes

def replacement : Char := Char.ofNat 0xFFFD

def lossyChars (bytes : Bytes) : List Char :=
  (decode bytes).map fun part => part.getD replacement

def lossyText (bytes : Bytes) : String :=
  String.ofList (lossyChars bytes)

/-- The text that the bytes encode, if every part of them is a character. -/
def strictChars? (bytes : Bytes) : Option (List Char) :=
  (decode bytes).mapM id

def strictText? (bytes : Bytes) : Option String :=
  (strictChars? bytes).map String.ofList

def encode (text : String) : Bytes :=
  text.toUTF8.toList

end BoardBench
