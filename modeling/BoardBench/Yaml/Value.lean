import BoardBench.Yaml.Node
import BoardBench.Decimal.Reading

/-!
# Values

What a node means where any type of value may stand. A plain scalar is resolved by its text; a tag
of the YAML repository asks for one type; any other scalar is text. A tag of the document's own has
no meaning, and a node that carries one is refused. Collections nest up to a given depth. Aliases
are followed, but only so many times in one document.
-/
namespace BoardBench.Yaml

inductive Value where
  | null
  | bool (value : Bool)
  | natural (value : UInt64)
  /-- A whole number written with a minus sign. -/
  | signed (value : Int)
  | float (value : Float)
  | text (value : String)
  | list (items : List Value)
  | map (entries : List (Value × Value))

/-! ## Plain scalars -/

def isNullText (text : String) : Bool :=
  ["null", "Null", "NULL", "~"].contains text

def boolOfText? (text : String) : Option Bool :=
  if ["true", "True", "TRUE"].contains text then some true
  else if ["false", "False", "FALSE"].contains text then some false
  else none

def digitOf? (base : Nat) (char : Char) : Option Nat :=
  let code := char.toNat
  let value :=
    if 48 ≤ code ∧ code ≤ 57 then code - 48
    else if 97 ≤ code ∧ code ≤ 122 then code - 87
    else if 65 ≤ code ∧ code ≤ 90 then code - 55
    else base
  if value < base then some value else none

/-- A number written in one or more digits of a base. -/
def numberIn? (base : Nat) : List Char → Option Nat
  | [] => none
  | digits => digits.foldlM (fun value char => (digitOf? base char).map (base * value + ·)) 0

/-- A number after a mark for its base, or a decimal one without a leading zero. -/
def magnitude? : List Char → Option Nat
  | '0' :: 'x' :: rest => numberIn? 16 rest
  | '0' :: 'o' :: rest => numberIn? 8 rest
  | '0' :: 'b' :: rest => numberIn? 2 rest
  | '0' :: _ :: _ => none
  | digits => numberIn? 10 digits

/-- A whole number and whether it was written with a minus sign. -/
def wholeNumber? : List Char → Option (Bool × Nat)
  | '-' :: rest => (magnitude? rest).map (true, ·)
  | '+' :: rest => (magnitude? rest).map (false, ·)
  | text => (magnitude? text).map (false, ·)

/-- How wide a whole number is: it fits 64 bits, or only 128 bits, or not even those. -/
inductive Width where
  | word
  | double
  | wider
  deriving Repr, DecidableEq

def widthOf (negative : Bool) (magnitude : Nat) : Width :=
  let (word, double) :=
    if negative then (Nat.pow 2 63, Nat.pow 2 127) else (Nat.pow 2 64 - 1, Nat.pow 2 128 - 1)
  if magnitude ≤ word then .word else if magnitude ≤ double then .double else .wider

/-- A whole number as a value; `some none` is one that has no type. -/
def numberValue? (text : String) : Option (Option Value) :=
  match wholeNumber? text.toList with
  | none => none
  | some (negative, magnitude) =>
    match widthOf negative magnitude with
    | .word =>
      some (some (if negative then .signed (-(magnitude : Int)) else .natural (.ofNat magnitude)))
    | .double => some none
    | .wider => none

/-- Two or more digits of which the first is a zero, with a sign or without, are no number. -/
def isPaddedNumber (text : String) : Bool :=
  let (_, digits) := Decimal.takeSign text.toList
  match digits with
  | '0' :: rest => !rest.isEmpty && rest.all isAsciiDigit
  | _ => false

/-- The texts of the values that no digits can write. -/
def specialFloat? (text : String) : Option Float :=
  if [".inf", ".Inf", ".INF", "+.inf", "+.Inf", "+.INF"].contains text then
    some (Decimal.floatOfBits false Decimal.infinityBits)
  else if ["-.inf", "-.Inf", "-.INF"].contains text then
    some (Decimal.floatOfBits true Decimal.infinityBits)
  else if [".nan", ".NaN", ".NAN"].contains text then
    some (Decimal.floatOfBits false Decimal.notANumberBits)
  else none

/-- A number that is finite as a double, or one of the special texts. -/
def floatOf? (text : String) : Option Float :=
  specialFloat? text <|> (Decimal.floatOfChars? text.toList).filter Float.isFinite

/-- The value of a plain scalar without a tag; `none` for a number that has no type. -/
def plainValue? (text : String) : Option Value :=
  if text.isEmpty || isNullText text then some .null
  else
    match boolOfText? text with
    | some value => some (.bool value)
    | none =>
      match numberValue? text with
      | some value? => value?
      | none =>
        if isPaddedNumber text then some (.text text)
        else some (((floatOf? text).map Value.float).getD (.text text))

/-! ## Tags -/

/-- A tag that starts with `!`. -/
def isMarkedTag (tag : Bytes) : Bool :=
  tag.head? == some 0x21

/-- A tag of the document's own: one that starts with `!` and is text. -/
def isLocalTag (tag : Bytes) : Bool :=
  isMarkedTag tag && (strictText? tag).isSome

def standardTag (name : String) : Bytes :=
  encode ("tag:yaml.org,2002:" ++ name)

/-- The value of a scalar. -/
def scalarValue? (tag : Option Bytes) (style : Style) (text : String) : Option Value :=
  match tag with
  | none => if style = .plain then plainValue? text else some (.text text)
  | some tag =>
    if isLocalTag tag then none
    else if tag = standardTag "bool" then (boolOfText? text).map .bool
    else if tag = standardTag "int" then (numberValue? text).join
    else if tag = standardTag "float" then (floatOf? text).map .float
    else if tag = standardTag "null" then if isNullText text then some .null else none
    else if isMarkedTag tag && style = .plain then plainValue? text
    else some (.text text)

/-! ## Aliases -/

/-- What aliases stand for, and how many of them may be followed. -/
structure Anchors where
  nodes : List (Nat × Node)
  limit : Nat

def Anchors.of (root : Node) : Anchors :=
  { nodes := root.anchored [], limit := 100 * root.size }

/-- A reading of nodes that counts the aliases it has followed and may fail. -/
abbrev Read := StateT Nat Option

namespace Anchors

variable (anchors : Anchors)

def refuse {α : Type} : Read α :=
  fun _ => none

/-- The node itself, or the one that it is an alias of. -/
def follow : Node → Read Node
  | .aliasOf anchor => fun followed =>
    if followed + 1 ≤ anchors.limit then
      (anchors.nodes.lookup anchor).map fun node => (node, followed + 1)
    else none
  | node => pure node

/-- The value of a node whose collections are nested at most `depth` deep. -/
def value (depth : Nat) (node : Node) : Read Value := do
  match ← anchors.follow node with
  | .scalar _ tag style text => liftM (scalarValue? tag style text)
  | .sequence _ tag items =>
    match depth with
    | 0 => refuse
    | depth + 1 =>
      if tag.any isLocalTag then refuse
      else return .list (← items.mapM (value depth))
  | .mapping _ tag entries =>
    match depth with
    | 0 => refuse
    | depth + 1 =>
      if tag.any isLocalTag then refuse
      else
        return .map (← entries.mapM fun (key, item) => do
          return (← value depth key, ← value depth item))
  | .aliasOf _ => refuse

end Anchors

end BoardBench.Yaml
