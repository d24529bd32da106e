import BoardBench.Yaml.Glyph

/-!
# Scalars

The five ways to write a scalar. Each reader takes the glyphs after the point where the style is
known and gives the text of the scalar and the glyphs after it, or nothing if the scalar is
malformed. The text under construction is kept in reverse.
-/
namespace BoardBench.Yaml

inductive Style where
  | plain
  | singleQuoted
  | doubleQuoted
  | literal
  | folded
  deriving Repr, DecidableEq

/-- White space met since the last other character: blanks on one line, or line breaks with what
stands around them dropped. An escaped line break leaves no first break. Reversed. -/
inductive Gap where
  | blanks (chars : List Char)
  | breaks (first : Option Char) (more : List Char)
  deriving Repr, DecidableEq

namespace Gap

def none : Gap := .blanks []

def isBreaks : Gap → Bool
  | blanks _ => false
  | breaks _ _ => true

def addBlank (char : Char) : Gap → Gap
  | blanks chars => blanks (char :: chars)
  | breaks first more => breaks first more

def addBreak (char : Char) : Gap → Gap
  | blanks _ => breaks (some char) []
  | breaks first more => breaks first (char :: more)

/-- What a gap contributes to the text, reversed: a single line feed is folded into a space, and of
several the first one is dropped. -/
def fill : Gap → List Char
  | blanks chars => chars
  | breaks (some '\n') [] => [' ']
  | breaks (some '\n') more => more
  | breaks (some other) more => more ++ [other]
  | breaks Option.none more => more

end Gap

/-- A scalar that was read, and what follows it. `newLine` tells that a line break was passed after
the last character of a plain scalar. -/
structure Reading where
  text : String
  rest : List Glyph
  newLine : Bool := false

def reading (reversed : List Char) (rest : List Glyph) : Reading :=
  { text := String.ofList reversed.reverse, rest }

/-! ## Plain scalars -/

/-- Characters that end a plain scalar inside a flow collection. -/
def endsInFlow (glyph : Glyph) : Bool :=
  glyph.is ',' || glyph.is '[' || glyph.is ']' || glyph.is '\x7b' || glyph.is '\x7d'

/-- A colon that a flow collection does not allow: an indicator follows it. -/
def isStrayColon (glyph : Glyph) (rest : List Glyph) : Bool :=
  glyph.is ':' &&
    match rest with
    | next :: _ => endsInFlow next || next.is '?'
    | [] => false

/-- A plain scalar that ends in front of a gap. -/
def plainReading (text : List Char) (gap : Gap) (rest : List Glyph) : Reading :=
  { reading text rest with newLine := gap.isBreaks }

/-- Reads a plain scalar. Lines that continue it must reach the column `indent`, unless it stands
in a flow collection. -/
def plain (inFlow : Bool) (indent : Int) (text : List Char) (gap : Gap) :
    List Glyph → Option Reading
  | [] => some (plainReading text gap [])
  | glyph :: rest =>
    if glyph.isBreak then plain inFlow indent text (gap.addBreak glyph.char) rest
    else if glyph.isBlank then
      if gap.isBreaks && glyph.is '\t' && (glyph.column : Int) < indent then none
      else plain inFlow indent text (gap.addBlank glyph.char) rest
    else if gap ≠ Gap.none ∧
        ((!inFlow && (glyph.column : Int) < indent) ∨ glyph.is '#' ∨
          isDocumentMark (glyph :: rest)) then some (plainReading text gap (glyph :: rest))
    else if inFlow && isStrayColon glyph rest then none
    else if standsAlone ':' (glyph :: rest) || (inFlow && endsInFlow glyph) then
      some (plainReading text gap (glyph :: rest))
    else plain inFlow indent (glyph.char :: (gap.fill ++ text)) Gap.none rest

/-! ## Quoted scalars -/

/-- Where a reader of quoted text stands inside an escape. -/
inductive Escape where
  | outside
  | started
  | digits (due : Nat) (value : Nat)
  deriving Repr, DecidableEq

/-- What a character means after a backslash: a character, or a code in so many hexadecimal
digits. -/
inductive EscapeCode where
  | char (char : Char)
  | code (digits : Nat)
  | unknown
  deriving Repr, DecidableEq

def escapeCode : Char → EscapeCode
  | '0' => .char (Char.ofNat 0)
  | 'a' => .char (Char.ofNat 7)
  | 'b' => .char (Char.ofNat 8)
  | 't' => .char '\t'
  | '\t' => .char '\t'
  | 'n' => .char '\n'
  | 'v' => .char (Char.ofNat 0xB)
  | 'f' => .char (Char.ofNat 0xC)
  | 'r' => .char carriageReturn
  | 'e' => .char (Char.ofNat 0x1B)
  | ' ' => .char ' '
  | '/' => .char '/'
  | 'N' => .char nextLine
  | '_' => .char (Char.ofNat 0xA0)
  | 'L' => .char (Char.ofNat 0x2028)
  | 'P' => .char (Char.ofNat 0x2029)
  | 'x' => .code 2
  | 'u' => .code 4
  | 'U' => .code 8
  | other => if other.toNat = 34 ∨ other.toNat = 92 then .char other else .unknown

def hexValue? (char : Char) : Option Nat :=
  let code := char.toNat
  if 48 ≤ code ∧ code ≤ 57 then some (code - 48)
  else if 97 ≤ code ∧ code ≤ 102 then some (code - 87)
  else if 65 ≤ code ∧ code ≤ 70 then some (code - 55)
  else none

/-- The character with a code, if there is one. -/
def charOfCode? (code : Nat) : Option Char :=
  if code.isValidChar then some (Char.ofNat code) else none

def singleQuote : Char := Char.ofNat 39
def doubleQuote : Char := Char.ofNat 34
def backslash : Char := Char.ofNat 92

/-- Reads text in single quotes up to the closing one. -/
def singleQuoted (text : List Char) (gap : Gap) : List Glyph → Option Reading
  | [] => none
  | glyph :: rest =>
    if glyph.isBreak then singleQuoted text (gap.addBreak glyph.char) rest
    else if glyph.isBlank then singleQuoted text (gap.addBlank glyph.char) rest
    else if isDocumentMark (glyph :: rest) then none
    else
      let filled := gap.fill ++ text
      if glyph.is singleQuote then
        match rest with
        | next :: more =>
          if next.is singleQuote then singleQuoted (singleQuote :: filled) Gap.none more
          else some (reading filled (next :: more))
        | [] => some (reading filled [])
      else singleQuoted (glyph.char :: filled) Gap.none rest

/-- Reads text in double quotes up to the closing one. -/
def doubleQuoted (text : List Char) (gap : Gap) : Escape → List Glyph → Option Reading
  | _, [] => none
  | .started, glyph :: rest =>
    if glyph.isBreak then doubleQuoted text (.breaks none []) .outside rest
    else
      match escapeCode glyph.char with
      | .char char => doubleQuoted (char :: text) Gap.none .outside rest
      | .code digits => doubleQuoted text Gap.none (.digits digits 0) rest
      | .unknown => none
  | .digits due value, glyph :: rest =>
    match hexValue? glyph.char with
    | none => none
    | some digit =>
      let value := value * 16 + digit
      if due ≤ 1 then
        match charOfCode? value with
        | some char => doubleQuoted (char :: text) Gap.none .outside rest
        | none => none
      else doubleQuoted text Gap.none (.digits (due - 1) value) rest
  | .outside, glyph :: rest =>
    if glyph.isBreak then doubleQuoted text (gap.addBreak glyph.char) .outside rest
    else if glyph.isBlank then doubleQuoted text (gap.addBlank glyph.char) .outside rest
    else if isDocumentMark (glyph :: rest) then none
    else
      let filled := gap.fill ++ text
      if glyph.is doubleQuote then some (reading filled rest)
      else if glyph.is backslash then doubleQuoted filled Gap.none .started rest
      else doubleQuoted (glyph.char :: filled) Gap.none .outside rest

/-! ## Block scalars -/

/-- What becomes of the line breaks at the end of a block scalar. -/
inductive Chomp where
  | strip
  | clip
  | keep
  deriving Repr, DecidableEq

def chompOf? (glyph : Glyph) : Option Chomp :=
  if glyph.is '+' then some .keep else if glyph.is '-' then some .strip else none

/-- The chomping sign that is next, if any. -/
def takeChomp : List Glyph → Option Chomp × List Glyph
  | [] => (none, [])
  | glyph :: rest =>
    match chompOf? glyph with
    | some chomp => (some chomp, rest)
    | none => (none, glyph :: rest)

/-- The indentation digit that is next, if any. Zero is no indentation. -/
def takeIndent : List Glyph → Option (Option Nat × List Glyph)
  | [] => some (none, [])
  | glyph :: rest =>
    if glyph.is '0' then none
    else if glyph.char.isDigit then some (some (glyph.char.toNat - 48), rest)
    else some (none, glyph :: rest)

/-- The header of a block scalar after its indicator: chomping and indentation in either order. -/
def blockHeader (glyphs : List Glyph) : Option (Chomp × Option Nat × List Glyph) := do
  let (before, rest) := takeChomp glyphs
  let (indent, rest) ← takeIndent rest
  let (after, rest) := if before.isNone && indent.isSome then takeChomp rest else (none, rest)
  let rest := dropComment (dropBlanks rest)
  if atLineEnd rest then some (((before <|> after).getD .clip), indent, dropBreak rest) else none

/-- The greatest column that spaces reach in the blank lines at the start and in the line after
them. A tab in the indentation is refused. -/
def detectIndent (greatest : Nat) : List Glyph → Option Nat
  | [] => some greatest
  | glyph :: rest =>
    if glyph.is ' ' then detectIndent (max greatest (glyph.column + 1)) rest
    else if glyph.is '\t' then none
    else if glyph.isBreak then detectIndent greatest rest
    else some greatest

/-- A block scalar under construction. `first` is the line break that ended the last line with
text, `more` are the blank lines after it, reversed. -/
structure Block where
  isFolded : Bool
  chomp : Chomp
  indent : Nat
  text : List Char := []
  first : Option Char := none
  more : List Char := []
  afterBlank : Bool := false
  deriving Repr, DecidableEq

namespace Block

/-- Joins the next line with text, which starts with `char`. A folded block joins two lines that
both start with text by a space. -/
def startLine (block : Block) (char : Char) : Block :=
  let blank := char == ' ' || char == '\t'
  let folds := block.isFolded && block.first == some '\n' && !block.afterBlank && !blank
  let joint :=
    if folds then if block.more.isEmpty then [' '] else block.more
    else block.more ++ block.first.toList
  { block with
    text := char :: (joint ++ block.text), first := none, more := [], afterBlank := blank }

def finish (block : Block) : List Char :=
  let first := if block.chomp = .strip then [] else block.first.toList
  let more := if block.chomp = .keep then block.more else []
  more ++ first ++ block.text

/-- Reads the lines of a block scalar; `inLine` tells whether a line with text is under way. -/
def scan (block : Block) (inLine : Bool) : List Glyph → Option Reading
  | [] => some (reading block.finish [])
  | glyph :: rest =>
    if inLine then
      if glyph.isBreak then { block with first := some glyph.char }.scan false rest
      else { block with text := glyph.char :: block.text }.scan true rest
    else if glyph.column < block.indent && glyph.is ' ' then block.scan false rest
    else if glyph.column < block.indent && glyph.is '\t' then none
    else if glyph.isBreak then { block with more := glyph.char :: block.more }.scan false rest
    else if glyph.column = block.indent then (block.startLine glyph.char).scan true rest
    else some (reading block.finish (glyph :: rest))

end Block

/-- Reads a block scalar after its indicator, in a collection indented by `outer`. -/
def blockScalar (isFolded : Bool) (outer : Int) (glyphs : List Glyph) : Option Reading := do
  let (chomp, given, rest) ← blockHeader glyphs
  let indent ← match given with
    | some step => some ((max outer 0).toNat + step)
    | none => (detectIndent 0 rest).map fun column => max (max column (outer + 1).toNat) 1
  { isFolded, chomp, indent : Block }.scan false rest

end BoardBench.Yaml
