/-!
# Glyphs

The characters of a YAML text with the place where each one stands. All spellings of a line break
but the two Unicode separators become a line feed, so a pair of carriage return and line feed is
one glyph. Columns count characters; distances in the text are counted in bytes.
-/
namespace BoardBench.Yaml

structure Place where
  /-- How many bytes of the text stand before it. -/
  offset : Nat := 0
  line : Nat := 0
  column : Nat := 0
  deriving Repr, DecidableEq

structure Glyph where
  char : Char
  place : Place
  deriving Repr, DecidableEq

/-- The characters that may stand in a YAML text. -/
def isAllowed (char : Char) : Bool :=
  let code := char.toNat
  code == 0x9 || code == 0xA || code == 0xD || (0x20 ≤ code && code ≤ 0x7E) || code == 0x85 ||
    (0xA0 ≤ code && code ≤ 0xD7FF) || (0xE000 ≤ code && code ≤ 0xFFFD) || 0x10000 ≤ code

def carriageReturn : Char := Char.ofNat 0xD
def nextLine : Char := Char.ofNat 0x85
def byteOrderMark : Char := Char.ofNat 0xFEFF

def isSeparator (char : Char) : Bool :=
  char.toNat == 0x2028 || char.toNat == 0x2029

def Place.afterBreak (place : Place) (width : Nat) : Place :=
  { offset := place.offset + width, line := place.line + 1, column := 0 }

def Place.afterChar (place : Place) (width : Nat) : Place :=
  { place with offset := place.offset + width, column := place.column + 1 }

/-- The glyphs of a text, and the place where it ends. -/
def glyphsFrom (place : Place) : List Char → List Glyph × Place
  | [] => ([], place)
  | char :: rest =>
    match char, rest with
    | '\r', '\n' :: more =>
      let (glyphs, finish) := glyphsFrom (place.afterBreak 2) more
      (⟨'\n', place⟩ :: glyphs, finish)
    | char, rest =>
      let isBreak := char == '\n' || char == carriageReturn || char == nextLine
      let width := char.utf8Size
      let next :=
        if isBreak || isSeparator char then place.afterBreak width else place.afterChar width
      let (glyphs, finish) := glyphsFrom next rest
      (⟨if isBreak then '\n' else char, place⟩ :: glyphs, finish)

namespace Glyph

def is (glyph : Glyph) (char : Char) : Bool :=
  glyph.char == char

def column (glyph : Glyph) : Nat :=
  glyph.place.column

def isBreak (glyph : Glyph) : Bool :=
  glyph.char == '\n' || isSeparator glyph.char

def isBlank (glyph : Glyph) : Bool :=
  glyph.char == ' ' || glyph.char == '\t'

end Glyph

/-- A blank, a line break or the end of the text comes next. -/
def atGap : List Glyph → Bool
  | [] => true
  | glyph :: _ => glyph.isBlank || glyph.isBreak

/-- A line break or the end of the text comes next. -/
def atLineEnd : List Glyph → Bool
  | [] => true
  | glyph :: _ => glyph.isBreak

/-- The character is next and a gap follows it. -/
def standsAlone (char : Char) : List Glyph → Bool
  | [] => false
  | glyph :: rest => glyph.is char && atGap rest

/-- Three times the character at the start of a line, and a gap. -/
def isLineMark (char : Char) : List Glyph → Bool
  | first :: second :: third :: rest =>
    first.column == 0 && first.is char && second.is char && third.is char && atGap rest
  | _ => false

/-- The line starts or ends a document. -/
def isDocumentMark (glyphs : List Glyph) : Bool :=
  isLineMark '-' glyphs || isLineMark '.' glyphs

def dropBlanks (glyphs : List Glyph) : List Glyph :=
  glyphs.dropWhile Glyph.isBlank

/-- Drops a comment that starts here. -/
def dropComment (glyphs : List Glyph) : List Glyph :=
  match glyphs with
  | glyph :: _ => if glyph.is '#' then glyphs.dropWhile fun other => !other.isBreak else glyphs
  | [] => []

/-- Drops one line break, if one is next. -/
def dropBreak : List Glyph → List Glyph
  | [] => []
  | glyph :: rest => if glyph.isBreak then rest else glyph :: rest

/-- Letters of the names of anchors, handles and directives. -/
def isNameChar (glyph : Glyph) : Bool :=
  glyph.char.isAlphanum || glyph.char == '_' || glyph.char == '-'

def textOf (glyphs : List Glyph) : String :=
  String.ofList (glyphs.map Glyph.char)

end BoardBench.Yaml
