import BoardBench.Yaml.Scalar
import BoardBench.Text.Utf8

/-!
# Tokens

The lexical parts of a YAML text. Besides the indicators and scalars there are tokens for what
indentation means: the start and end of block collections. This module reads the tokens that need
no context: directives, anchors and tags.
-/
namespace BoardBench.Yaml

inductive Token where
  | versionDirective (major minor : Nat)
  | tagDirective (handle : String) (leading : Bytes)
  | documentStart
  | documentEnd
  | blockSequenceStart
  | blockMappingStart
  | blockEnd
  | flowSequenceStart
  | flowSequenceEnd
  | flowMappingStart
  | flowMappingEnd
  | blockEntry
  | flowEntry
  | key
  | value
  | aliasOf (name : String)
  | anchor (name : String)
  | tag (handle : String) (suffix : Bytes)
  | scalar (text : String) (style : Style)
  deriving Repr, DecidableEq

/-- The longest run of name characters, and what follows it. -/
def takeName (glyphs : List Glyph) : List Glyph × List Glyph :=
  (glyphs.takeWhile isNameChar, glyphs.dropWhile isNameChar)

/-! ## Anchors and aliases -/

def endsAnchor : List Glyph → Bool
  | [] => true
  | glyph :: rest =>
    atGap (glyph :: rest) || "?:,]\x7d%@".toList.contains glyph.char || glyph.char.toNat == 96

/-- The name of an anchor or alias, after its indicator. -/
def anchorName? (glyphs : List Glyph) : Option (String × List Glyph) :=
  let (name, rest) := takeName glyphs
  if name.isEmpty || !endsAnchor rest then none else some (textOf name, rest)

/-! ## Tags -/

def isUriChar (verbatim : Bool) (glyph : Glyph) : Bool :=
  isNameChar glyph || ";/?:@&=+$.%!~*()".toList.contains glyph.char || glyph.is singleQuote ||
    (verbatim && (glyph.is ',' || glyph.is '[' || glyph.is ']'))

/-- How many bytes must follow a byte that stands for the start of a character. -/
def followers? (byte : Nat) : Option Nat :=
  if byte < 0x80 then some 0
  else if 0xC0 ≤ byte ∧ byte ≤ 0xDF then some 1
  else if 0xE0 ≤ byte ∧ byte ≤ 0xEF then some 2
  else if 0xF0 ≤ byte ∧ byte ≤ 0xF7 then some 3
  else none

/-- The bytes of a tag text with its percent escapes decoded; `due` tells how many escapes must
still follow to complete a character. Only the shape of the escaped bytes counts, so they may be
no character at all. -/
def uriBytes? (due : Nat) : List Char → Option Bytes
  | [] => if due = 0 then some [] else none
  | '%' :: high :: low :: rest => do
    let byte := 16 * (← hexValue? high) + (← hexValue? low)
    let due ←
      if due = 0 then followers? byte
      else if 0x80 ≤ byte ∧ byte ≤ 0xBF then some (due - 1)
      else none
    let more ← uriBytes? due rest
    return UInt8.ofNat byte :: more
  | char :: rest => do
    if due = 0 ∧ char ≠ '%' then
      let more ← uriBytes? 0 rest
      return UInt8.ofNat char.toNat :: more
    else none

/-- A tag text ends in front of its first zero byte. -/
def untilZero (bytes : Bytes) : Bytes :=
  bytes.takeWhile fun byte => byte != 0

/-- The run of characters that a tag may hold, decoded. It may be empty only after a part of the
tag that was read before. -/
def tagText? (verbatim mayBeEmpty : Bool) (glyphs : List Glyph) : Option (Bytes × List Glyph) := do
  let run := glyphs.takeWhile (isUriChar verbatim)
  if run.isEmpty && !mayBeEmpty then none
  else
    let bytes ← uriBytes? 0 (run.map Glyph.char)
    return (untilZero bytes, glyphs.dropWhile (isUriChar verbatim))

/-- A tag handle with its leading `!`; the flag tells whether a second one closes it. -/
def takeHandle : List Glyph → Option (String × Bool × List Glyph)
  | [] => none
  | mark :: rest =>
    if mark.is '!' then
      let (name, after) := takeName rest
      match after with
      | next :: more =>
        if next.is '!' then some (textOf (mark :: name ++ [next]), true, more)
        else some (textOf (mark :: name), false, after)
      | [] => some (textOf (mark :: name), false, [])
    else none

/-- The handle and suffix of a tag that starts at its `!`. A single `!` has no handle. -/
def tagParts? (glyphs : List Glyph) : Option (String × Bytes × List Glyph) := do
  match glyphs with
  | _ :: open_ :: inner =>
    if open_.is '<' then
      let (text, rest) ← tagText? true false inner
      match rest with
      | close :: rest => if close.is '>' then some ("", text, rest) else none
      | [] => none
    else shorthand
  | _ => shorthand
where
  shorthand : Option (String × Bytes × List Glyph) := do
    let (handle, closed, rest) ← takeHandle glyphs
    if closed then
      let (suffix, rest) ← tagText? false false rest
      return (handle, suffix, rest)
    else
      let (suffix, rest) ← tagText? false true rest
      let suffix := (encode handle).drop 1 ++ suffix
      return if suffix.isEmpty then ("", encode "!", rest) else ("!", suffix, rest)

/-- A tag must be followed by a gap, or by a comma in a flow collection. -/
def tag? (inFlow : Bool) (glyphs : List Glyph) : Option (Token × List Glyph) := do
  let (handle, suffix, rest) ← tagParts? glyphs
  let ends := match rest with
    | glyph :: _ => inFlow && glyph.is ','
    | [] => true
  if atGap rest || ends then some (.tag handle suffix, rest) else none

/-! ## Directives -/

/-- A version number of at most nine digits. -/
def versionNumber? (glyphs : List Glyph) : Option (Nat × List Glyph) :=
  let digits := glyphs.takeWhile fun glyph => glyph.char.isDigit
  if digits.isEmpty || 9 < digits.length then none
  else
    let value := digits.foldl (fun value glyph => 10 * value + (glyph.char.toNat - 48)) 0
    some (value, glyphs.drop digits.length)

def versionDirective? (glyphs : List Glyph) : Option (Token × List Glyph) := do
  let (major, rest) ← versionNumber? (dropBlanks glyphs)
  match rest with
  | dot :: rest =>
    if dot.is '.' then
      let (minor, rest) ← versionNumber? rest
      return (.versionDirective major minor, rest)
    else none
  | [] => none

def tagDirective? (glyphs : List Glyph) : Option (Token × List Glyph) := do
  let (handle, closed, rest) ← takeHandle (dropBlanks glyphs)
  if !closed && handle != "!" then none
  else
    match rest with
    | blank :: _ =>
      if blank.isBlank then
        let (leading, rest) ← tagText? true false (dropBlanks rest)
        if atGap rest then some (.tagDirective handle leading, rest) else none
      else none
    | [] => none

/-- A directive after its `%`, to the end of its line. -/
def directive? (glyphs : List Glyph) : Option (Token × List Glyph) := do
  let (name, rest) := takeName glyphs
  if !atGap rest then none
  else
    let (token, rest) ←
      if textOf name = "YAML" then versionDirective? rest
      else if textOf name = "TAG" then tagDirective? rest
      else none
    let rest := dropComment (dropBlanks rest)
    if atLineEnd rest then some (token, dropBreak rest) else none

end BoardBench.Yaml
