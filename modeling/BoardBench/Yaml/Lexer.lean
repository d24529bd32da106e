import BoardBench.Yaml.Token

/-!
# The lexer

Cuts a text into tokens. Block structure comes from columns: a token further right than the
current block opens a block, a token further left closes blocks. A key that has no indicator is
recognized only at the colon after it, so the place of each possible key is remembered, one for
each level of flow collections, and the tokens that announce the key are put in front of it later.
-/
namespace BoardBench.Yaml

/-- A token that a colon after it would turn into a key. -/
structure Candidate where
  token : Nat
  place : Place
  /-- Nothing but a key may stand here. -/
  required : Bool
  deriving Repr, DecidableEq

structure Lexer where
  rest : List Glyph
  finish : Place
  tokens : Array Token := #[]
  indent : Int := -1
  outer : List Int := []
  /-- The possible key outside flow collections. Only this one may be required. -/
  candidate : Option Candidate := none
  /-- The possible key of each flow collection, innermost first. -/
  flow : List (Option Candidate) := []
  keyAllowed : Bool := true

namespace Lexer

def place (lexer : Lexer) : Place :=
  match lexer.rest with
  | glyph :: _ => glyph.place
  | [] => lexer.finish

def inFlow (lexer : Lexer) : Bool :=
  !lexer.flow.isEmpty

def emit (lexer : Lexer) (token : Token) : Lexer :=
  { lexer with tokens := lexer.tokens.push token }

/-- Drops white space and comments up to the next token. A line break outside flow collections
allows a key again. A tab is white space only where no key may start. -/
def skip (inFlow : Bool) (keyAllowed inComment : Bool) : List Glyph → Bool × List Glyph
  | [] => (keyAllowed, [])
  | glyph :: rest =>
    if glyph.isBreak then skip inFlow (keyAllowed || !inFlow) false rest
    else if inComment then skip inFlow keyAllowed true rest
    else if glyph.column = 0 && glyph.is byteOrderMark then skip inFlow keyAllowed false rest
    else if glyph.is ' ' || (glyph.is '\t' && (inFlow || !keyAllowed)) then
      skip inFlow keyAllowed false rest
    else if glyph.is '#' then skip inFlow keyAllowed true rest
    else (keyAllowed, glyph :: rest)

/-- A key ends on its line and within 1024 bytes. -/
def isStale (now : Place) (candidate : Candidate) : Bool :=
  candidate.place.line < now.line || candidate.place.offset + 1024 < now.offset

/-- Forgets a possible key that is too far away and not required. -/
def fresh? (now : Place) : Option Candidate → Option (Option Candidate)
  | none => some none
  | some candidate =>
    if isStale now candidate then if candidate.required then none else some none
    else some (some candidate)

/-- Forgets the possible keys that are too far away; a required one must not be among them. Those
of outer flow collections can wait, since they will be still further away. -/
def dropStale (lexer : Lexer) : Option Lexer := do
  let candidate ← fresh? lexer.place lexer.candidate
  match lexer.flow with
  | [] => return { lexer with candidate }
  | inner :: more => return { lexer with candidate, flow := (← fresh? lexer.place inner) :: more }

/-- The possible key of the current level. -/
def current (lexer : Lexer) : Option Candidate :=
  match lexer.flow with
  | [] => lexer.candidate
  | inner :: _ => inner

/-- Replaces the possible key of the current level. -/
def setCurrent (lexer : Lexer) (candidate : Option Candidate) : Lexer :=
  match lexer.flow with
  | [] => { lexer with candidate }
  | _ :: more => { lexer with flow := candidate :: more }

/-- Forgets the possible key of the current level. -/
def dropCandidate (lexer : Lexer) : Option Lexer :=
  if lexer.current.any Candidate.required then none else some (lexer.setCurrent none)

/-- Remembers that the next token may be a key. -/
def saveCandidate (lexer : Lexer) : Option Lexer := do
  if lexer.keyAllowed then
    let required := !lexer.inFlow && lexer.indent == (lexer.place.column : Int)
    let candidate : Candidate := { token := lexer.tokens.size, place := lexer.place, required }
    let lexer ← lexer.dropCandidate
    return lexer.setCurrent (some candidate)
  else some lexer

/-- Opens a block at a column right of the current one. -/
def roll (lexer : Lexer) (column : Nat) (at? : Option Nat) (token : Token) : Lexer :=
  if !lexer.inFlow && lexer.indent < (column : Int) then
    { lexer with
      outer := lexer.indent :: lexer.outer
      indent := column
      tokens := lexer.tokens.insertIdxIfInBounds (at?.getD lexer.tokens.size) token }
  else lexer

/-- Closes the blocks right of a column. -/
def closeBlocks (column : Int) : Int → List Int → Array Token → Int × List Int × Array Token
  | indent, [], tokens => (indent, [], tokens)
  | indent, next :: outer, tokens =>
    if column < indent then closeBlocks column next outer (tokens.push .blockEnd)
    else (indent, next :: outer, tokens)

def unroll (lexer : Lexer) (column : Int) : Lexer :=
  if lexer.inFlow then lexer
  else
    let (indent, outer, tokens) := closeBlocks column lexer.indent lexer.outer lexer.tokens
    { lexer with indent, outer, tokens }

/-- Emits a token and goes on behind it. -/
def take (lexer : Lexer) (token : Token) (rest : List Glyph) (keyAllowed : Bool) : Lexer :=
  { lexer.emit token with rest, keyAllowed }

def fetchDirective (lexer : Lexer) (rest : List Glyph) : Option Lexer := do
  let lexer ← (lexer.unroll (-1)).dropCandidate
  let (token, rest) ← directive? rest
  return lexer.take token rest false

def fetchDocumentMark (lexer : Lexer) (token : Token) : Option Lexer := do
  let lexer ← (lexer.unroll (-1)).dropCandidate
  return lexer.take token (lexer.rest.drop 3) false

def fetchFlowStart (lexer : Lexer) (token : Token) (rest : List Glyph) : Option Lexer := do
  let lexer ← lexer.saveCandidate
  return { lexer with flow := none :: lexer.flow }.take token rest true

def fetchFlowEnd (lexer : Lexer) (token : Token) (rest : List Glyph) : Option Lexer := do
  let lexer ← lexer.dropCandidate
  return { lexer with flow := lexer.flow.drop 1 }.take token rest false

def fetchFlowEntry (lexer : Lexer) (rest : List Glyph) : Option Lexer := do
  let lexer ← lexer.dropCandidate
  return lexer.take .flowEntry rest true

/-- Opens a block for an indicator that stands for an entry, where a key could stand. -/
def openBlock (lexer : Lexer) (token : Token) : Option Lexer :=
  if lexer.inFlow then some lexer
  else if lexer.keyAllowed then some (lexer.roll lexer.place.column none token)
  else none

def fetchBlockEntry (lexer : Lexer) (rest : List Glyph) : Option Lexer := do
  let lexer ← lexer.openBlock .blockSequenceStart
  let lexer ← lexer.dropCandidate
  return lexer.take .blockEntry rest true

def fetchKey (lexer : Lexer) (rest : List Glyph) : Option Lexer := do
  let lexer ← lexer.openBlock .blockMappingStart
  let lexer ← lexer.dropCandidate
  return lexer.take .key rest (!lexer.inFlow)

def fetchValue (lexer : Lexer) (rest : List Glyph) : Option Lexer := do
  match lexer.current with
  | some candidate =>
    let forgotten := lexer.setCurrent none
    let keyed := { forgotten with
      tokens := forgotten.tokens.insertIdxIfInBounds candidate.token .key }
    let opened := keyed.roll candidate.place.column (some candidate.token) .blockMappingStart
    return opened.take .value rest false
  | none =>
    let lexer ← lexer.openBlock .blockMappingStart
    return lexer.take .value rest (!lexer.inFlow)

/-- Takes a token that could be a key. -/
def fetchNode (lexer : Lexer) (read : Option (Token × List Glyph)) : Option Lexer := do
  let lexer ← lexer.saveCandidate
  let (token, rest) ← read
  return lexer.take token rest false

def fetchBlockScalar (lexer : Lexer) (isFolded : Bool) (rest : List Glyph) : Option Lexer := do
  let lexer ← lexer.dropCandidate
  let found ← blockScalar isFolded lexer.indent rest
  let style := if isFolded then Style.folded else .literal
  return lexer.take (.scalar found.text style) found.rest true

def fetchPlain (lexer : Lexer) : Option Lexer := do
  let lexer ← lexer.saveCandidate
  let found ← plain lexer.inFlow (lexer.indent + 1) [] Gap.none lexer.rest
  return lexer.take (.scalar found.text .plain) found.rest found.newLine

/-- Characters that start something else than a plain scalar. -/
def isIndicator (glyph : Glyph) : Bool :=
  "-?:,[]\x7b\x7d#&*!|>%@".toList.contains glyph.char || glyph.is singleQuote ||
    glyph.is doubleQuote || glyph.char.toNat == 96

/-- A plain scalar may start here: with an ordinary character, or with `-`, `?` or `:` in front of
an ordinary one. -/
def startsPlain (inFlow : Bool) (glyphs : List Glyph) : Bool :=
  match glyphs with
  | [] => false
  | glyph :: rest =>
    (!atGap glyphs && !isIndicator glyph) ||
      (glyph.is '-' && match rest with
        | next :: _ => !next.isBlank
        | [] => true) ||
      (!inFlow && (glyph.is '?' || glyph.is ':') && !atGap rest)

/-- Takes the token that starts with the next glyph. -/
def fetch (lexer : Lexer) (glyph : Glyph) (rest : List Glyph) : Option Lexer :=
  let glyphs := glyph :: rest
  if glyph.column = 0 && glyph.is '%' then lexer.fetchDirective rest
  else if isLineMark '-' glyphs then lexer.fetchDocumentMark .documentStart
  else if isLineMark '.' glyphs then lexer.fetchDocumentMark .documentEnd
  else if glyph.is '[' then lexer.fetchFlowStart .flowSequenceStart rest
  else if glyph.is '\x7b' then lexer.fetchFlowStart .flowMappingStart rest
  else if glyph.is ']' then lexer.fetchFlowEnd .flowSequenceEnd rest
  else if glyph.is '\x7d' then lexer.fetchFlowEnd .flowMappingEnd rest
  else if glyph.is ',' then lexer.fetchFlowEntry rest
  else if standsAlone '-' glyphs then lexer.fetchBlockEntry rest
  else if glyph.is '?' && (lexer.inFlow || atGap rest) then lexer.fetchKey rest
  else if glyph.is ':' && (lexer.inFlow || atGap rest) then lexer.fetchValue rest
  else if glyph.is '*' then
    lexer.fetchNode ((anchorName? rest).map fun (name, rest) => (.aliasOf name, rest))
  else if glyph.is '&' then
    lexer.fetchNode ((anchorName? rest).map fun (name, rest) => (.anchor name, rest))
  else if glyph.is '!' then lexer.fetchNode (tag? lexer.inFlow glyphs)
  else if glyph.is '|' && !lexer.inFlow then lexer.fetchBlockScalar false rest
  else if glyph.is '>' && !lexer.inFlow then lexer.fetchBlockScalar true rest
  else if glyph.is singleQuote then
    lexer.fetchNode ((singleQuoted [] Gap.none rest).map fun found =>
      (.scalar found.text .singleQuoted, found.rest))
  else if glyph.is doubleQuote then
    lexer.fetchNode ((doubleQuoted [] Gap.none .outside rest).map fun found =>
      (.scalar found.text .doubleQuoted, found.rest))
  else if startsPlain lexer.inFlow glyphs then lexer.fetchPlain
  else none

/-- The end of the text closes all blocks; a key that is due must not be missing. -/
def close (lexer : Lexer) : Option (List Token) := do
  let lexer ← (lexer.unroll (-1)).dropCandidate
  return lexer.tokens.toList

/-- Takes tokens up to the end of the text, at most as many as `fuel`. -/
def run (fuel : Nat) (lexer : Lexer) : Option (List Token) := do
  match fuel with
  | 0 => none
  | fuel + 1 =>
    let (keyAllowed, rest) := skip lexer.inFlow lexer.keyAllowed false lexer.rest
    let lexer ← { lexer with keyAllowed, rest }.dropStale
    let lexer := lexer.unroll lexer.place.column
    match lexer.rest with
    | [] => lexer.close
    | glyph :: more => run fuel (← lexer.fetch glyph more)

end Lexer

/-- The tokens of a text. Each one is at least one character long. -/
def tokens? (text : List Char) : Option (List Token) :=
  if text.all isAllowed then
    let (rest, finish) := glyphsFrom {} text
    { rest, finish : Lexer }.run (text.length + 1)
  else none

end BoardBench.Yaml
