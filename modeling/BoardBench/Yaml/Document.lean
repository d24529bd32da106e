import BoardBench.Yaml.Lexer
import BoardBench.Yaml.Node

/-!
# Documents

Builds the tree of a document from its tokens by recursive descent. Every step is bounded by a
number of calls, which the number of tokens gives. A text may hold at most one document.
-/
namespace BoardBench.Yaml

/-- Where a composition stands: the tokens to come, the tag handles in force, and the anchors by
name. -/
structure Composer where
  rest : List Token
  handles : List (String × Bytes) := []
  anchors : List (String × Nat) := []

abbrev Compose := StateT Composer Option

namespace Compose

def peek : Compose (Option Token) := do
  return (← get).rest.head?

def skip : Compose Unit :=
  modify fun composer => { composer with rest := composer.rest.drop 1 }

def fail {α : Type} : Compose α :=
  fun _ => none

/-- Takes the given token, if it is next. -/
def accept (token : Token) : Compose Bool := do
  if (← peek) = some token then
    skip
    return true
  else return false

def expect (token : Token) : Compose Unit := do
  if !(← accept token) then fail

/-- One of the tokens is next, or no token is left. -/
def atAny (tokens : List Token) : Compose Bool := do
  match ← peek with
  | some token => return tokens.contains token
  | none => return true

/-- Gives an anchor name its number: how many distinct names there were before. -/
def define (name : String) : Compose Nat := do
  let composer ← get
  let number := composer.anchors.length
  let others := composer.anchors.filter fun entry => entry.1 != name
  set { composer with anchors := (name, number) :: others }
  return number

/-- Anchor and tag of a node, in either order. -/
structure Properties where
  anchor : Option String := none
  tag : Option (String × Bytes) := none

def properties : Compose Properties := do
  match ← peek with
  | some (.anchor name) =>
    skip
    match ← peek with
    | some (.tag handle suffix) =>
      skip
      return { anchor := some name, tag := some (handle, suffix) }
    | _ => return { anchor := some name }
  | some (.tag handle suffix) =>
    skip
    match ← peek with
    | some (.anchor name) =>
      skip
      return { anchor := some name, tag := some (handle, suffix) }
    | _ => return { tag := some (handle, suffix) }
  | _ => return {}

/-- The full tag: its handle replaced by what the handle stands for. -/
def fullTag : Option (String × Bytes) → Compose (Option Bytes)
  | none => return none
  | some (handle, suffix) => do
    if handle.isEmpty then return some suffix
    else
      match (← get).handles.lookup handle with
      | some leading => return some (leading ++ suffix)
      | none => fail

mutual
/-- A node. Block collections may start only where `block` holds; `indentless` allows a sequence
whose entries stand at the column of the mapping around it. -/
def node (fuel : Nat) (block indentless : Bool) : Compose Node := do
  match fuel with
  | 0 => fail
  | fuel + 1 =>
    match ← peek with
    | some (.aliasOf name) =>
      skip
      match (← get).anchors.lookup name with
      | some anchor => return .aliasOf anchor
      | none => fail
    | _ =>
      let found ← properties
      let tag ← fullTag found.tag
      match ← peek with
      | some (.scalar text style) =>
        skip
        let anchor ← found.anchor.mapM define
        return .scalar anchor tag style text
      | some .flowSequenceStart =>
        skip
        let anchor ← found.anchor.mapM define
        return .sequence anchor tag (← flowItems fuel true)
      | some .flowMappingStart =>
        skip
        let anchor ← found.anchor.mapM define
        return .mapping anchor tag (← flowEntries fuel true)
      | next =>
        if indentless && next = some .blockEntry then
          let anchor ← found.anchor.mapM define
          return .sequence anchor tag (← indentlessItems fuel)
        else if block && next = some .blockSequenceStart then
          skip
          let anchor ← found.anchor.mapM define
          return .sequence anchor tag (← blockItems fuel)
        else if block && next = some .blockMappingStart then
          skip
          let anchor ← found.anchor.mapM define
          return .mapping anchor tag (← blockEntries fuel)
        else if found.anchor.isSome || tag.isSome then
          let anchor ← found.anchor.mapM define
          return .scalar anchor tag .plain ""
        else fail

/-- A node, or a missing one in front of one of the tokens. -/
def nodeUnless (fuel : Nat) (block indentless : Bool) (tokens : List Token) : Compose Node := do
  match fuel with
  | 0 => fail
  | fuel + 1 => if ← atAny tokens then return .missing else node fuel block indentless

/-- The entries of a block sequence up to its end. -/
def blockItems (fuel : Nat) : Compose (List Node) := do
  match fuel with
  | 0 => fail
  | fuel + 1 =>
    if ← accept .blockEntry then
      let item ← nodeUnless fuel true false [.blockEntry, .blockEnd]
      return item :: (← blockItems fuel)
    else
      expect .blockEnd
      return []

/-- The entries of a sequence that has no indentation of its own. -/
def indentlessItems (fuel : Nat) : Compose (List Node) := do
  match fuel with
  | 0 => fail
  | fuel + 1 =>
    if ← accept .blockEntry then
      let item ← nodeUnless fuel true false [.blockEntry, .key, .value, .blockEnd]
      return item :: (← indentlessItems fuel)
    else return []

/-- The entries of a block mapping up to its end. -/
def blockEntries (fuel : Nat) : Compose (List (Node × Node)) := do
  match fuel with
  | 0 => fail
  | fuel + 1 =>
    if ← accept .key then
      let key ← nodeUnless fuel true true [.key, .value, .blockEnd]
      let value ←
        if ← accept .value then nodeUnless fuel true true [.key, .value, .blockEnd]
        else pure .missing
      return (key, value) :: (← blockEntries fuel)
    else
      expect .blockEnd
      return []

/-- The entries of a flow sequence up to its end; commas stand between them and may end the last
one. -/
def flowItems (fuel : Nat) (first : Bool) : Compose (List Node) := do
  match fuel with
  | 0 => fail
  | fuel + 1 =>
    if ← accept .flowSequenceEnd then return []
    else
      if !first then expect .flowEntry
      if ← accept .flowSequenceEnd then return []
      else if ← accept .key then
        let pair ← flowPair fuel
        return .mapping none none [pair] :: (← flowItems fuel false)
      else
        let item ← node fuel false false
        return item :: (← flowItems fuel false)

/-- A single entry of a mapping that stands in a flow sequence, after its key indicator. The token
that follows a missing key is lost. -/
def flowPair (fuel : Nat) : Compose (Node × Node) := do
  match fuel with
  | 0 => fail
  | fuel + 1 =>
    let key ←
      if ← atAny [.value, .flowEntry, .flowSequenceEnd] then do
        skip
        pure .missing
      else node fuel false false
    let value ←
      if ← accept .value then nodeUnless fuel false false [.flowEntry, .flowSequenceEnd]
      else pure .missing
    return (key, value)

/-- The entries of a flow mapping up to its end. -/
def flowEntries (fuel : Nat) (first : Bool) : Compose (List (Node × Node)) := do
  match fuel with
  | 0 => fail
  | fuel + 1 =>
    if ← accept .flowMappingEnd then return []
    else
      if !first then expect .flowEntry
      if ← accept .flowMappingEnd then return []
      else if ← accept .key then
        let key ← nodeUnless fuel false false [.value, .flowEntry, .flowMappingEnd]
        let value ←
          if ← accept .value then nodeUnless fuel false false [.flowEntry, .flowMappingEnd]
          else pure .missing
        return (key, value) :: (← flowEntries fuel false)
      else
        let key ← node fuel false false
        return (key, .missing) :: (← flowEntries fuel false)
end

/-- The tag handles that need no directive. -/
def standardHandles : List (String × Bytes) :=
  [("!", encode "!"), ("!!", encode "tag:yaml.org,2002:")]

/-- Reads the directives in front of a document. -/
def directives (version : Bool) : List Token → Compose Unit
  | .versionDirective major minor :: rest => do
    if version || major != 1 || (minor != 1 && minor != 2) then fail
    skip
    directives true rest
  | .tagDirective handle leading :: rest => do
    let composer ← get
    if (composer.handles.lookup handle).isSome then fail
    set { composer with handles := composer.handles ++ [(handle, leading)] }
    skip
    directives version rest
  | _ => return

/-- The root of the first document; none if there is no document. -/
def root (fuel : Nat) : Compose (Option Node) := do
  match ← peek with
  | none => return none
  | some token =>
    let explicit := match token with
      | .versionDirective .. | .tagDirective .. | .documentStart => true
      | _ => false
    if explicit then
      directives false (← get).rest
      modify fun composer => { composer with handles := composer.handles ++ standardHandles }
      expect .documentStart
      match ← peek with
      | none | some .documentStart | some .documentEnd | some (.versionDirective ..)
      | some (.tagDirective ..) => return some .missing
      | _ => return some (← node fuel true false)
    else
      modify fun composer => { composer with handles := standardHandles }
      return some (← node fuel true false)

/-- Only ends of documents may follow the first document. -/
def document (fuel : Nat) : Compose (Option Node) := do
  let found ← root fuel
  if (← get).rest.all (· = .documentEnd) then return found else fail

end Compose

/-- What a text denotes: a tree, or nothing when it is empty; and no document at all (`none`) when
the text is malformed. -/
def document? (text : String) : Option (Option Node) := do
  let tokens ← tokens? text.toList
  let (found, _) ← (Compose.document (4 * tokens.length + 4)).run { rest := tokens }
  return found

end BoardBench.Yaml
