import BoardBench.Host.Echo

/-!
# Commands

The text of a shell script as a list of commands. A word is kept in pieces, because the value of a
variable is put in only when its command runs. A command may depend on how the one before it ended.
-/
namespace BoardBench.Host

inductive Piece where
  | char (char : Char)
  /-- Between double quotes a value is not cut at its blanks. -/
  | value (name : String) (quoted : Bool)
  /-- Quotes make a word even of no characters. -/
  | quotes
  deriving Repr, DecidableEq

abbrev Word := List Piece

/-- After which end of the command before it a command runs. -/
inductive Link where
  | always
  | onSuccess
  | onFailure
  deriving Repr, DecidableEq

def Link.admits (link : Link) (code : Int) : Bool :=
  match link with
  | always => true
  | onSuccess => code == 0
  | onFailure => code != 0

structure Command where
  /-- The line on which the first word ends. -/
  line : Nat
  link : Link
  words : List Word
  deriving Repr, DecidableEq

/-- How the next character of a script is taken. -/
inductive Quoting where
  | bare
  | single
  | double
  | comment
  deriving Repr, DecidableEq

/-- A script under way: a word that may still grow, the words of the command in front of it, and the
commands in front of that, all reversed. -/
structure Reader where
  quoting : Quoting := .bare
  /-- The last character was a backslash that takes the next one as it is. -/
  escaped : Bool := false
  /-- The name of a variable under way, reversed. -/
  name : Option (List Char) := none
  /-- A brace closes the name. -/
  braced : Bool := false
  word : Option Word := none
  words : List Word := []
  commands : List Command := []
  link : Link := .always
  /-- The current line, and the one on which the first word of the command ended. -/
  line : Nat := 1
  start : Nat := 1

def singleQuote : Char := Char.ofNat 39
def backquote : Char := Char.ofNat 96

/-- Characters that a backslash between double quotes frees of their meaning. -/
def isFreed (char : Char) : Bool :=
  [doubleQuote, backslash, backquote, '$'].contains char

def isNameLetter (char : Char) : Bool :=
  char.isAlphanum || char == '_'

/-- Characters that are a name on their own. -/
def isShortName (char : Char) : Bool :=
  char.isDigit || "?$#@*".toList.contains char

namespace Reader

def add (reader : Reader) (piece : Piece) : Reader :=
  { reader with word := some (piece :: reader.word.getD []) }

def endWord (reader : Reader) : Reader :=
  match reader.word with
  | some word =>
    { reader with
      words := word.reverse :: reader.words
      word := none
      start := if reader.words.isEmpty then reader.line else reader.start }
  | none => reader

/-- Ends a command. One without words is none, and leaves the next one linked as it was. -/
def endCommand (reader : Reader) : Reader :=
  let ended := reader.endWord
  if ended.words.isEmpty then ended
  else
    let words := ended.words.reverse
    let command : Command := { line := ended.start, link := ended.link, words }
    { ended with commands := command :: ended.commands, words := [], link := .always }

/-- Ends a name that is under way. A name of no letters is a plain character. -/
def endName (reader : Reader) : Reader :=
  match reader.name with
  | none => reader
  | some reversed =>
    let name := String.ofList reversed.reverse
    let ended := { reader with name := none, braced := false }
    ended.add (if name.isEmpty then .char '$' else .value name (reader.quoting = .double))

/-- Takes the character after a backslash, which between double quotes is kept in front of most
characters. A line break is dropped. -/
def takeEscaped (reader : Reader) (char : Char) : Reader :=
  let plain := { reader with escaped := false }
  if char == '\n' then plain
  else if reader.quoting = .double && !isFreed char then
    (plain.add (.char backslash)).add (.char char)
  else plain.add (.char char)

/-- Takes a character outside quotes. -/
def takeBare (reader : Reader) (char : Char) : Reader :=
  if char == singleQuote then { reader with quoting := .single }.add .quotes
  else if char == doubleQuote then { reader with quoting := .double }.add .quotes
  else if char == backslash then { reader with escaped := true }
  else if char == '$' then { reader with name := some [] }
  else if char == ';' || char == '\n' then reader.endCommand
  else if char == ' ' || char == '\t' then reader.endWord
  else if char == '#' && reader.word.isNone then { reader with quoting := .comment }
  else reader.add (.char char)

/-- Takes a character that belongs to no name. -/
def takeChar (reader : Reader) (char : Char) : Reader :=
  if reader.escaped then reader.takeEscaped char
  else
    match reader.quoting with
    | .bare => reader.takeBare char
    | .comment => if char == '\n' then { reader with quoting := .bare }.endCommand else reader
    | .single =>
      if char == singleQuote then { reader with quoting := .bare } else reader.add (.char char)
    | .double =>
      if char == doubleQuote then { reader with quoting := .bare }
      else if char == backslash then { reader with escaped := true }
      else if char == '$' then { reader with name := some [] }
      else reader.add (.char char)

/-- Takes a character, which may continue a name. -/
def take (reader : Reader) (char : Char) : Reader :=
  match reader.name with
  | none => reader.takeChar char
  | some name =>
    let longer := { reader with name := some (char :: name) }
    if reader.braced then if char == '\x7d' then reader.endName else longer
    else if name.isEmpty && char == '\x7b' then { reader with braced := true }
    else if name.isEmpty && isShortName char then longer.endName
    else if isNameLetter char then longer
    else reader.endName.takeChar char

/-- Takes the next character of a script. -/
def step (reader : Reader) (char : Char) : Reader :=
  let next := reader.take char
  if char == '\n' then { next with line := next.line + 1 } else next

/-- No quotes and no braces are open. -/
def isOutside (reader : Reader) : Bool :=
  reader.quoting = .bare && !reader.escaped && !reader.braced

/-- Ends a command after which the next one is linked. -/
def linkNext (reader : Reader) (link : Link) : Reader :=
  { reader.endName.endCommand with link }

/-- Takes the rest of a script. -/
def read (reader : Reader) : List Char → Reader
  | [] => reader.endName.endCommand
  | '&' :: '&' :: rest =>
    (if reader.isOutside then reader.linkNext .onSuccess
      else (reader.step '&').step '&').read rest
  | '|' :: '|' :: rest =>
    (if reader.isOutside then reader.linkNext .onFailure
      else (reader.step '|').step '|').read rest
  | char :: rest => (reader.step char).read rest

end Reader

/-- The commands of a script. -/
def commandsOf (script : String) : List Command :=
  (Reader.read {} script.toList).commands.reverse

end BoardBench.Host
