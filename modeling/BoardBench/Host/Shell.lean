import BoardBench.Files.Tree
import BoardBench.Host.Command
import BoardBench.Host.Script
import BoardBench.Text.Digit

/-!
# The shell

A small shell for the scripts that a command line may hold: commands in sequence and in chains,
variables, the commands that a shell has of its own, and programs. A command that is not known is
reported with its line, and a script ends with the code of its last command.
-/
namespace BoardBench.Host

/-- A shell under way. -/
structure Shell where
  name : String
  /-- The shell ends at the first command that fails. -/
  strict : Bool := false
  files : Files
  bindings : Bindings
  /-- The code of the last command. -/
  code : Int := 0

/-- What a program does that is started with the given files and variables. -/
abbrev Starter := Files → Bindings → List String → Except SystemError (List Action)

namespace Shell

/-! ## Words -/

/-- What stands in a word for the number of the shell's own process. -/
def ownProcess : String := "$$"

/-- What stands in a word for the number of the process that started the shell. -/
def parentProcess : String := "$PPID"

/-- The value of a variable. -/
def value (shell : Shell) (name : String) : String :=
  if name = "?" then toString shell.code
  else if [ownProcess, parentProcess].contains ("$" ++ name) then "$" ++ name
  else (shell.bindings.get? name).getD ""

/-- The texts that a word stands for, and the one that may still grow, all reversed. -/
structure Fields where
  ended : List String := []
  current : Option (List Char) := none

namespace Fields

def add (fields : Fields) (char : Char) : Fields :=
  { fields with current := some (char :: fields.current.getD []) }

def cut (fields : Fields) : Fields :=
  match fields.current with
  | some reversed =>
    { ended := String.ofList reversed.reverse :: fields.ended, current := none }
  | none => fields

def addValue (fields : Fields) (quoted : Bool) (value : List Char) : Fields :=
  value.foldl
    (fun fields char =>
      if !quoted && " \t\n".toList.contains char then fields.cut else fields.add char)
    fields

end Fields

/-- The texts that a word stands for. -/
def fields (shell : Shell) (word : Word) : List String :=
  let take (fields : Fields) : Piece → Fields
    | .char char => fields.add char
    | .quotes => { fields with current := some (fields.current.getD []) }
    | .value name quoted => fields.addValue quoted (shell.value name).toList
  (word.foldl take {}).cut.ended.reverse

/-- The text that a word stands for where it is not cut. -/
def text (shell : Shell) (word : Word) : String :=
  String.join (word.map fun piece =>
    match piece with
    | .char char => String.singleton char
    | .quotes => ""
    | .value name _ => shell.value name)

/-- The name and the value in a word that sets a variable. -/
def assignment? (word : Word) : Option (String × Word) :=
  let letter? : Piece → Option Char
    | .char char => if isNameLetter char then some char else none
    | _ => none
  let name := (word.takeWhile fun piece => (letter? piece).isSome).filterMap letter?
  match name, word.drop name.length with
  | first :: _, .char '=' :: rest =>
    if first.isDigit then none else some (String.ofList name, rest)
  | _, _ => none

/-- Words that join the two output streams, which are one already. -/
def joinsStreams (word : String) : Bool :=
  [">&2", "1>&2", "2>&1"].contains word

/-! ## Commands of the shell itself -/

/-- What a command does, and the shell after it. -/
abbrev Outcome := List Action × Shell

/-- A command ends with a code. -/
def left (shell : Shell) (code : Int) (actions : List Action) : Outcome :=
  (actions, { shell with code })

/-- The shell reports something on a line. -/
def tell (shell : Shell) (line : Nat) (report : String) : Action :=
  .write (encode (shell.name ++ ": " ++ toString line ++ ": " ++ report ++ "\n"))

/-- The code of a command that is misused. -/
def misuse : Int := 2

/-- The greatest code that may be asked for. -/
def greatestCode : Nat := 2147483647

def signalNames : List (String × Int) :=
  [("HUP", 1), ("INT", 2), ("QUIT", 3), ("KILL", 9), ("USR1", 10), ("USR2", 12), ("PIPE", 13),
    ("ALRM", 14), ("TERM", 15)]

def signalOf? (name : String) : Option Int :=
  match plainNatural? name.toList with
  | some number => some number
  | none => (signalNames.find? fun entry => sameIgnoringCase entry.1 name).map Prod.snd

/-- The signals that ask the program that launched a command to stop. -/
def interruptSignals : List Int := [1, 2, 15]

/-- Sends a signal to a process. -/
def send (shell : Shell) (signal : Int) (target : String) : Outcome :=
  if target = ownProcess then shell.left 0 [.signal signal]
  else if target = parentProcess && interruptSignals.contains signal then
    shell.left 0 [.raiseFlag]
  else shell.left 1 []

def kill (shell : Shell) : List String → Outcome
  | ["-s", signal, target] =>
    match signalOf? signal with
    | some number => shell.send number target
    | none => shell.left misuse []
  | [option, target] =>
    match option.toList with
    | '-' :: signal =>
      match signalOf? (String.ofList signal) with
      | some number => shell.send number target
      | none => shell.left misuse []
    | _ => shell.left 1 []
  | [target] => shell.send Supervision.sigterm target
  | _ => shell.left misuse []

/-- What SIGTERM does from now on. Of the scripts for it only those count that end the shell. -/
def trap (shell : Shell) (script : String) : Outcome :=
  match script.splitOn " " with
  | [""] => shell.left 0 [.trap .ignore]
  | ["-"] => shell.left 0 [.trap .die]
  | ["exit", given] =>
    match plainNatural? given.toList with
    | some code => shell.left 0 [.trap (.finish 0 (code % 256))]
    | none => shell.left 0 []
  | _ => shell.left 0 []

/-- Whether a test holds. -/
def holds (files : Files) : List String → Bool
  | "!" :: rest => !holds files rest
  | [text] => !text.isEmpty
  | ["-n", text] => !text.isEmpty
  | ["-z", text] => text.isEmpty
  | ["-e", path] => (files.lookup path).toOption.isSome
  | ["-d", path] => files.isDirectory path
  | ["-f", path] => match files.lookup path with
    | .ok (.file ..) => true
    | _ => false
  | ["-x", path] => files.isDirectory path || files.isExecutable path
  | [one, "=", other] => one = other
  | [one, "!=", other] => one ≠ other
  | _ => false

def changeDirectory (shell : Shell) (line : Nat) (path : String) : Outcome :=
  match shell.files.locate path, shell.files.isDirectory path with
  | .ok place, true =>
    { shell with
      files := { shell.files with current := place }
      bindings := shell.bindings ++ [("PWD", Path.ofPlace place)] }.left 0 []
  | _, _ => shell.left misuse [shell.tell line ("cd: can't cd to " ++ path)]

def exit (shell : Shell) (line : Nat) (given : String) : Outcome :=
  match natural? greatestCode.succ given.toList with
  | some code => shell.left code [.finish code]
  | none =>
    shell.left misuse [shell.tell line ("exit: Illegal number: " ++ given), .finish misuse]

/-- A command of the shell itself; none if it is a program. -/
def own? (shell : Shell) (line : Nat) : List String → Option Outcome
  | [] | ":" :: _ | "true" :: _ => some (shell.left 0 [])
  | "false" :: _ => some (shell.left 1 [])
  | "echo" :: arguments => some (shell.left 0 [.write (echoed arguments)])
  | "pwd" :: _ =>
    some (shell.left 0 [.write (encode (Path.ofPlace shell.files.current ++ "\n"))])
  | ["cd", path] => some (shell.changeDirectory line path)
  | ["exit"] => some (shell.left shell.code [.finish shell.code])
  | "exit" :: given :: _ => some (shell.exit line given)
  | "kill" :: arguments => some (shell.kill arguments)
  | ["trap", script, signal] =>
    some (if signalOf? signal = some Supervision.sigterm then shell.trap script
      else shell.left 0 [])
  | ["set", option] =>
    some ({ shell with strict := shell.strict || option = "-e" }.left 0 [])
  | "test" :: arguments => some (shell.left (if holds shell.files arguments then 0 else 1) [])
  | "[" :: arguments =>
    some (if arguments.getLast? = some "]" then
      shell.left (if holds shell.files arguments.dropLast then 0 else 1) []
      else shell.left misuse [shell.tell line "[: missing ]"])
  | _ => none

/-! ## Programs -/

/-- The code of a command that is not known. -/
def unknownCommand : Int := 127

/-- The code of a command that is known and cannot be started. -/
def unusableCommand : Int := 126

/-- Why a command cannot be started, and the code that it leaves. -/
def refusal (cause : SystemError) : String × Int :=
  if cause = .notFound then ("not found", unknownCommand)
  else ("Permission denied", unusableCommand)

/-- What a program does on behalf of a shell, and the code that it leaves there. -/
def contained : List Action → List Action × Int
  | [] => ([], 0)
  | .finish code :: _ => ([], code % 256)
  | .trap _ :: rest => contained rest
  | .signal number :: rest =>
    if harmlessSignals.contains number then contained rest else ([], 128 + number)
  | action :: rest => (action :: (contained rest).1, (contained rest).2)

/-- Runs a program. -/
def runProgram (start : Starter) (shell : Shell) (line : Nat) (words : List String) : Outcome :=
  match start shell.files shell.bindings words with
  | .ok actions => shell.left (contained actions).2 (contained actions).1
  | .error cause =>
    let (report, code) := refusal cause
    shell.left code [shell.tell line (words.headD "" ++ ": " ++ report)]

/-- A program takes the place of the shell. -/
def becomeProgram (start : Starter) (shell : Shell) (line : Nat) (words : List String) :
    Outcome :=
  match start shell.files shell.bindings words with
  | .ok actions => shell.left 0 (actions ++ [.finish 0])
  | .error cause =>
    let (report, code) := refusal cause
    shell.left code
      [shell.tell line ("exec: " ++ words.headD "" ++ ": " ++ report), .finish code]

/-- Runs a command. Variables that are set in front of a command are set only for it. -/
def run (start : Starter) (shell : Shell) (command : Command) : Outcome :=
  let assigned := (command.words.takeWhile fun word => (assignment? word).isSome).filterMap
    assignment?
  let bindings := assigned.foldl
    (fun bindings entry =>
      bindings ++ [(entry.1, { shell with bindings := bindings : Shell }.text entry.2)])
    shell.bindings
  let words := command.words.drop assigned.length
  if words.isEmpty then { shell with bindings }.left 0 []
  else
    match (words.flatMap shell.fields).filter fun word => !joinsStreams word with
    | "exec" :: program :: arguments =>
      { shell with bindings }.becomeProgram start command.line (program :: arguments)
    | ["exec"] => shell.left 0 []
    | words =>
      match shell.own? command.line words with
      | some outcome => outcome
      | none =>
        let (actions, after) := { shell with bindings }.runProgram start command.line words
        (actions, { after with bindings := shell.bindings })

/-- What commands do in sequence. A failure does not count for a strict shell when the next command
depends on it. -/
def play (start : Starter) (shell : Shell) : List Command → List Action
  | [] => [.finish shell.code]
  | command :: rest =>
    if command.link.admits shell.code then
      let (actions, next) := shell.run start command
      let isOver := next.strict && next.code != 0 &&
        rest.head?.all fun follower => follower.link = .always
      actions ++ if isOver then [.finish next.code] else next.play start rest
    else shell.play start rest

end Shell

/-! ## Starting a shell -/

/-- The letters of the options of a shell, and the arguments after them. -/
def shellOptions : List String → List Char × List String
  | [] => ([], [])
  | argument :: rest =>
    match argument.toList with
    | '-' :: first :: more =>
      if argument = "--" then ([], rest)
      else ((first :: more) ++ (shellOptions rest).1, (shellOptions rest).2)
    | _ => ([], argument :: rest)

/-- The variables that hold the name of a script and its arguments. -/
def parameters (name : String) (arguments : List String) : Bindings :=
  ((name :: arguments).zipIdx.map fun entry => (toString entry.2, entry.1)) ++
    [("#", toString arguments.length), ("@", String.intercalate " " arguments),
      ("*", String.intercalate " " arguments)]

/-- What a shell does with its arguments: the script in the first one, to which the second one may
give a name, or the script in the file that the first one names. -/
def shellActions (start : Starter) (files : Files) (bindings : Bindings) (shellName : String)
    (arguments : List String) : List Action :=
  let (letters, operands) := shellOptions arguments
  let shell (name : String) (arguments : List String) : Shell :=
    { name, strict := letters.contains 'e', files
      bindings := bindings ++ parameters name arguments }
  let play (shell : Shell) (script : String) : List Action :=
    shell.play start (commandsOf script)
  let refuse (report : String) : List Action :=
    [(shell shellName []).tell 0 report, .finish Shell.misuse]
  match operands with
  | [] => if letters.contains 'c' then refuse "-c requires an argument" else []
  | first :: rest =>
    if letters.contains 'c' then play (shell (rest.headD shellName) (rest.drop 1)) first
    else
      match files.read first with
      | .ok script => play (shell first rest) (lossyText script)
      | .error _ => refuse ("cannot open " ++ first ++ ": No such file")

end BoardBench.Host
