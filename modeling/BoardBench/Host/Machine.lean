import BoardBench.Host.Image
import BoardBench.Host.Shell

/-!
# The machine

A computer as far as commands can tell: its files, its environment variables, and the programs that
are described instead of stored. Launching a command finds the image of its program and yields the
process group, or the reason why there is none.
-/
namespace BoardBench.Host

open Supervision (Request Child)

/-- A program that is described, under the command that runs it. -/
structure Described where
  phase : String
  steps : List Step

structure Machine where
  files : Files
  inherited : Bindings := []
  described : List (List String × Described) := []
  /-- The phase and place of each described program that was launched, in order. -/
  launched : List (String × List String) := []

namespace Machine

/-- The machine as seen from a directory. -/
def filesIn (machine : Machine) (location : List String) : Files :=
  { machine.files with current := location }

/-- A duration in seconds as milliseconds. -/
def duration? (text : String) : Option Nat :=
  match pieces (· == '.') text.toList with
  | [whole] => (plainNatural? whole).map (1000 * ·)
  | [whole, fraction] => do
    let seconds ← if whole.isEmpty then some 0 else plainNatural? whole
    let thousandths ← plainNatural? ((fraction ++ ['0', '0', '0']).take 3)
    return 1000 * seconds + thousandths
  | _ => none

/-- What a tool does that starts no other one. -/
def toolActions (tool : String) (arguments : List String) : List Action :=
  if tool = "echo" then
    let isOpen := arguments.head? == some "-n"
    let text := String.intercalate " " (if isOpen then arguments.drop 1 else arguments)
    [.write (encode (if isOpen then text else text ++ "\n"))]
  else if tool = "sleep" then
    match arguments.mapM duration? with
    | some durations => if durations.isEmpty then [.finish 1] else durations.map .pause
    | none => [.finish 1]
  else if tool = "true" then []
  else [.finish 1]

/-- What an image does; `levels` more images may be started by it. -/
def imageActions (files : Files) (bindings : Bindings) (image : Image) : Nat → List Action
  | 0 => []
  | levels + 1 =>
    let start : Starter := fun files bindings command =>
      match command with
      | [] => .error .notFound
      | program :: arguments => do
        return imageActions files bindings (← findImage files bindings program arguments) levels
    if image.tool = shell then
      shellActions start files (bindings.inShell (Path.ofPlace files.current)) image.name
        image.arguments
    else if image.tool = "env" then
      let given := image.arguments.takeWhile fun argument => argument.toList.contains '='
      match start files (bindings ++ given.map Bindings.readBack)
          (image.arguments.drop given.length) with
      | .ok actions => actions
      | .error cause => [.finish (Shell.refusal cause).2]
    else
      toolActions image.tool image.arguments

/-- How often a described program was launched for a phase in a place. -/
def turns (machine : Machine) (launch : String × List String) : Nat :=
  (machine.launched.filter (· == launch)).length

/-- The variables that a command is given, with its own ones behind those of the machine. -/
def given (machine : Machine) (request : Request) : Bindings :=
  machine.inherited ++ request.bindings

/-- Launches a command in a directory that is there. -/
def start (machine : Machine) (request : Request) (program : String) (arguments : List String)
    (location : List String) : Except SystemError (List Action) × Machine :=
  let bindings := machine.given request
  let files := machine.filesIn location
  let texts := request.command ++ bindings.block
  if texts.any Path.hasNul then (.error .nulInData, machine)
  else
    match findImage files bindings program arguments with
    | .error cause => (.error cause, machine)
    | .ok image =>
      if texts.any isOversized then (.error .listTooLong, machine)
      else
        match machine.described.lookup request.command with
        | some described =>
          let launch := (described.phase, location)
          (.ok (actionsOf (bindings.inShell (Path.ofPlace location)) (machine.turns launch)
            described.steps), { machine with launched := machine.launched ++ [launch] })
        | none => (.ok (imageActions files bindings image nestingLimit), machine)

/-- Launches a command. An empty command, a directory that is not there and a program that cannot
be started are told apart, in this order. -/
def launch (machine : Machine) (request : Request) : Except Fault Child × Machine :=
  match request.command with
  | [] => (.error .emptyCommand, machine)
  | program :: arguments =>
    match machine.files.locate request.cwd, machine.files.isDirectory request.cwd with
    | .ok location, true =>
      match machine.start request program arguments location with
      | (.ok actions, machine) => (.ok (childOf actions), machine)
      | (.error cause, machine) => (.error (.spawn program cause), machine)
    | _, _ => (.error (.workDir request.cwd), machine)

theorem launch_unconfigured (machine : Machine) (request : Request) (cause : ConfigError) :
    (machine.launch request).1 ≠ .error (.config cause) := by
  unfold launch
  split
  · simp
  · split
    · split <;> simp
    · simp

end Machine

end BoardBench.Host
