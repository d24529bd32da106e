import BoardBench.Text.Digit

/-!
# Arguments

The command line: `run`, `check` or `parse` with their options. An option takes its value from the
next argument, which must not look like an option, or after an equals sign. Options may be given
once, and unknown ones are refused.
-/
namespace BoardBench.CommandLine

structure RunOptions where
  config : String
  board : String
  port? : Option String
  csv : String
  maxAttempts : UInt32
  prompts : Bool
  workdir : String
  /-- Seconds for one monitored run. -/
  timeout? : Option Nat
  quiet : Bool
  deriving Repr, DecidableEq

inductive Invocation where
  | run (options : RunOptions)
  | check (config board workdir : String)
  | parse (input? : Option String)
  deriving Repr, DecidableEq

/-- What the arguments of a subcommand hold. -/
structure Given where
  values : List (String × String) := []
  flags : List String := []
  positional : List String := []
  deriving Repr, DecidableEq

/-- The options that a subcommand knows. -/
structure Known where
  values : List String
  flags : List String
  deriving Repr, DecidableEq

def verboseFlag : String := "verbose"

def runKnown : Known where
  values := ["config", "board", "port", "write-csv", "max-attempts", "workdir", "run-timeout"]
  flags := ["no-prompt", "quiet", verboseFlag]

def checkKnown : Known where
  values := ["config", "board", "workdir"]
  flags := [verboseFlag]

def parseKnown : Known where
  values := []
  flags := [verboseFlag]

/-- The name in `--name` or `--name=value`, and the value. -/
def optionParts? (argument : String) : Option (String × Option String) :=
  match argument.toList with
  | '-' :: '-' :: rest =>
    let name := rest.takeWhile (· != '=')
    let value := match rest.dropWhile (· != '=') with
      | _ :: value => some (String.ofList value)
      | [] => none
    if name.isEmpty then none else some (String.ofList name, value)
  | _ => none

/-- An argument that cannot be the value of the option before it, nor stand for itself. -/
def looksLikeOption (argument : String) : Bool :=
  match argument.toList with
  | '-' :: _ :: _ => true
  | _ => false

def Given.addValue? (given : Given) (name value : String) : Option Given :=
  if (given.values.lookup name).isSome then none
  else some { given with values := given.values ++ [(name, value)] }

def Given.addFlag? (given : Given) (name : String) : Option Given :=
  if given.flags.contains name then none
  else some { given with flags := given.flags ++ [name] }

/-- Sorts the arguments of a subcommand. After `--` every argument stands for itself. -/
def collect? (known : Known) (given : Given) : List String → Option Given
  | [] => some given
  | "--" :: rest => some { given with positional := given.positional ++ rest }
  | argument :: rest =>
    match optionParts? argument with
    | some (name, attached) =>
      if known.flags.contains name then
        if attached.isSome then none
        else (given.addFlag? name).bind fun given => collect? known given rest
      else if known.values.contains name then
        match attached, rest with
        | some value, rest =>
          (given.addValue? name value).bind fun given => collect? known given rest
        | none, value :: rest =>
          if looksLikeOption value then none
          else (given.addValue? name value).bind fun given => collect? known given rest
        | none, [] => none
      else none
    | none =>
      if looksLikeOption argument then none
      else collect? known { given with positional := given.positional ++ [argument] } rest

/-- The value of an option that names a path, which must not be empty. -/
def Given.path? (given : Given) (name : String) : Option String :=
  (given.values.lookup name).filter fun path => !path.isEmpty

/-- The value of an optional path. -/
def Given.pathOr? (given : Given) (name standard : String) : Option String :=
  match given.values.lookup name with
  | none => some standard
  | some path => if path.isEmpty then none else some path

/-- The greatest number of attempts, and one more. -/
def attemptBound : Nat := UInt32.size

/-- A number of attempts as an argument: signed, though only zero may have a minus sign. -/
def attemptsOf? (text : String) : Option UInt32 :=
  let value? := match text.toList with
    | '-' :: digits => (plainNatural? digits).filter (· = 0)
    | chars => natural? attemptBound chars
  value?.map UInt32.ofNat

def standardAttempts : UInt32 := 3

/-- The number of attempts: from the option, else from the variable, else the standard one. -/
def Given.attempts? (given : Given) (inherited? : Option String) : Option UInt32 :=
  match given.values.lookup "max-attempts" <|> inherited? with
  | some text => attemptsOf? text
  | none => some standardAttempts

def Given.timeout? (given : Given) : Option (Option Nat) :=
  match given.values.lookup "run-timeout" with
  | none => some none
  | some text => (natural? countBound text.toList).map some

def Given.run? (given : Given) (attemptsVariable : Option String) : Option Invocation := do
  let config ← given.path? "config"
  let board ← given.values.lookup "board"
  let csv ← given.path? "write-csv"
  let maxAttempts ← given.attempts? attemptsVariable
  let workdir ← given.pathOr? "workdir" "."
  let timeout? ← given.timeout?
  if given.positional.isEmpty then
    return .run
      { config, board, port? := given.values.lookup "port", csv, maxAttempts
        prompts := !given.flags.contains "no-prompt"
        workdir, timeout?, quiet := given.flags.contains "quiet" }
  else none

def Given.check? (given : Given) : Option Invocation := do
  let config ← given.path? "config"
  let board ← given.values.lookup "board"
  let workdir ← given.pathOr? "workdir" "."
  if given.positional.isEmpty then return .check config board workdir else none

def Given.parse? (given : Given) : Option Invocation :=
  match given.positional with
  | [] => some (.parse none)
  | [input] => if input.isEmpty then none else some (.parse (some input))
  | _ => none

/-- The variable that gives the number of attempts. -/
def attemptsVariable : String := "BENCH_MAX_ATTEMPTS"

/-- Reads the arguments; `none` if they make no sense. -/
def invocation? (attempts? : Option String) : List String → Option Invocation
  | "--verbose" :: "--verbose" :: _ => none
  | "--verbose" :: rest => subcommand rest
  | arguments => subcommand arguments
where
  subcommand : List String → Option Invocation
    | "run" :: rest => (collect? runKnown {} rest).bind (·.run? attempts?)
    | "check" :: rest => (collect? checkKnown {} rest).bind Given.check?
    | "parse" :: rest => (collect? parseKnown {} rest).bind Given.parse?
    | _ => none

end BoardBench.CommandLine
