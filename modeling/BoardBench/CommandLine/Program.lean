import BoardBench.CommandLine.Arguments
import BoardBench.Config.Reading
import BoardBench.Host.Station
import BoardBench.Preflight
import BoardBench.Results.Report

/-!
# The program

What each subcommand prints and leaves behind, as a function of the machine it runs on and of its
standard input. Errors go to the error output, with their cause below them.
-/
namespace BoardBench.CommandLine

open Console (Source Window)
open Host (Machine Station)

/-- What a finished program leaves. -/
structure Ending where
  exit : Nat
  output : String := ""
  errors : String := ""
  files : Files

/-- What a program is given. -/
structure Situation where
  machine : Machine
  input : Bytes

/-- How the program is called. -/
def usage : String :=
  printed
    ["usage: riotbench run --config FILE --board BOARD --write-csv FILE [OPTIONS]",
      "       riotbench check --config FILE --board BOARD [--workdir DIRECTORY]",
      "       riotbench parse [FILE]"]

def usageExit : Nat := 2
def failureExit : Nat := 1
def interruptExit : Nat := 130

def Situation.files (situation : Situation) : Files :=
  situation.machine.files

/-- An error after what was printed before it. -/
def Situation.fail (situation : Situation) (output message : String) : Ending where
  exit := failureExit
  output := output
  errors := "Error: " ++ message ++ "\n"
  files := situation.files

def causedBy (message : String) (cause : SystemError) : String :=
  message ++ "\n\nCaused by:\n    " ++ cause.message

def loadConfig (files : Files) (path : String) : Except ConfigError Config :=
  match files.read path with
  | .error cause => .error (.unreadable path cause)
  | .ok content => Config.ofBytes path content

def cannotLoad (path : String) (cause : ConfigError) : String :=
  "CANNOT LOAD " ++ path ++ ": " ++ (Fault.config cause).message

/-! ## Parsing a console log -/

def rowLine (row : Telemetry.Row) : String :=
  join " " (row.cells.map fun cell => cell.1 ++ "=" ++ cell.2)

/-- The rows of a log, or why there are none. -/
def parseReport (window : Window) : Nat × List String :=
  if window.isFinished then
    (0, window.rows.map rowLine ++ ["ROWS: " ++ toString window.rows.length])
  else
    let reason := if window.isInside then "BEGIN MARKER WITHOUT END MARKER" else "NO BEGIN MARKER"
    (failureExit,
      ["NO TELEMETRY: " ++ reason ++ " (" ++ toString window.captured.length ++
        " LINES CAPTURED)"])

/-- The window of a console log, read no further than the line that closes it. -/
def parseWindow (log : Bytes) : Window :=
  ({} : Window).feedUntilClosed (Console.lines log)

def Situation.parseLog (situation : Situation) (log : Bytes) : Ending :=
  let (exit, lines) := parseReport (parseWindow log)
  { exit, output := printed lines, files := situation.files }

def Situation.parse (situation : Situation) : Option String → Ending
  | none => situation.parseLog situation.input
  | some path =>
    match situation.files.lookup path with
    | .error cause => situation.fail "" (causedBy ("opening " ++ path) cause)
    | .ok .directory => situation.fail "" SystemError.isADirectory.message
    | .ok (.file content _) => situation.parseLog content
    | .ok (.device _) => situation.parseLog []

/-! ## Checking -/

def Situation.check (situation : Situation) (config board workdir : String) : Ending :=
  match loadConfig situation.files config with
  | .error cause => situation.fail (printed Preflight.heading) (cannotLoad config cause)
  | .ok loaded =>
    let search? := situation.machine.inherited.find? Host.searchVariable
    let findings := Preflight.inspect situation.files search? loaded { board, workdir }
    { exit := if findings.passed then 0 else failureExit
      output := printed (Preflight.heading ++ findings.lines)
      files := situation.files }

/-! ## Running -/

def pairCount (config : Config) (board : String) : Nat :=
  ((config.forBoard board).flatMap Benchmark.environments).length

def runHeading (options : RunOptions) (config : Config) : List String :=
  ["RIOTBENCH SWEEP", "BOARD:           " ++ options.board,
    "PORT:            " ++ options.port?.getD "-", "CONFIG:          " ++ options.config,
    "MAX ATTEMPTS:    " ++
      toString (Retry.Policy.ofCount options.maxAttempts).maxAttempts.toNat,
    "PAIRS:           " ++ toString (pairCount config options.board)]

def failureLine (pair : Sweep.PairReport) : List String :=
  match pair.status with
  | .failed failure =>
    ["  " ++ padRight 16 pair.benchmark ++ " " ++ padRight 16 pair.environment ++ " " ++
      failure.message]
  | _ => []

def runSummary (report : Sweep.Report) : List String :=
  let skipped := (report.pairs.filter fun pair => pair.status.isSkipped).length
  ["", "PAIRS: " ++ toString (report.pairs.length - skipped) ++ " RUN, " ++ toString skipped ++
    " SKIPPED, " ++ toString report.failures.length ++ " FAILED"] ++
    report.pairs.flatMap failureLine

def Situation.station (situation : Situation) (options : RunOptions) : Station where
  machine := situation.machine
  desk :=
    { decider := if options.prompts then .prompting { input := situation.input } else .always }
  sharesConsole := true

def RunOptions.settings (options : RunOptions) (config : Config) : Sweep.Settings where
  commands := config.commands
  target := { board := options.board, port? := options.port?, workdir := options.workdir }
  policy := Retry.Policy.ofCount options.maxAttempts
  runDeadline := options.timeout?.map (· * 1000)
  echo := !options.quiet

/-- Writes the results of a finished sweep and reports on it. -/
def Situation.finishRun (situation : Situation) (options : RunOptions) (heading : List String)
    (progress : Sweep.Progress Station) : Ending :=
  let report := progress.report
  let output := printed heading ++ progress.journal.console ++ printed report.results.summaryLines
  match situation.files.writeDeep options.csv (encode report.results.csv) with
  | .error cause => situation.fail output (causedBy ("writing " ++ options.csv) cause)
  | .ok files =>
    { exit := if report.interrupted then interruptExit else 0
      output := output ++
        printed (["RESULTS WRITTEN TO " ++ options.csv] ++ runSummary report)
      files }

def Situation.run (situation : Situation) (options : RunOptions) : Ending :=
  match loadConfig situation.files options.config with
  | .error cause => situation.fail "" (cannotLoad options.config cause)
  | .ok config =>
    if situation.files.isDirectory options.workdir then
      let progress := (options.settings config).sweep (Station.workbench fun _ => false) config
        (situation.station options)
      situation.finishRun options (runHeading options config) progress
    else
      situation.fail "" ("WORKDIR " ++ options.workdir ++ " IS NOT A DIRECTORY")

/-- Runs the program with its arguments. -/
def Situation.perform (situation : Situation) (arguments : List String) : Ending :=
  match invocation? (situation.machine.inherited.find? attemptsVariable) arguments with
  | none => { exit := usageExit, errors := usage, files := situation.files }
  | some (.run options) => situation.run options
  | some (.check config board workdir) => situation.check config board workdir
  | some (.parse input?) => situation.parse input?

end BoardBench.CommandLine
