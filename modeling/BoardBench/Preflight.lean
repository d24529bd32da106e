import BoardBench.Files.Tree
import BoardBench.Sweep.Pair
import BoardBench.Text.Pad
import BoardBench.Text.Sorted

/-!
# Preflight

What can be told before a sweep: whether each program of the phases is there, and which pairs the
sweep would run. A program named by a path is looked for in the environment directories and then in
the working directory, a bare name along the search path.
-/
namespace BoardBench.Preflight

open Sweep (Target)

/-- A program and where it was found. -/
structure Tool where
  program : String
  found? : Option String
  deriving Repr, DecidableEq

inductive PairState where
  | disabled
  | ready
  | missingDirectory
  deriving Repr, DecidableEq

inductive Listing where
  | noEnvironments (benchmark : String)
  | pair (benchmark environment : String) (state : PairState)
  deriving Repr, DecidableEq

structure Findings where
  target : Target
  tools : List Tool
  listing : List Listing
  deriving Repr, DecidableEq

/-- The programs of the phases, each once, in order. -/
def programsOf (commands : PhaseCommands) : List String :=
  sortedMembers textBefore
    ([commands.build, commands.flash, commands.run].filterMap List.head?)

/-- The directories of the enabled environments that are there. -/
def directoriesOf (files : Files) (target : Target) (benchmarks : List Benchmark) : List String :=
  let environments := benchmarks.flatMap Benchmark.environments
  let enabled := environments.filter fun environment => !environment.disabled
  (enabled.map target.directory).filter files.isDirectory

/-- The first of the directories in which the program can be executed, joined to it. -/
def resolveIn (files : Files) (program : String) (directories : List String) : Option String :=
  (directories.map fun directory => Path.join directory program).find? files.isExecutable

def searchPath (search : String) : List String :=
  (pieces (· == ':') search.toList).map String.ofList

def toolOf (files : Files) (search? : Option String) (workdir : String)
    (directories : List String) (program : String) : Tool where
  program := program
  found? :=
    if Path.isBare program then
      search?.bind fun search => resolveIn files program (searchPath search)
    else resolveIn files program (directories ++ [workdir])

def stateOf (files : Files) (target : Target) (environment : Environment) : PairState :=
  if environment.disabled then .disabled
  else if files.isDirectory (target.directory environment) then .ready
  else .missingDirectory

def listingOf (files : Files) (target : Target) (benchmark : Benchmark) : List Listing :=
  if benchmark.environments.isEmpty then [.noEnvironments benchmark.name]
  else
    benchmark.environments.map fun environment =>
      .pair benchmark.name environment.label (stateOf files target environment)

def inspect (files : Files) (search? : Option String) (config : Config) (target : Target) :
    Findings :=
  let benchmarks := config.forBoard target.board
  let directories := directoriesOf files target benchmarks
  { target
    tools := (programsOf config.commands).map (toolOf files search? target.workdir directories)
    listing := benchmarks.flatMap (listingOf files target) }

def Listing.isPair : Listing → Bool
  | pair .. => true
  | noEnvironments _ => false

def Listing.isMissing : Listing → Bool
  | pair _ _ .missingDirectory => true
  | _ => false

namespace Findings

def hasPairs (findings : Findings) : Bool :=
  findings.listing.any Listing.isPair

/-- Every program was found, no directory is missing, and there is a pair. -/
def passed (findings : Findings) : Bool :=
  findings.tools.all (fun tool => tool.found?.isSome) &&
    !findings.listing.any Listing.isMissing && findings.hasPairs

end Findings

/-! ## Wording -/

def Tool.line (tool : Tool) : String :=
  "  " ++ padRight 24 tool.program ++
    match tool.found? with
    | some path => "OK (" ++ path ++ ")"
    | none => "MISSING"

def PairState.text : PairState → String
  | disabled => "DISABLED"
  | ready => "OK"
  | missingDirectory => "DIRECTORY MISSING"

def Listing.line : Listing → String
  | noEnvironments benchmark => "  " ++ padRight 16 benchmark ++ " (NO SUPPORTED ENVIRONMENTS)"
  | pair benchmark environment state =>
    "  " ++ padRight 16 benchmark ++ " " ++ padRight 20 environment ++ " " ++ state.text

/-- The lines printed before the descriptor is read. -/
def heading : List String :=
  ["RIOTBENCH PREFLIGHT CHECK", ""]

def Findings.lines (findings : Findings) : List String :=
  let note := if findings.target.isNative then " (NO FLASH)" else ""
  ["HOST TOOLS:"] ++ findings.tools.map Tool.line ++
    ["", "PAIRS FOR BOARD " ++ findings.target.board ++ note ++ ":"] ++
    findings.listing.map Listing.line ++
    (if findings.hasPairs then [] else ["  NO PAIRS CONFIGURED FOR THIS BOARD"]) ++
    ["", if findings.passed then "ALL CHECKS PASSED" else "SOME CHECKS FAILED"]

end BoardBench.Preflight
