import BoardBench.Sweep.Report
import BoardBench.Config.Basic
import BoardBench.Files.Path
import BoardBench.Supervision.Exit
import BoardBench.Retry.Loop
import BoardBench.Text.Pad

/-!
# Pairs

One benchmark in one environment: build, flash unless the board is the host itself, then run until
there is telemetry, and mark the rows with what they belong to. A command that cannot be started
ends its pair; an interrupt ends the sweep. The outside world is a state of any type, known only by
what a workbench does to it.
-/
namespace BoardBench.Sweep

open Supervision (Request Outcome)
open Telemetry (Row)

/-- What commands are run for. -/
structure Target where
  board : String
  port? : Option String := none
  /-- The parent of the environment directories. -/
  workdir : String
  deriving Repr, DecidableEq

def nativeBoard : String := "native"

/-- The benchmark runs on the host, so nothing is flashed. -/
def Target.isNative (target : Target) : Bool :=
  sameIgnoringCase target.board nativeBoard

/-- The directory of an environment. -/
def Target.directory (target : Target) (environment : Environment) : String :=
  Path.join target.workdir environment.name

/-- The variables of every command of a pair. Those of the environment come last and win. -/
def Target.bindings (target : Target) (benchmark : Benchmark) (environment : Environment) :
    List (String × String) :=
  [("BOARD", target.board), ("BENCHMARK", benchmark.filename),
    ("SCALE_FACTOR", toString benchmark.scaleFactor.toNat),
    ("ITERATIONS", toString benchmark.iterations.toNat)] ++
    (target.port?.map fun port => ("PORT", port)).toList ++ environment.bindings

/-- What a command showed while it ran, and what came of it. The configuration was read before any
command, so it is never what a command fails for. -/
structure Execution where
  seen : List String
  result : Except Fault Outcome
  unconfigured : ∀ cause, result ≠ .error (.config cause)

/-- An answer to the question whether to try again, and what asking showed on the console. -/
structure Decision where
  answer : Bool
  shown : String := ""
  deriving Repr, DecidableEq

/-- What a sweep can do to the world. -/
structure Workbench (σ : Type) where
  isDirectory : String → σ → Bool
  execute : Request → σ → Execution × σ
  decide : UInt32 → UInt32 → σ → Decision × σ

structure Settings where
  commands : PhaseCommands
  target : Target
  policy : Retry.Policy := Retry.Policy.standard
  runDeadline : Option Nat := none
  echo : Bool := false

/-- The world and the text printed so far. -/
structure Journal (σ : Type) where
  world : σ
  console : String := ""

def Journal.print {σ : Type} (journal : Journal σ) (lines : List String) : Journal σ :=
  { journal with console := journal.console ++ printed lines }

structure PairRun where
  status : PairStatus
  rows : List Row := []
  deriving DecidableEq

/-- The row marked with its pair. -/
def enrich (benchmark : Benchmark) (environment : Environment) (row : Row) : Row :=
  (((row.set "benchmark" benchmark.name).set "environment" environment.label).set "board"
    benchmark.board).set "scale_factor" (toString benchmark.scaleFactor.toNat)

namespace Settings

variable {σ : Type} (settings : Settings) (workbench : Workbench σ)

def echoLine (line : String) : String :=
  "  | " ++ line

/-- Executes a command; its output is printed where that is wanted. -/
def runPhase (request : Request) (journal : Journal σ) : Except Fault Outcome × Journal σ :=
  let (execution, world) := workbench.execute request journal.world
  let after := { journal with world }
  (execution.result,
    if settings.echo then after.print (execution.seen.map echoLine) else after)

/-- A fault that is not fatal is the failure of its pair. -/
def pairFault (fault : Fault) : Except Fault PairRun :=
  if fault.isFatal then .error fault else .ok { status := .failed (.spawn fault.message) }

def request (benchmark : Benchmark) (environment : Environment) (command : List String) :
    Request where
  command := command
  cwd := settings.target.directory environment
  bindings := settings.target.bindings benchmark environment

def runRequest (benchmark : Benchmark) (environment : Environment) : Request :=
  { settings.request benchmark environment settings.commands.run with
    monitored := true, deadline := settings.runDeadline }

def retryActions (benchmark : Benchmark) (environment : Environment) :
    Retry.Actions (Journal σ) where
  attempt _ journal :=
    settings.runPhase workbench (settings.runRequest benchmark environment) journal
  decide attempt maxAttempts journal :=
    let (decision, world) := workbench.decide attempt maxAttempts journal.world
    (decision.answer, { journal with world, console := journal.console ++ decision.shown })

/-- The run phase with its retries. -/
def collect (benchmark : Benchmark) (environment : Environment) (journal : Journal σ) :
    Except Fault PairRun × Journal σ :=
  match Retry.run (settings.retryActions workbench benchmark environment) settings.policy
      journal with
  | (.error fault, journal) => (pairFault fault, journal)
  | (.ok (.success rows attempts), journal) =>
    let message := "SUCCESSFULLY COLLECTED " ++ toString rows.length ++ " DATA POINTS FROM " ++
      environment.label
    (.ok
      { status := .collected rows.length attempts
        rows := rows.map (enrich benchmark environment) },
      journal.print [message])
  | (.ok (.gaveUp .exhausted attempts _), journal) =>
    (.ok { status := .failed (.noTelemetry attempts) }, journal)
  | (.ok (.gaveUp .declined attempts _), journal) =>
    (.ok { status := .failed (.declined attempts) }, journal)

/-- The flash phase, which a native board does not have, and what follows it. -/
def flashAndCollect (benchmark : Benchmark) (environment : Environment) (journal : Journal σ) :
    Except Fault PairRun × Journal σ :=
  if settings.target.isNative then settings.collect workbench benchmark environment journal
  else
    match settings.runPhase workbench
        (settings.request benchmark environment settings.commands.flash) journal with
    | (.error fault, journal) => (pairFault fault, journal)
    | (.ok outcome, journal) =>
      if outcome.exit.isSuccess then settings.collect workbench benchmark environment journal
      else (.ok { status := .failed (.flash outcome.exit.code?) }, journal)

/-- All phases of a pair, each one only after the one before it succeeded. -/
def buildAndCollect (benchmark : Benchmark) (environment : Environment) (journal : Journal σ) :
    Except Fault PairRun × Journal σ :=
  match settings.runPhase workbench
      (settings.request benchmark environment settings.commands.build) journal with
  | (.error fault, journal) => (pairFault fault, journal)
  | (.ok outcome, journal) =>
    if outcome.exit.isSuccess then
      settings.flashAndCollect workbench benchmark environment journal
    else (.ok { status := .failed (.build outcome.exit.code?) }, journal)

def pairBanner (benchmark : Benchmark) (environment : Environment) : List String :=
  ["", "# RUNNING BENCHMARK '" ++ benchmark.name ++ "' IN ENVIRONMENT '" ++ environment.label ++
    "'"]

/-- A pair: skipped if it is disabled or has no directory, in this order, else run. -/
def runPair (benchmark : Benchmark) (environment : Environment) (journal : Journal σ) :
    Except Fault PairRun × Journal σ :=
  if environment.disabled then (.ok { status := .skipped .disabled }, journal)
  else
    let directory := settings.target.directory environment
    if workbench.isDirectory directory journal.world then
      settings.buildAndCollect workbench benchmark environment
        (journal.print (pairBanner benchmark environment))
    else (.ok { status := .skipped (.missingDirectory directory) }, journal)

end Settings

end BoardBench.Sweep
