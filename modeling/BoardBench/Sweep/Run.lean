import BoardBench.Sweep.Pair

/-!
# Sweeps

All pairs of a board, one after another in the order of the configuration. The rows of a pair are
added together once the pair is done. A fatal fault ends the sweep before its pair is reported.
-/
namespace BoardBench.Sweep

structure Progress (σ : Type) where
  journal : Journal σ
  report : Report := {}

/-- The report with one more pair. -/
def Report.add (report : Report) (benchmark : Benchmark) (environment : Environment)
    (run : PairRun) : Report :=
  { report with
    results := report.results.extend run.rows
    pairs := report.pairs ++
      [{ benchmark := benchmark.name, environment := environment.label, status := run.status }] }

/-- What is printed about a pair that has failed. -/
def failureLines (benchmark : Benchmark) (environment : Environment) : PairStatus → List String
  | .failed failure =>
    ["FAILED TO RUN BENCHMARK '" ++ benchmark.name ++ "' IN ENVIRONMENT '" ++ environment.label ++
      "': " ++ failure.message]
  | _ => []

namespace Settings

variable {σ : Type} (settings : Settings) (workbench : Workbench σ)

def sweepPair (benchmark : Benchmark) (environment : Environment) (progress : Progress σ) :
    Progress σ :=
  match settings.runPair workbench benchmark environment progress.journal with
  | (.error _, journal) =>
    { journal, report := { progress.report with interrupted := true } }
  | (.ok run, journal) =>
    { journal := journal.print (failureLines benchmark environment run.status)
      report := progress.report.add benchmark environment run }

/-- The pairs of one entry, up to an interrupt. -/
def sweepEnvironments (benchmark : Benchmark) (progress : Progress σ) :
    List Environment → Progress σ
  | [] => progress
  | environment :: rest =>
    let next := settings.sweepPair workbench benchmark environment progress
    if next.report.interrupted then next else sweepEnvironments benchmark next rest

def benchmarkBanner (benchmark : Benchmark) : List String :=
  ["", "=== PROCESSING BENCHMARK: " ++ benchmark.name ++ " (BOARD: " ++ settings.target.board ++
    ") ==="]

/-- An entry without environments is passed over. -/
def sweepBenchmark (benchmark : Benchmark) (progress : Progress σ) : Progress σ :=
  if benchmark.environments.isEmpty then progress
  else
    settings.sweepEnvironments workbench benchmark
      { progress with journal := progress.journal.print (settings.benchmarkBanner benchmark) }
      benchmark.environments

def sweepBenchmarks (progress : Progress σ) : List Benchmark → Progress σ
  | [] => progress
  | benchmark :: rest =>
    let next := settings.sweepBenchmark workbench benchmark progress
    if next.report.interrupted then next else sweepBenchmarks next rest

/-- Every entry for the target board in every environment it supports. -/
def sweep (config : Config) (world : σ) : Progress σ :=
  settings.sweepBenchmarks workbench { journal := { world } }
    (config.forBoard settings.target.board)

end Settings

end BoardBench.Sweep
