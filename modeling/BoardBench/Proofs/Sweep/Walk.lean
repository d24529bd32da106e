import BoardBench.Proofs.Sweep.Accounting

/-!
# A sweep as a walk

Main result: apart from what it prints, a sweep is a walk over the flat list of its pairs, which
stops at the first one that is interrupted. What holds of a sweep is then shown by induction on that
list.
-/
namespace BoardBench.Sweep

variable {σ : Type} (settings : Settings) (workbench : Workbench σ)

namespace Settings

/-- One pair: its run is added to the report, or the report is marked as interrupted. -/
def stepOver (state : Report × σ) (pair : Pair) : Report × σ :=
  match settings.runIn workbench pair state.2 with
  | (.error _, world) => ({ state.1 with interrupted := true }, world)
  | (.ok run, world) => (state.1.add pair.1 pair.2 run, world)

/-- Pairs one after the other, up to an interrupt. -/
def walk (state : Report × σ) : List Pair → Report × σ
  | [] => state
  | pair :: rest =>
    let next := settings.stepOver workbench state pair
    if next.1.interrupted then next else walk next rest

end Settings

/-- A sweep under way without what it has printed. -/
def Progress.state (progress : Progress σ) : Report × σ :=
  (progress.report, progress.journal.world)

variable {settings workbench}

theorem walk_cons (state : Report × σ) (pair : Pair) (rest : List Pair) :
    settings.walk workbench state (pair :: rest) =
      if (settings.stepOver workbench state pair).1.interrupted then
        settings.stepOver workbench state pair
      else settings.walk workbench (settings.stepOver workbench state pair) rest :=
  rfl

theorem walk_append {state : Report × σ} (running : state.1.interrupted = false)
    (first rest : List Pair) :
    settings.walk workbench state (first ++ rest) =
      if (settings.walk workbench state first).1.interrupted then
        settings.walk workbench state first
      else settings.walk workbench (settings.walk workbench state first) rest := by
  induction first generalizing state with
  | nil => simp [Settings.walk, running]
  | cons pair more ih =>
    rw [List.cons_append, walk_cons, walk_cons]
    split
    next => simp
    next running => exact ih (by simpa using running)

section Step

variable {state : Report × σ} {pair : Pair}

theorem stepOver_error {fault : Fault}
    (failed : (settings.runIn workbench pair state.2).1 = .error fault) :
    settings.stepOver workbench state pair =
      ({ state.1 with interrupted := true }, (settings.runIn workbench pair state.2).2) := by
  unfold Settings.stepOver
  split
  next other world ran => rw [ran]
  next run world ran =>
    rw [ran] at failed
    cases failed

theorem stepOver_ok {run : PairRun}
    (ended : (settings.runIn workbench pair state.2).1 = .ok run) :
    settings.stepOver workbench state pair =
      (state.1.add pair.1 pair.2 run, (settings.runIn workbench pair state.2).2) := by
  unfold Settings.stepOver
  split
  next fault world ran =>
    rw [ran] at ended
    cases ended
  next other world ran =>
    rw [ran] at ended
    cases ended
    rw [ran]

end Step

/-! ### The loops -/

theorem state_sweepPair (progress : Progress σ) (pair : Pair) :
    (settings.sweepPair workbench pair.1 pair.2 progress).state =
      settings.stepOver workbench progress.state pair := by
  obtain ⟨result, world⟩ := runPair_eq_runIn settings workbench pair progress.journal
  unfold Settings.sweepPair
  split
  -- What is printed about the pair does not reach its world.
  next fault journal ran =>
    rw [ran] at result world
    rw [stepOver_error result.symm, Progress.state, world]
    rfl
  next run journal ran =>
    rw [ran] at result world
    rw [stepOver_ok result.symm, Progress.state, Journal.print, world]
    rfl

theorem state_sweepEnvironments (progress : Progress σ) (benchmark : Benchmark)
    (environments : List Environment) :
    (settings.sweepEnvironments workbench benchmark progress environments).state =
      settings.walk workbench progress.state
        (environments.map fun environment => (benchmark, environment)) := by
  induction environments generalizing progress with
  | nil => rfl
  | cons environment rest ih =>
    rw [List.map_cons, walk_cons, ← state_sweepPair, Settings.sweepEnvironments]
    split
    next interrupted => exact (if_pos interrupted).symm
    next running => exact (ih _).trans (if_neg running).symm

theorem state_sweepBenchmark (progress : Progress σ) (benchmark : Benchmark) :
    (settings.sweepBenchmark workbench benchmark progress).state =
      settings.walk workbench progress.state
        (benchmark.environments.map fun environment => (benchmark, environment)) := by
  unfold Settings.sweepBenchmark
  split
  next empty =>
    rw [List.isEmpty_iff.mp empty]
    rfl
  next => exact state_sweepEnvironments _ benchmark benchmark.environments

theorem state_sweepBenchmarks {progress : Progress σ}
    (running : progress.report.interrupted = false) (benchmarks : List Benchmark) :
    (settings.sweepBenchmarks workbench progress benchmarks).state =
      settings.walk workbench progress.state (benchmarks.flatMap fun benchmark =>
        benchmark.environments.map fun environment => (benchmark, environment)) := by
  induction benchmarks generalizing progress with
  | nil => rfl
  | cons benchmark rest ih =>
    rw [List.flatMap_cons, walk_append running, ← state_sweepBenchmark, Settings.sweepBenchmarks]
    split
    next interrupted => exact (if_pos interrupted).symm
    next running => exact (ih (by simpa using running)).trans (if_neg running).symm

/-- Apart from what it prints, a sweep is a walk over its pairs. -/
theorem state_sweep (settings : Settings) (workbench : Workbench σ) (config : Config) (world : σ) :
    (settings.sweep workbench config world).state =
      settings.walk workbench ({}, world) (settings.pairs config) :=
  state_sweepBenchmarks rfl (config.forBoard settings.target.board)

end BoardBench.Sweep
