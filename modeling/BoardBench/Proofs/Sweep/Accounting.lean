import BoardBench.Proofs.Sweep.Simulation
import Mathlib.Algebra.GroupWithZero.Nat

/-!
# The accounts of a sweep

Main result: a sweep reports on its pairs one by one and in order, all of them unless an execution
is interrupted, and then those before the pair in which this happens. Its results are the rows of
the reported pairs, one pair after the other.

Proof strategy: what a pair does depends on the world alone, so the two nested loops come down to a
walk over a flat list of pairs. The loop invariant says that the report is that of the runs of the
pairs done so far, each run in the world that the ones before it have left.
-/
namespace BoardBench.Sweep

open Supervision (Outcome)
open Telemetry (Row)

variable {σ : Type} (settings : Settings) (workbench : Workbench σ)

/-- A benchmark in one of its environments. -/
abbrev Pair := Benchmark × Environment

namespace Settings

/-- The pairs of a sweep, entry by entry. -/
def pairs (config : Config) : List Pair :=
  (config.forBoard settings.target.board).flatMap fun benchmark =>
    benchmark.environments.map fun environment => (benchmark, environment)

/-- A pair in a world, with nothing printed before. -/
def runIn (pair : Pair) (world : σ) : Except Fault PairRun × σ :=
  let (result, journal) := settings.runPair workbench pair.1 pair.2 { world }
  (result, journal.world)

/-- The world after some pairs, one after the other. -/
def worldAfter (pairs : List Pair) (world : σ) : σ :=
  pairs.foldl (fun world pair => (settings.runIn workbench pair world).2) world

/-- What comes of the executions of a pair in a world, in order. -/
def executions (pair : Pair) (world : σ) : List (Except Fault Outcome) :=
  (settings.runIn workbench.logged pair (world, [])).2.2

/-- Some execution of the pair at an index is interrupted, when the pairs before it are done. -/
def IsInterruptedAt (pairs : List Pair) (world : σ) (index : Nat) : Prop :=
  ∃ pair, pairs[index]? = some pair ∧ .error .interrupted ∈
    settings.executions workbench pair (settings.worldAfter workbench (pairs.take index) world)

end Settings

/-! ### One pair -/

/-- A pair that was collected contributes as many rows as it says, and at least one; no other pair
contributes any. -/
def PairRun.IsCounted (run : PairRun) : Prop :=
  match run.status with
  | .collected count _ => run.rows.length = count ∧ 1 ≤ count
  | _ => run.rows = []

/-- What can come of a pair: an interrupt or a counted run. -/
def IsSound : Except Fault PairRun → Prop
  | .error fault => fault = .interrupted
  | .ok run => run.IsCounted

variable {settings workbench}

theorem isSound_pairFault {fault : Fault} (unconfigured : ∀ cause, fault ≠ .config cause) :
    IsSound (Settings.pairFault fault) := by
  cases fault with
  | config cause => exact absurd rfl (unconfigured cause)
  | interrupted => rfl
  | spawn program cause => rfl
  | workDir path => rfl
  | emptyCommand => rfl
  | system cause => rfl

theorem unconfigured_runPhase {request : Supervision.Request} {journal : Journal σ} {fault : Fault}
    (failed : (settings.runPhase workbench request journal).1 = .error fault) :
    ∀ cause, fault ≠ .config cause := by
  rintro cause rfl
  exact (workbench.execute request journal.world).1.unconfigured cause failed

section Sound

variable (settings workbench) (benchmark : Benchmark) (environment : Environment)
  (journal : Journal σ)

theorem isSound_collect :
    IsSound (settings.collect workbench benchmark environment journal).1 := by
  unfold Settings.collect
  cases ran : Retry.run (settings.retryActions workbench benchmark environment) settings.policy
      journal with
  | mk result after =>
    have outcome := congrArg Prod.fst ran
    cases result with
    | error fault =>
      obtain ⟨number, before, failed⟩ := Retry.fault_of_attempt outcome
      exact isSound_pairFault (unconfigured_runPhase failed)
    | ok result =>
      cases result with
      | success rows attempts =>
        -- Marking the rows keeps their number, and the loop succeeds only with rows.
        have some := Retry.rows_ne_nil_of_success outcome
        exact ⟨List.length_map _, List.length_pos_iff.mpr some⟩
      | gaveUp reason attempts last =>
        cases reason with
        | exhausted => rfl
        | declined => rfl

theorem isSound_flashAndCollect :
    IsSound (settings.flashAndCollect workbench benchmark environment journal).1 := by
  unfold Settings.flashAndCollect
  split
  next => exact isSound_collect settings workbench benchmark environment journal
  next =>
    split
    next fault after ran =>
      exact isSound_pairFault (unconfigured_runPhase (congrArg Prod.fst ran))
    next outcome after ran =>
      split
      next => exact isSound_collect settings workbench benchmark environment after
      next => rfl

theorem isSound_buildAndCollect :
    IsSound (settings.buildAndCollect workbench benchmark environment journal).1 := by
  unfold Settings.buildAndCollect
  split
  next fault after ran =>
    exact isSound_pairFault (unconfigured_runPhase (congrArg Prod.fst ran))
  next outcome after ran =>
    split
    next => exact isSound_flashAndCollect settings workbench benchmark environment after
    next => rfl

theorem isSound_runPair :
    IsSound (settings.runPair workbench benchmark environment journal).1 := by
  unfold Settings.runPair
  split
  next => rfl
  next =>
    simp only
    split
    next => exact isSound_buildAndCollect settings workbench benchmark environment _
    next => rfl

end Sound

section Pair

variable (settings workbench) (pair : Pair)

/-- What was printed before makes no difference to a pair. -/
theorem runPair_eq_runIn (journal : Journal σ) :
    (settings.runPair workbench pair.1 pair.2 journal).1 =
        (settings.runIn workbench pair journal.world).1 ∧
      (settings.runPair workbench pair.1 pair.2 journal).2.world =
        (settings.runIn workbench pair journal.world).2 := by
  have agree : Agree (OnWorlds Eq) (OnWorlds Eq)
      (settings.runPair workbench pair.1 pair.2 journal)
      (settings.runPair workbench pair.1 pair.2 { world := journal.world }) :=
    (simulates_self workbench).runPair settings pair.1 pair.2 rfl
  refine ⟨agree.result, ?_⟩
  by_cases interrupted :
      (settings.runPair workbench pair.1 pair.2 journal).1 = .error .interrupted
  · exact agree.strikes interrupted
  · exact agree.quiets interrupted

/-- A pair ends with an interrupt exactly if one of its executions does. -/
theorem interrupted_mem_executions_iff (world : σ) :
    .error .interrupted ∈ settings.executions workbench pair world ↔
      (settings.runIn workbench pair world).1 = .error .interrupted := by
  have silent : OnWorlds
      (fun world (state : σ × List (Except Fault Outcome)) =>
        state.1 = world ∧ .error .interrupted ∉ state.2)
      { world } { world := (world, []) } := ⟨rfl, by simp⟩
  -- The log is empty at first, so what it holds in the end was put there by the pair.
  have agree := (simulates_logged workbench).runPair settings pair.1 pair.2 silent
  constructor
  · intro logged
    by_cases interrupted : (settings.runIn workbench pair world).1 = .error .interrupted
    · exact interrupted
    · exact absurd logged (agree.quiets interrupted).2
  · intro interrupted
    exact (agree.strikes interrupted).2

/-- A pair that yields no run was interrupted. -/
theorem interrupted_of_not_isOk {world : σ}
    (failed : (settings.runIn workbench pair world).1.isOk = false) :
    (settings.runIn workbench pair world).1 = .error .interrupted := by
  have sound : IsSound (settings.runIn workbench pair world).1 :=
    isSound_runPair settings workbench pair.1 pair.2 _
  cases ends : (settings.runIn workbench pair world).1 with
  | error fault =>
    rw [ends] at sound
    exact congrArg Except.error sound
  | ok run =>
    rw [ends] at failed
    cases failed

end Pair

/-! ### Many pairs -/

/-- The pairs were run one after the other, none of them was interrupted, and this is the world they
have left. -/
inductive Covered (settings : Settings) (workbench : Workbench σ) (world : σ) :
    List Pair → List PairRun → σ → Prop
  | start : Covered settings workbench world [] [] world
  | step {done : List Pair} {runs : List PairRun} {now : σ} {pair : Pair} {run : PairRun} :
    Covered settings workbench world done runs now →
      (settings.runIn workbench pair now).1 = .ok run →
      Covered settings workbench world (done ++ [pair]) (runs ++ [run])
        (settings.runIn workbench pair now).2

theorem worldAfter_concat (done : List Pair) (pair : Pair) (world : σ) :
    settings.worldAfter workbench (done ++ [pair]) world =
      (settings.runIn workbench pair (settings.worldAfter workbench done world)).2 :=
  List.foldl_append

namespace Covered

variable {world now : σ} {done : List Pair} {runs : List PairRun}

theorem length_eq (covered : Covered settings workbench world done runs now) :
    done.length = runs.length := by
  induction covered with
  | start => rfl
  | step _ _ ih => rw [List.length_append, List.length_append, ih]; rfl

theorem world_eq (covered : Covered settings workbench world done runs now) :
    now = settings.worldAfter workbench done world := by
  induction covered with
  | start => rfl
  | step _ _ ih => rw [worldAfter_concat, ← ih]

/-- Each run is that of its pair, in the world that the pairs before it have left. -/
theorem run_eq (covered : Covered settings workbench world done runs now) {index : Nat}
    {run : PairRun} (found : runs[index]? = some run) :
    ∃ pair, done[index]? = some pair ∧ (settings.runIn workbench pair
      (settings.worldAfter workbench (done.take index) world)).1 = .ok run := by
  induction covered with
  | start => simp at found
  | @step done runs now pair last before ran ih =>
    have lengths := before.length_eq
    by_cases earlier : index < runs.length
    -- The run is an earlier one, so its pair and its world are too.
    · rw [List.getElem?_append_left earlier] at found
      obtain ⟨other, among, same⟩ := ih found
      have within : index < done.length := by omega
      refine ⟨other, by rw [List.getElem?_append_left within, among], ?_⟩
      rw [List.take_append_of_le_length (Nat.le_of_lt within)]
      exact same
    -- The run is the one that was just added.
    · have final : index = done.length := by
        have bound := (List.getElem?_eq_some_iff.mp found).1
        simp only [List.length_append, List.length_singleton] at bound
        omega
      subst final
      rw [lengths, List.getElem?_concat_length, Option.some.injEq] at found
      refine ⟨pair, List.getElem?_concat_length, ?_⟩
      rw [List.take_left, ← before.world_eq, ran, found]

end Covered

/-! ### The loops -/

def pairReport (pair : Pair) (run : PairRun) : PairReport where
  benchmark := pair.1.name
  environment := pair.2.label
  status := run.status

/-- The report on the runs of some pairs. -/
def reportOn (done : List Pair) (runs : List PairRun) : Report where
  results := ⟨runs.flatMap PairRun.rows⟩
  pairs := (done.zip runs).map fun (pair, run) => pairReport pair run

theorem add_reportOn {done : List Pair} {runs : List PairRun} (lengths : done.length = runs.length)
    (pair : Pair) (run : PairRun) :
    (reportOn done runs).add pair.1 pair.2 run = reportOn (done ++ [pair]) (runs ++ [run]) := by
  simp [reportOn, Report.add, ResultSet.extend, List.zip_append lengths, pairReport]

/-- The loop invariant: some pairs are done, and the report is that of their runs. -/
def Progress.HasDone (settings : Settings) (workbench : Workbench σ) (world : σ) (done : List Pair)
    (progress : Progress σ) : Prop :=
  ∃ runs, Covered settings workbench world done runs progress.journal.world ∧
    progress.report = reportOn done runs

/-- Where a walk over some pairs ends: behind the last one, or at one that is interrupted. -/
inductive Progress.HasWalked (settings : Settings) (workbench : Workbench σ) (world : σ)
    (pairs : List Pair) (progress : Progress σ) : Prop
  | through : progress.HasDone settings workbench world pairs →
    HasWalked settings workbench world pairs progress
  | stopped (done : List Pair) (pair : Pair) (rest : List Pair) (runs : List PairRun) (now : σ) :
    pairs = done ++ pair :: rest → Covered settings workbench world done runs now →
      (settings.runIn workbench pair now).1 = .error .interrupted →
      progress.report = { reportOn done runs with interrupted := true } →
      HasWalked settings workbench world pairs progress

namespace Progress

variable {world : σ} {done : List Pair} {progress : Progress σ}

theorem HasDone.uninterrupted (hasDone : progress.HasDone settings workbench world done) :
    progress.report.interrupted = false := by
  obtain ⟨runs, -, report⟩ := hasDone
  rw [report]
  rfl

/-- What is printed between two pairs is not part of the invariant. -/
theorem HasDone.print (hasDone : progress.HasDone settings workbench world done)
    (lines : List String) :
    { progress with journal := progress.journal.print lines }.HasDone settings workbench world
      done :=
  hasDone

theorem HasWalked.append {pairs : List Pair}
    (walked : progress.HasWalked settings workbench world pairs)
    (interrupted : progress.report.interrupted = true) (more : List Pair) :
    progress.HasWalked settings workbench world (pairs ++ more) := by
  cases walked with
  | through hasDone =>
    rw [hasDone.uninterrupted] at interrupted
    cases interrupted
  | stopped done pair rest runs now split covered failed report =>
    exact .stopped done pair (rest ++ more) runs now (by simp [split]) covered failed report

theorem HasWalked.hasDone {pairs : List Pair}
    (walked : progress.HasWalked settings workbench world pairs)
    (running : progress.report.interrupted = false) :
    progress.HasDone settings workbench world pairs := by
  cases walked with
  | through hasDone => exact hasDone
  | stopped done pair rest runs now split covered failed report =>
    rw [report] at running
    cases running

/-- One pair keeps the invariant, unless it is interrupted. -/
theorem HasDone.sweepPair (hasDone : progress.HasDone settings workbench world done)
    (pair : Pair) :
    (settings.sweepPair workbench pair.1 pair.2 progress).HasWalked settings workbench world
      (done ++ [pair]) := by
  obtain ⟨runs, covered, report⟩ := hasDone
  obtain ⟨result, leaves⟩ := runPair_eq_runIn settings workbench pair progress.journal
  have sound := isSound_runPair settings workbench pair.1 pair.2 progress.journal
  unfold Settings.sweepPair
  cases ran : settings.runPair workbench pair.1 pair.2 progress.journal with
  | mk outcome journal =>
    rw [ran] at result leaves sound
    cases outcome with
    | error fault =>
      -- Only an interrupt gets past the pair, and the report stays as it was before.
      have interrupt : fault = .interrupted := sound
      subst interrupt
      exact .stopped done pair [] runs progress.journal.world rfl covered result.symm
        (by simp [report])
    | ok run =>
      -- The pair is done and its run is added to the report.
      refine .through ⟨runs ++ [run], ?_, ?_⟩
      · have next := covered.step result.symm
        rw [← leaves] at next
        exact next
      · exact (congrArg (·.add pair.1 pair.2 run) report).trans
          (add_reportOn covered.length_eq pair run)

/-- The pairs of one entry. -/
theorem HasDone.sweepEnvironments (benchmark : Benchmark)
    (hasDone : progress.HasDone settings workbench world done) (environments : List Environment) :
    (settings.sweepEnvironments workbench benchmark progress environments).HasWalked settings
      workbench world (done ++ environments.map fun environment => (benchmark, environment)) := by
  induction environments generalizing progress done with
  | nil =>
    rw [List.map_nil, List.append_nil]
    exact .through hasDone
  | cons environment rest ih =>
    have walked := hasDone.sweepPair (benchmark, environment)
    -- The environment is moved over to the pairs that are done.
    rw [List.map_cons, List.append_cons, Settings.sweepEnvironments]
    split
    next interrupted => exact walked.append interrupted _
    next running =>
      rw [Bool.not_eq_true] at running
      exact ih (walked.hasDone running)

theorem HasDone.sweepBenchmark (hasDone : progress.HasDone settings workbench world done)
    (benchmark : Benchmark) :
    (settings.sweepBenchmark workbench benchmark progress).HasWalked settings workbench world
      (done ++ benchmark.environments.map fun environment => (benchmark, environment)) := by
  unfold Settings.sweepBenchmark
  split
  next empty =>
    rw [List.isEmpty_iff.mp empty, List.map_nil, List.append_nil]
    exact .through hasDone
  next =>
    exact (hasDone.print (settings.benchmarkBanner benchmark)).sweepEnvironments benchmark
      benchmark.environments

/-- All entries. -/
theorem HasDone.sweepBenchmarks (hasDone : progress.HasDone settings workbench world done)
    (benchmarks : List Benchmark) :
    (settings.sweepBenchmarks workbench progress benchmarks).HasWalked settings workbench world
      (done ++ benchmarks.flatMap fun benchmark =>
        benchmark.environments.map fun environment => (benchmark, environment)) := by
  induction benchmarks generalizing progress done with
  | nil =>
    rw [List.flatMap_nil, List.append_nil]
    exact .through hasDone
  | cons benchmark rest ih =>
    have walked := hasDone.sweepBenchmark benchmark
    rw [List.flatMap_cons, ← List.append_assoc, Settings.sweepBenchmarks]
    split
    next interrupted => exact walked.append interrupted _
    next running =>
      rw [Bool.not_eq_true] at running
      exact ih (walked.hasDone running)

end Progress

/-- A sweep walks over its pairs. -/
theorem hasWalked_sweep (settings : Settings) (workbench : Workbench σ) (config : Config)
    (world : σ) :
    (settings.sweep workbench config world).HasWalked settings workbench world
      (settings.pairs config) := by
  have start : Progress.HasDone settings workbench world [] { journal := { world } } :=
    ⟨[], .start, rfl⟩
  exact start.sweepBenchmarks (config.forBoard settings.target.board)

/-! ### The accounts -/

/-- What tells a pair from others in a report. -/
def Pair.labels (pair : Pair) : String × String :=
  (pair.1.name, pair.2.label)

def PairReport.labels (report : PairReport) : String × String :=
  (report.benchmark, report.environment)

/-- How many rows a status speaks of. -/
def PairStatus.rowCount : PairStatus → Nat
  | collected count _ => count
  | _ => 0

theorem PairRun.IsCounted.length_rows {run : PairRun} (counted : run.IsCounted) :
    run.rows.length = run.status.rowCount := by
  unfold PairRun.IsCounted at counted
  cases status : run.status with
  | collected count attempts =>
    rw [status] at counted
    exact counted.1
  | skipped reason =>
    rw [status] at counted
    simp [counted, PairStatus.rowCount]
  | failed failure =>
    rw [status] at counted
    simp [counted, PairStatus.rowCount]

theorem labels_reportOn {done : List Pair} {runs : List PairRun}
    (lengths : done.length = runs.length) :
    (reportOn done runs).pairs.map PairReport.labels = done.map Pair.labels := by
  have pairs : (reportOn done runs).pairs.map PairReport.labels =
      ((done.zip runs).map Prod.fst).map Pair.labels := by
    simp only [reportOn, List.map_map]
    rfl
  rw [pairs, List.map_fst_zip (Nat.le_of_eq lengths)]

theorem size_reportOn {done : List Pair} {runs : List PairRun} (lengths : done.length = runs.length)
    (counted : ∀ run ∈ runs, run.IsCounted) :
    (reportOn done runs).results.size =
      ((reportOn done runs).pairs.map fun pair => pair.status.rowCount).sum := by
  have statuses : (reportOn done runs).pairs.map (fun pair => pair.status.rowCount) =
      ((done.zip runs).map Prod.snd).map fun run => run.status.rowCount := by
    simp only [reportOn, List.map_map]
    rfl
  rw [statuses, List.map_snd_zip (Nat.le_of_eq lengths.symm), ResultSet.size, reportOn,
    List.length_flatMap]
  exact congrArg List.sum (List.map_congr_left fun run member => (counted run member).length_rows)

theorem PairStatus.isFailed_iff (status : PairStatus) :
    status.isFailed = true ↔ ∃ failure, status = .failed failure := by
  cases status <;> simp [isFailed]

namespace Covered

variable {world now : σ} {done : List Pair} {runs : List PairRun}

theorem isCounted (covered : Covered settings workbench world done runs now) :
    ∀ run ∈ runs, run.IsCounted := by
  intro run member
  obtain ⟨index, found⟩ := List.mem_iff_getElem?.mp member
  obtain ⟨pair, -, ran⟩ := covered.run_eq found
  have sound : IsSound (settings.runIn workbench pair
      (settings.worldAfter workbench (done.take index) world)).1 :=
    isSound_runPair settings workbench pair.1 pair.2 _
  rw [ran] at sound
  exact sound

/-- No pair that is done was interrupted. -/
theorem not_isInterruptedAt (covered : Covered settings workbench world done runs now)
    (rest : List Pair) {index : Nat} (earlier : index < done.length) :
    ¬settings.IsInterruptedAt workbench (done ++ rest) world index := by
  rintro ⟨pair, found, struck⟩
  have within : index < runs.length := covered.length_eq ▸ earlier
  obtain ⟨other, among, ran⟩ := covered.run_eq (List.getElem?_eq_getElem within)
  rw [List.getElem?_append_left earlier, among, Option.some.injEq] at found
  rw [List.take_append_of_le_length (Nat.le_of_lt earlier), interrupted_mem_executions_iff,
    ← found, ran] at struck
  cases struck

theorem never_interrupted (covered : Covered settings workbench world done runs now)
    (index : Nat) : ¬settings.IsInterruptedAt workbench done world index := by
  rintro ⟨pair, found, struck⟩
  have within : index < done.length := (List.getElem?_eq_some_iff.mp found).1
  have uninterrupted := covered.not_isInterruptedAt [] within
  rw [List.append_nil] at uninterrupted
  exact uninterrupted ⟨pair, found, struck⟩

theorem isInterruptedAt (covered : Covered settings workbench world done runs now) {pair : Pair}
    (failed : (settings.runIn workbench pair now).1 = .error .interrupted) (rest : List Pair) :
    settings.IsInterruptedAt workbench (done ++ pair :: rest) world done.length := by
  refine ⟨pair, by simp, ?_⟩
  rw [List.take_left, interrupted_mem_executions_iff, ← covered.world_eq]
  exact failed

end Covered

/-- Without an interrupt a sweep reports on all pairs, with one it reports on the pairs before the
one that it strikes. Its results are the rows of the reported pairs, each run in the world that the
pairs before it have left. -/
theorem sweep_accounts (settings : Settings) (workbench : Workbench σ) (config : Config)
    (world : σ) :
    let pairs := settings.pairs config
    let report := (settings.sweep workbench config world).report
    ((∀ index, ¬settings.IsInterruptedAt workbench pairs world index) →
      report.interrupted = false ∧
        report.pairs.map PairReport.labels = pairs.map Pair.labels) ∧
    (∀ index, settings.IsInterruptedAt workbench pairs world index →
      (∀ earlier < index, ¬settings.IsInterruptedAt workbench pairs world earlier) →
      report.interrupted = true ∧
        report.pairs.map PairReport.labels = (pairs.take index).map Pair.labels) ∧
    (∃ runs : List PairRun,
      (∀ index run, runs[index]? = some run → ∃ pair, pairs[index]? = some pair ∧
        (settings.runIn workbench pair
          (settings.worldAfter workbench (pairs.take index) world)).1 = .ok run) ∧
      report.pairs = ((pairs.zip runs).map fun (pair, run) => pairReport pair run) ∧
      report.results.records = runs.flatMap PairRun.rows ∧ ∀ run ∈ runs, run.IsCounted) ∧
    report.results.size = (report.pairs.map fun pair => pair.status.rowCount).sum ∧
    report.failures = (report.pairs.filter fun pair => pair.status.isFailed) ∧
    ∀ pair ∈ report.pairs,
      pair.status.isFailed = true ↔ ∃ failure, pair.status = .failed failure := by
  intro pairs report
  have failures : report.failures = report.pairs.filter (fun pair => pair.status.isFailed) ∧
      ∀ pair ∈ report.pairs,
        pair.status.isFailed = true ↔ ∃ failure, pair.status = .failed failure :=
    ⟨rfl, fun pair _ => PairStatus.isFailed_iff pair.status⟩
  cases hasWalked_sweep settings workbench config world with
  | through hasDone =>
    -- All pairs are done, so none of them is interrupted.
    obtain ⟨runs, covered, written⟩ := hasDone
    have account : report = reportOn pairs runs := written
    have lengths := covered.length_eq
    refine ⟨?_, ?_, ⟨runs, ?_, ?_, ?_, covered.isCounted⟩, ?_, failures⟩
    · intro _
      rw [account]
      exact ⟨rfl, labels_reportOn lengths⟩
    · intro index interrupted
      exact absurd interrupted (covered.never_interrupted index)
    · exact fun index run found => covered.run_eq found
    · rw [account]
      rfl
    · rw [account]
      rfl
    · rw [account]
      exact size_reportOn lengths covered.isCounted
  | stopped done pair rest runs now split covered failed written =>
    have account : report = { reportOn done runs with interrupted := true } := written
    -- The pair at which the walk stopped is the first one that is interrupted.
    have cut : pairs = done ++ pair :: rest := split
    have lengths := covered.length_eq
    have strikes := covered.isInterruptedAt failed rest
    rw [← cut] at strikes
    refine ⟨?_, ?_, ⟨runs, ?_, ?_, ?_, covered.isCounted⟩, ?_, failures⟩
    · intro uninterrupted
      exact absurd strikes (uninterrupted done.length)
    · intro index interrupted first
      have same : index = done.length := by
        rcases Nat.lt_trichotomy index done.length with below | same | above
        · rw [cut] at interrupted
          exact absurd interrupted (covered.not_isInterruptedAt _ below)
        · exact same
        · exact absurd strikes (first done.length above)
      rw [account, same, cut, List.take_left]
      exact ⟨rfl, labels_reportOn lengths⟩
    · intro index run found
      obtain ⟨other, among, ran⟩ := covered.run_eq found
      have within : index < done.length := (List.getElem?_eq_some_iff.mp among).1
      rw [cut, List.getElem?_append_left within,
        List.take_append_of_le_length (Nat.le_of_lt within)]
      exact ⟨other, among, ran⟩
    -- There are as many runs as pairs done, so the pairs left over do not show.
    · have front : (done ++ pair :: rest).zip runs = done.zip runs := by
        rw [← List.append_nil runs, List.zip_append lengths, List.zip_nil_right, List.append_nil,
          List.append_nil]
      rw [account, cut, front]
      rfl
    · rw [account]
      rfl
    · rw [account]
      exact size_reportOn lengths covered.isCounted

/-- A world that counts executions, of which the third one is interrupted. -/
def counter : Workbench Nat where
  isDirectory _ _ := true
  execute _ count :=
    ({ seen := []
       result := if count = 2 then .error .interrupted
         else .ok { exit := .ended (.code 0), transcript := [], rows := [Row.empty] }
       unconfigured := by intro cause; split <;> simp }, count + 1)
  decide _ _ count := ({ answer := false }, count)

def counterSettings : Settings where
  commands := { build := ["make"], flash := ["make", "flash"], run := ["make", "term"] }
  target := { board := "native", workdir := "/" }

def counterConfig : Config where
  benchmarks :=
    [{ name := "sum", filename := "sum.c", scaleFactor := 1, iterations := 1, board := "native"
       environments := [{ name := "wasm" }, { name := "rbpf" }] }]
  commands := counterSettings.commands

theorem counter_accounts :
    (counterSettings.sweep counter counterConfig 0).report.interrupted = true ∧
      (counterSettings.sweep counter counterConfig 0).report.pairs.map PairReport.labels =
        [("sum", "wasm")] := by
  have struck : counterSettings.IsInterruptedAt counter
      (counterSettings.pairs counterConfig) 0 1 := by
    refine ⟨_, rfl, ?_⟩
    rw [interrupted_mem_executions_iff]
    exact interrupted_of_not_isOk _ _ _ (by decide +kernel)
  have quiet : ∀ earlier < 1, ¬counterSettings.IsInterruptedAt counter
      (counterSettings.pairs counterConfig) 0 earlier := by
    intro earlier below
    rw [Nat.lt_one_iff.mp below]
    rintro ⟨pair, found, logged⟩
    cases found
    rw [interrupted_mem_executions_iff] at logged
    have fine := congrArg Except.isOk logged
    exact absurd fine (by decide +kernel)
  exact (sweep_accounts counterSettings counter counterConfig 0).2.1 1 struck quiet

end BoardBench.Sweep
