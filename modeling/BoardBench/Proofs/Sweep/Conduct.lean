import BoardBench.Proofs.Sweep.Phases

/-!
# The conduct of a sweep

Main result: the record of a sweep is made of the events of its pairs, and those of each reported
pair are the ones that belong to its status.

Proof strategy: a recorded run adds events to the record, and if it ends with a status then these
events and the status satisfy a relation. This is shown for the run phase from what the retry loop
keeps, and then from phase to phase.
-/
namespace BoardBench.Sweep

open Supervision (Request Outcome)

variable {σ : Type}

/-- A run that started with a record has added events to it that fit the status it ended with. -/
def Records (spec : List Event → PairStatus → Prop) (before : List Event)
    (ending : Except Fault PairRun × Journal (σ × List Event)) : Prop :=
  ∃ events, ending.2.world.2 = before ++ events ∧
    ∀ run, ending.1 = .ok run → spec events run.status

variable {settings : Settings} {workbench : Workbench σ}

theorem record_of_runPhase {request : Request} {journal after : Journal (σ × List Event)}
    {result : Except Fault Outcome}
    (ran : settings.runPhase workbench.recorded request journal = (result, after)) :
    after.world.2 = journal.world.2 ++ [.ran request result] := by
  obtain ⟨ended, world⟩ := execute_of_runPhase ran
  rw [world, ended]
  rfl

theorem record_of_decide {benchmark : Benchmark} {environment : Environment}
    {attempt maxAttempts : UInt32} {journal after : Journal (σ × List Event)} {answer : Bool}
    (asked : (settings.retryActions workbench.recorded benchmark environment).decide attempt
      maxAttempts journal = (answer, after)) :
    after.world.2 = journal.world.2 ++ [.answered answer] := by
  cases asked
  rfl

/-- A fault that ends a pair with a status is not fatal, and the status is a failure to start. -/
theorem status_of_pairFault {fault : Fault} {run : PairRun}
    (ended : Settings.pairFault fault = .ok run) :
    fault.isFatal = false ∧ run.status = .failed (.spawn fault.message) := by
  unfold Settings.pairFault at ended
  split at ended
  · cases ended
  next mild =>
    cases ended
    exact ⟨by simpa using mild, rfl⟩

/-! ### The run phase -/

section Run

variable (settings : Settings) (workbench : Workbench σ) (benchmark : Benchmark)
  (environment : Environment)

/-- The attempts made so far had no rows, and they are all that was added to the record. -/
def OnlyRepeated (request : Request) (before : List Event) (made : UInt32)
    (journal : Journal (σ × List Event)) : Prop :=
  ∃ outcomes : List Outcome, (∀ outcome ∈ outcomes, outcome.rows = []) ∧
    made.toNat = outcomes.length ∧ journal.world.2 = before ++ repeated request outcomes

theorem keeps_onlyRepeated (before : List Event) :
    (settings.retryActions workbench.recorded benchmark environment).Keeps
      settings.policy.maxAttempts
      (OnlyRepeated (settings.runRequest benchmark environment) before) := by
  rintro made journal outcome after next below - ⟨outcomes, fruitless, counted, record⟩ attempted
    empty asked
  -- The attempt joins those that were repeated, with its answer.
  refine ⟨outcomes ++ [outcome], ?_, ?_, ?_⟩
  · intro other among
    rcases List.mem_append.mp among with earlier | now
    · exact fruitless other earlier
    · rw [List.mem_singleton.mp now]
      exact Retry.rows_eq_nil_iff.mpr empty
  · rw [Retry.toNat_next below, counted, List.length_append, List.length_singleton]
  · rw [record_of_decide asked, record_of_runPhase attempted, record]
    simp [repeated]

theorem records_collect (journal : Journal (σ × List Event)) :
    Records (Collects (settings.runRequest benchmark environment) settings.policy.maxAttempts)
      journal.world.2 (settings.collect workbench.recorded benchmark environment journal) := by
  have start : OnlyRepeated (settings.runRequest benchmark environment) journal.world.2 0 journal :=
    ⟨[], by simp, rfl, by simp [repeated]⟩
  obtain ⟨made, last, below, ⟨outcomes, fruitless, counted, record⟩, leaves⟩ :=
    Retry.run_leaves (keeps_onlyRepeated settings workbench benchmark environment _) start
  have number : (made + 1).toNat = outcomes.length + 1 := by
    rw [Retry.toNat_next below, counted]
  have within : made + 1 ≤ settings.policy.maxAttempts := by
    rw [UInt32.lt_iff_toNat_lt] at below
    rw [UInt32.le_iff_toNat_le]
    omega
  -- What the last attempt adds to the record comes after the repeated ones.
  have ran {result : Except Fault Outcome} {after : Journal (σ × List Event)}
      (attempted : settings.runPhase workbench.recorded (settings.runRequest benchmark environment)
        last = (result, after)) :
      after.world.2 = journal.world.2 ++
        (repeated (settings.runRequest benchmark environment) outcomes ++
          [.ran (settings.runRequest benchmark environment) result]) := by
    rw [record_of_runPhase attempted, record, List.append_assoc]
  unfold Settings.collect
  generalize Retry.run _ _ _ = ending at leaves
  cases leaves with
  | fault attempted =>
    refine ⟨_, ran attempted, ?_⟩
    intro run ended
    obtain ⟨mild, status⟩ := status_of_pairFault ended
    rw [status]
    exact .after outcomes fruitless number within (.fault mild)
  | success attempted telemetry =>
    have record := ran attempted
    refine ⟨_, record, ?_⟩
    intro run ended
    cases ended
    exact .after outcomes fruitless number within (.rows (Retry.rows_ne_nil_iff.mpr telemetry))
  | exhausted attempted empty spent =>
    refine ⟨_, ran attempted, ?_⟩
    intro run ended
    cases ended
    exact .after outcomes fruitless number within
      (.exhausted (Retry.rows_eq_nil_iff.mpr empty) spent)
  | declined attempted empty more asked =>
    -- The answer no is the one event that comes after the last attempt.
    have record := record_of_decide asked
    rw [ran attempted, List.append_assoc, List.append_assoc] at record
    refine ⟨_, record, ?_⟩
    intro run ended
    cases ended
    exact .after outcomes fruitless number within
      (.declined (Retry.rows_eq_nil_iff.mpr empty) more)

end Run

/-! ### The phases before it -/

/-- One command, and what follows if it exits with code zero. -/
def Settings.prepare (settings : Settings) (workbench : Workbench σ) (request : Request)
    (failure : Option Int → Failure) (next : Journal σ → Except Fault PairRun × Journal σ)
    (journal : Journal σ) : Except Fault PairRun × Journal σ :=
  match settings.runPhase workbench request journal with
  | (.error fault, journal) => (pairFault fault, journal)
  | (.ok outcome, journal) =>
    if outcome.exit.isSuccess then next journal
    else (.ok { status := .failed (failure outcome.exit.code?) }, journal)

section Phases

variable (settings : Settings) (workbench : Workbench σ) (benchmark : Benchmark)
  (environment : Environment)

theorem flashAndCollect_eq_prepare (foreign : ¬settings.target.isNative) (journal : Journal σ) :
    settings.flashAndCollect workbench benchmark environment journal =
      settings.prepare workbench (settings.flashRequest (benchmark, environment)) .flash
        (settings.collect workbench benchmark environment) journal :=
  if_neg foreign

theorem buildAndCollect_eq_prepare (journal : Journal σ) :
    settings.buildAndCollect workbench benchmark environment journal =
      settings.prepare workbench (settings.buildRequest (benchmark, environment)) .build
        (settings.flashAndCollect workbench benchmark environment) journal :=
  rfl

variable (journal : Journal (σ × List Event))

theorem records_prepare (request : Request) (failure : Option Int → Failure)
    {spec : List Event → PairStatus → Prop}
    {next : Journal (σ × List Event) → Except Fault PairRun × Journal (σ × List Event)}
    (records : ∀ after, Records spec after.world.2 (next after)) :
    Records (Prepares request failure spec) journal.world.2
      (settings.prepare workbench.recorded request failure next journal) := by
  unfold Settings.prepare
  split
  next fault after ran =>
    refine ⟨_, record_of_runPhase ran, ?_⟩
    intro run ended
    obtain ⟨mild, status⟩ := status_of_pairFault ended
    rw [status]
    exact .fault mild
  next outcome after ran =>
    have record := record_of_runPhase ran
    split
    next clean =>
      -- The next phase starts with a record that ends in this command.
      obtain ⟨events, added, fits⟩ := records after
      refine ⟨.ran request (.ok outcome) :: events, ?_, ?_⟩
      · rw [added, record, List.append_assoc, List.singleton_append]
      · intro run ended
        exact .passed (by simpa [Supervision.Exit.isSuccess] using clean) (fits run ended)
    next unclean =>
      refine ⟨_, record, ?_⟩
      intro run ended
      cases ended
      exact .failed (by simpa [Supervision.Exit.isSuccess] using unclean)

theorem records_flashAndCollect :
    Records (settings.Flashes (benchmark, environment)) journal.world.2
      (settings.flashAndCollect workbench.recorded benchmark environment journal) := by
  unfold Settings.Flashes
  split
  next native =>
    rw [Settings.flashAndCollect, if_pos native]
    exact records_collect settings workbench benchmark environment journal
  next foreign =>
    rw [flashAndCollect_eq_prepare settings workbench.recorded benchmark environment foreign]
    exact records_prepare settings workbench journal _ _
      (records_collect settings workbench benchmark environment)

theorem records_buildAndCollect :
    Records (settings.Builds (benchmark, environment)) journal.world.2
      (settings.buildAndCollect workbench.recorded benchmark environment journal) := by
  rw [buildAndCollect_eq_prepare]
  exact records_prepare settings workbench journal _ _
    (records_flashAndCollect settings workbench benchmark environment)

theorem records_runPair :
    Records
      (settings.Conducts (benchmark, environment)
        (workbench.isDirectory (settings.target.directory environment) journal.world.1))
      journal.world.2 (settings.runPair workbench.recorded benchmark environment journal) := by
  unfold Settings.runPair
  split
  next off =>
    refine ⟨[], (List.append_nil _).symm, ?_⟩
    intro run ended
    cases ended
    exact .disabled off
  next on =>
    rw [Bool.not_eq_true] at on
    simp only
    split
    next present =>
      -- The banner is printed, which the record does not show.
      obtain ⟨events, added, fits⟩ := records_buildAndCollect settings workbench benchmark
        environment
        (journal.print (Settings.pairBanner benchmark environment))
      refine ⟨events, added, ?_⟩
      intro run ended
      exact .phased on present (fits run ended)
    next absent =>
      refine ⟨[], (List.append_nil _).symm, ?_⟩
      intro run ended
      cases ended
      exact .missing on (Bool.eq_false_iff.mpr absent)

end Phases

/-! ### The sweep -/

theorem conducts_events (settings : Settings) (workbench : Workbench σ) {pair : Pair} {world : σ}
    {run : PairRun} (ended : (settings.runIn workbench pair world).1 = .ok run) :
    settings.Conducts pair
      (workbench.isDirectory (settings.target.directory pair.2) world)
      (settings.events workbench pair world) run.status := by
  obtain ⟨events, added, fits⟩ := records_runPair settings workbench pair.1 pair.2
    { world := (world, []) }
  have same : settings.events workbench pair world = events := added
  have recorded := runIn_recorded settings workbench pair world []
  rw [ended] at recorded
  rw [same]
  exact fits run (congrArg Prod.fst recorded)

end BoardBench.Sweep
