import BoardBench.Proofs.Sweep.Truncation
import BoardBench.Proofs.Telemetry.Row
import Mathlib.Data.List.Forall2

/-!
# Rows with the marks of their pair

Main result: the records of a collected pair are the rows of the attempt that succeeded, one by one
and in order. Each of them has the marks of its pair, in place of the values that a device gave to
columns of these names, and is the row of the device in everything else.

Proof strategy: marking a row is setting four cells. The rows of a pair are those of the last event
in its record, which is followed from the run phase back through the phases before it.
-/
namespace BoardBench.Sweep

open Supervision (Outcome Request)
open Telemetry (Cell Row)

variable {σ : Type}

/-! ### One row -/

/-- The columns that tell what a row belongs to. -/
def markNames : List String :=
  ["benchmark", "environment", "board", "scale_factor"]

/-- The record has the marks of the pair and is the row in everything else. -/
structure IsEnriched (pair : Pair) (row record : Row) : Prop where
  columns : record.columns = row.columns ++ markNames.filter (· ∉ row.columns)
  benchmark : record.get? "benchmark" = some pair.1.name
  environment : record.get? "environment" = some (pair.2.label?.getD pair.2.name)
  board : record.get? "board" = some pair.1.board
  scaleFactor : record.get? "scale_factor" = some (toString pair.1.scaleFactor.toNat)
  others : ∀ column, column ∉ markNames → record.get? column = row.get? column
  iteration : record.iteration? = row.iteration?
  distinct : record.columns.Nodup

/-- The marks of a pair. -/
def Pair.marks (pair : Pair) : List Cell :=
  [("benchmark", pair.1.name), ("environment", pair.2.label), ("board", pair.1.board),
    ("scale_factor", toString pair.1.scaleFactor.toNat)]

section Row

variable (pair : Pair) (row : Row)

theorem names_marks : pair.marks.map Prod.fst = markNames := rfl

theorem nodup_marks : (pair.marks.map Prod.fst).Nodup := by
  rw [names_marks]
  decide

theorem get?_enrich {name value : String} (mark : (name, value) ∈ pair.marks) :
    (enrich pair.1 pair.2 row).get? name = some value :=
  row.get?_setAll_of_mem (nodup_marks pair) mark

theorem get?_enrich_of_not_mem {column : String} (other : column ∉ markNames) :
    (enrich pair.1 pair.2 row).get? column = row.get? column := by
  rw [← names_marks pair] at other
  exact row.get?_setAll_of_not_mem other

theorem isEnriched_enrich : IsEnriched pair row (enrich pair.1 pair.2 row) where
  columns := row.columns_setAll (nodup_marks pair)
  benchmark := get?_enrich pair row (by simp [Pair.marks])
  environment := get?_enrich pair row (by simp [Pair.marks, Environment.label])
  board := get?_enrich pair row (by simp [Pair.marks])
  scaleFactor := get?_enrich pair row (by simp [Pair.marks])
  others _ other := get?_enrich_of_not_mem pair row other
  iteration := by
    have unlike : ∀ name ∈ pair.marks.map Prod.fst,
        sameIgnoringCase name Row.iterationColumn = false := by
      rw [names_marks]
      decide
    exact row.iteration?_setAll (List.forall_mem_map.mp unlike)
  distinct := (enrich pair.1 pair.2 row).distinct

end Row

/-! ### The rows of a pair -/

/-- A recorded run with rows ends with an attempt, and its rows are those of the attempt with the
marks of the pair. -/
def Harvests (settings : Settings) (pair : Pair)
    (ending : Except Fault PairRun × Journal (σ × List Event)) : Prop :=
  ∀ run, ending.1 = .ok run → run.rows ≠ [] → ∃ earlier outcome,
    ending.2.world.2 = earlier ++ [.ran (settings.runRequest pair.1 pair.2) (.ok outcome)] ∧
      run.rows = outcome.rows.map (enrich pair.1 pair.2)

theorem rows_of_pairFault {fault : Fault} {run : PairRun}
    (ended : Settings.pairFault fault = .ok run) : run.rows = [] := by
  unfold Settings.pairFault at ended
  split at ended
  · cases ended
  · cases ended
    rfl

section Harvests

variable (settings : Settings) (workbench : Workbench σ) (pair : Pair)
  (journal : Journal (σ × List Event))

theorem harvests_collect :
    Harvests settings pair (settings.collect workbench.recorded pair.1 pair.2 journal) := by
  obtain ⟨made, last, leaves⟩ : ∃ made last, Retry.Leaves
      (settings.retryActions workbench.recorded pair.1 pair.2) settings.policy.maxAttempts made last
      (Retry.run (settings.retryActions workbench.recorded pair.1 pair.2) settings.policy
        journal) :=
    Retry.runFrom_leaves_some settings.policy.positive
  -- What the attempt that ends the loop adds to the record.
  have ran {result : Except Fault Outcome} {after : Journal (σ × List Event)}
      (attempted : settings.runPhase workbench.recorded (settings.runRequest pair.1 pair.2) last =
        (result, after)) :
      after.world.2 = last.world.2 ++ [.ran (settings.runRequest pair.1 pair.2) result] :=
    record_of_runPhase attempted
  unfold Settings.collect
  generalize Retry.run _ _ _ = ending at leaves
  intro run ended some
  -- Only a success leaves rows, and what is printed about it is not recorded.
  cases leaves with
  | fault attempted => exact absurd (rows_of_pairFault ended) some
  | success attempted telemetry =>
    have record := ran attempted
    cases ended
    exact ⟨_, _, record, rfl⟩
  | exhausted attempted empty spent =>
    cases ended
    exact absurd rfl some
  | declined attempted empty more asked =>
    cases ended
    exact absurd rfl some

theorem harvests_prepare (request : Request) (failure : Option Int → Failure)
    {next : Journal (σ × List Event) → Except Fault PairRun × Journal (σ × List Event)}
    (harvests : ∀ after, Harvests settings pair (next after)) :
    Harvests settings pair
      (settings.prepare workbench.recorded request failure next journal) := by
  unfold Settings.prepare
  split
  next fault after ran =>
    intro run ended some
    exact absurd (rows_of_pairFault ended) some
  next outcome after ran =>
    split
    next => exact harvests after
    next =>
      intro run ended some
      cases ended
      exact absurd rfl some

theorem harvests_flashAndCollect :
    Harvests settings pair (settings.flashAndCollect workbench.recorded pair.1 pair.2 journal) := by
  by_cases native : settings.target.isNative
  · rw [Settings.flashAndCollect, if_pos native]
    exact harvests_collect settings workbench pair journal
  · rw [flashAndCollect_eq_prepare settings workbench.recorded pair.1 pair.2 native]
    exact harvests_prepare settings workbench pair journal _ _
      (harvests_collect settings workbench pair)

theorem harvests_runPair :
    Harvests settings pair (settings.runPair workbench.recorded pair.1 pair.2 journal) := by
  have skipped (reason : SkipReason) (journal : Journal (σ × List Event)) :
      Harvests settings pair (.ok { status := .skipped reason }, journal) := by
    intro run ended some
    cases ended
    exact absurd rfl some
  unfold Settings.runPair
  split
  next => exact skipped _ journal
  next =>
    simp only
    split
    next =>
      rw [buildAndCollect_eq_prepare]
      exact harvests_prepare settings workbench pair _ _ _
        (harvests_flashAndCollect settings workbench pair)
    next => exact skipped _ journal

end Harvests

/-- The rows of a run are those of the last event of its pair, with the marks of the pair. -/
theorem exists_attempt_of_rows {settings : Settings} {workbench : Workbench σ} {pair : Pair}
    {world : σ} {run : PairRun} (ended : (settings.runIn workbench pair world).1 = .ok run)
    (some : run.rows ≠ []) : ∃ earlier outcome,
      settings.events workbench pair world =
          earlier ++ [.ran (settings.runRequest pair.1 pair.2) (.ok outcome)] ∧
        run.rows = outcome.rows.map (enrich pair.1 pair.2) := by
  have recorded := runIn_recorded settings workbench pair world []
  rw [ended] at recorded
  exact harvests_runPair settings workbench pair { world := (world, []) } run
    (congrArg Prod.fst recorded) some

/-! ### The records of a sweep -/

section Records

variable (settings : Settings) (workbench : Workbench σ) (config : Config) (world : σ)

/-- The report of a sweep is that of the runs of its first pairs. -/
theorem exists_covered_sweep : ∃ done rest runs now,
    settings.pairs config = done ++ rest ∧
      Covered settings workbench world done runs now ∧
      (settings.sweep workbench config world).report.pairs = (reportOn done runs).pairs ∧
      (settings.sweep workbench config world).report.results = (reportOn done runs).results := by
  cases hasWalked_sweep settings workbench config world with
  | through hasDone =>
    obtain ⟨runs, covered, report⟩ := hasDone
    exact ⟨_, [], runs, _, (List.append_nil _).symm, covered, by rw [report], by rw [report]⟩
  | stopped done pair rest runs now split covered failed report =>
    exact ⟨done, pair :: rest, runs, now, split, covered, by rw [report], by rw [report]⟩

theorem take_reportOn {done : List Pair} {runs : List PairRun} (count : Nat) :
    (reportOn done runs).pairs.take count =
      (reportOn (done.take count) (runs.take count)).pairs := by
  simp only [reportOn, ← List.map_take, List.zip, List.take_zipWith]

/-- The rows of a reported pair stand together among the records, behind those of the pairs before
it. -/
theorem exists_split_records {index : Nat} {pair : Pair} {run : PairRun}
    (reported : index < (settings.sweep workbench config world).report.pairs.length)
    (among : (settings.pairs config)[index]? = some pair)
    (ended : (settings.runIn workbench pair
      (settings.worldAfter workbench ((settings.pairs config).take index) world)).1 = .ok run) :
    let report := (settings.sweep workbench config world).report
    ∃ before after, report.results.records = before ++ run.rows ++ after ∧
      before.length = ((report.pairs.take index).map fun pair => pair.status.rowCount).sum := by
  obtain ⟨done, rest, runs, now, split, covered, pairs, results⟩ :=
    exists_covered_sweep settings workbench config world
  have lengths := covered.length_eq
  rw [pairs, reportOn, List.length_map, List.length_zip, lengths, Nat.min_self] at reported
  obtain ⟨other, found, ran⟩ := covered.run_eq (List.getElem?_eq_getElem reported)
  have within : index < done.length := lengths ▸ reported
  -- The run of the pair is the one at its place, since it ran in the same world.
  rw [split, List.getElem?_append_left within, found, Option.some.injEq] at among
  rw [split, List.take_append_of_le_length (Nat.le_of_lt within), ← among, ran,
    Except.ok.injEq] at ended
  refine ⟨(runs.take index).flatMap PairRun.rows, (runs.drop (index + 1)).flatMap PairRun.rows,
    ?_, ?_⟩
  · have cut : runs = runs.take index ++ runs[index] :: runs.drop (index + 1) := by
      rw [← List.drop_eq_getElem_cons reported, List.take_append_drop]
    rw [results, ← ended, List.append_assoc]
    exact (congrArg (·.flatMap PairRun.rows) cut).trans
      (by rw [List.flatMap_append, List.flatMap_cons])
  · have shorter : (done.take index).length = (runs.take index).length := by
      rw [List.length_take, List.length_take, lengths]
    rw [pairs, take_reportOn, ← size_reportOn shorter]
    · rfl
    · exact fun run member => covered.isCounted run (List.mem_of_mem_take member)

end Records

/-- The records of each collected pair are the rows of its last attempt, one by one and in order,
with the marks of the pair. They stand behind the records of the pairs before it. -/
theorem sweep_enriches (settings : Settings) (workbench : Workbench σ) (config : Config)
    (world : σ) :
    let pairs := settings.pairs config
    let report := (settings.sweep workbench config world).report
    ∃ logs : List (List Event), settings.record workbench config world = logs.flatten ∧
      ∀ index account count attempts, report.pairs[index]? = some account →
        account.status = .collected count attempts →
        ∃ pair earlier outcome before own after,
          let log := earlier ++ [.ran (settings.runRequest pair.1 pair.2) (.ok outcome)]
          pairs[index]? = some pair ∧ account.labels = pair.labels ∧ logs[index]? = some log ∧
          settings.Conducts pair true log account.status ∧ outcome.rows.length = count ∧
          report.results.records = before ++ own ++ after ∧
          before.length = ((report.pairs.take index).map fun pair => pair.status.rowCount).sum ∧
          List.Forall₂ (IsEnriched pair) outcome.rows own := by
  intro pairs report
  obtain ⟨-, accounted⟩ := sweep_reports settings workbench config world
  refine ⟨settings.logs workbench world pairs, record_eq_flatten config world, ?_⟩
  intro index account count attempts found collected
  obtain ⟨pair, run, among, ended, rfl, log⟩ := accounted index account found
  have status : run.status = .collected count attempts := collected
  have counted : run.IsCounted := by
    have sound : IsSound (settings.runIn workbench pair
        (settings.worldAfter workbench (pairs.take index) world)).1 :=
      isSound_runPair settings workbench pair.1 pair.2 _
    rw [ended] at sound
    exact sound
  rw [PairRun.IsCounted, status] at counted
  obtain ⟨earlier, outcome, events, rows⟩ :=
    exists_attempt_of_rows ended (List.ne_nil_of_length_pos (by omega))
  have conducts := conducts_events settings workbench ended
  rw [events] at log conducts
  obtain ⟨before, after, records, place⟩ := exists_split_records settings workbench config world
    (List.getElem?_eq_some_iff.mp found).1 among ended
  refine ⟨pair, earlier, outcome, before, run.rows, after, among, rfl, log, ?_, ?_, records, place,
    ?_⟩
  -- Only a pair whose directory is there is collected.
  · change settings.Conducts pair true _ run.status
    rw [status] at conducts ⊢
    generalize earlier ++ _ = log at conducts ⊢
    cases conducts with
    | phased on present builds => exact .phased on rfl builds
  · rw [← counted.1, rows, List.length_map]
  · rw [rows, List.forall₂_map_right_iff]
    exact List.forall₂_same.mpr fun row _ => isEnriched_enrich pair row

/-- A device that gives values of its own to columns of the marks. -/
def boastful : Workbench Unit where
  isDirectory _ _ := true
  execute _ world :=
    ({ seen := []
       result := .ok
        { exit := .ended (.code 0), transcript := []
          rows := [Row.ofCells [("board", "mine"), ("ITERATION", " 7 "), ("benchmark", "")]] }
       unconfigured := by simp }, world)
  decide _ _ world := ({ answer := false }, world)

def boastedConfig : Config where
  benchmarks :=
    [{ name := "sum", filename := "sum.c", scaleFactor := 3, iterations := 1, board := "Native"
       environments := [{ name := "wasm", label? := some "Wasm" }] }]
  commands := counterSettings.commands

theorem boastful_enriched :
    ∃ (pair : Pair) (outcome : Outcome) (before own after : List Row),
      (counterSettings.pairs boastedConfig)[0]? = some pair ∧
      outcome.rows.length = 1 ∧
      (counterSettings.sweep boastful boastedConfig ()).report.results.records =
        before ++ own ++ after ∧
      List.Forall₂ (IsEnriched pair) outcome.rows own := by
  have reported : (counterSettings.sweep boastful boastedConfig ()).report.pairs[0]? =
      some { benchmark := "sum", environment := "Wasm", status := .collected 1 1 } := by
    decide +kernel
  obtain ⟨logs, -, accounts⟩ := sweep_enriches counterSettings boastful boastedConfig ()
  obtain ⟨pair, earlier, outcome, before, own, after, among, -, -, -, counted, records, -,
    enriched⟩ := accounts 0 _ 1 1 reported rfl
  exact ⟨pair, outcome, before, own, after, among, counted, records, enriched⟩

example : (counterSettings.sweep boastful boastedConfig ()).report.results.records.map Row.cells =
    [[("board", "Native"), ("ITERATION", " 7 "), ("benchmark", "sum"), ("environment", "Wasm"),
      ("scale_factor", "3")]] := by
  decide +kernel

end BoardBench.Sweep
