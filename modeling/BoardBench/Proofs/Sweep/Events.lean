import BoardBench.Proofs.Sweep.Walk

/-!
# The events of a sweep

A workbench can keep a record of what it is asked to do. Keeping it changes nothing else, and the
record of a sweep is made of those of its pairs, each one in the world that the pairs before it have
left.
-/
namespace BoardBench.Sweep

open Supervision (Request Outcome)

variable {σ : Type}

section Noting

variable {α : Type} (workbench : Workbench σ) (ran : Request → Except Fault Outcome → α → α)
  (answered : σ → Bool → σ → α → α)

/-- The workbench with a memory next to its world. The memory changes with each execution and each
answer, for which it sees the world before and the world after. -/
def Workbench.noting : Workbench (σ × α) where
  isDirectory path state := workbench.isDirectory path state.1
  execute request state :=
    let (execution, world) := workbench.execute request state.1
    (execution, world, ran request execution.result state.2)
  decide attempt maxAttempts state :=
    let (decision, world) := workbench.decide attempt maxAttempts state.1
    (decision, world, answered state.1 decision.answer world state.2)

/-- Having a memory changes nothing else. -/
theorem simulates_noting :
    Simulates workbench (workbench.noting ran answered) (fun world state => state.1 = world)
      (fun world state => state.1 = world) where
  isDirectory path world state same := by
    rw [← same]
    rfl
  execute request world state same := by
    subst same
    exact ⟨rfl, fun _ => rfl, fun _ => rfl⟩
  decide attempt maxAttempts world state same := by
    subst same
    exact ⟨rfl, rfl⟩

end Noting

/-- A command that was executed, or attempted, with what came of it, or a question that was put to
the decider, with its answer. -/
inductive Event where
  | ran (request : Request) (result : Except Fault Outcome)
  | answered (again : Bool)

/-- The workbench with a record of its events. -/
def Workbench.recorded (workbench : Workbench σ) : Workbench (σ × List Event) :=
  workbench.noting (fun request result log => log ++ [.ran request result])
    (fun _ again _ log => log ++ [.answered again])

/-- Two records of the same events, the second one with others before them. -/
def IsLater (earlier : List Event) (one other : σ × List Event) : Prop :=
  other.1 = one.1 ∧ other.2 = earlier ++ one.2

/-- What was recorded before makes no difference. -/
theorem simulates_later (workbench : Workbench σ) (earlier : List Event) :
    Simulates workbench.recorded workbench.recorded (IsLater earlier) (IsLater earlier) where
  isDirectory path one other later := by
    change workbench.isDirectory path one.1 = workbench.isDirectory path other.1
    rw [later.1]
  execute request one other later := by
    obtain ⟨world, log⟩ := one
    obtain ⟨same, longer⟩ := later
    obtain ⟨world', log'⟩ := other
    simp only at same longer
    subst same longer
    have next : IsLater earlier (workbench.recorded.execute request (world', log)).2
        (workbench.recorded.execute request (world', earlier ++ log)).2 :=
      ⟨rfl, List.append_assoc _ _ _⟩
    exact ⟨rfl, fun _ => next, fun _ => next⟩
  decide attempt maxAttempts one other later := by
    obtain ⟨world, log⟩ := one
    obtain ⟨same, longer⟩ := later
    obtain ⟨world', log'⟩ := other
    simp only at same longer
    subst same longer
    exact ⟨rfl, rfl, List.append_assoc _ _ _⟩

/-- Both runs leave related worlds if an interrupt makes no difference to the relation. -/
theorem Agree.related {τ α : Type} {relation : σ → τ → Prop} {one : Except Fault α × σ}
    {other : Except Fault α × τ} (agree : Agree relation relation one other) :
    relation one.2 other.2 := by
  by_cases interrupted : one.1 = .error .interrupted
  · exact agree.strikes interrupted
  · exact agree.quiets interrupted

variable (settings : Settings) (workbench : Workbench σ)

/-- A pair ends as it does without a memory. -/
theorem runIn_noting {α : Type} (ran : Request → Except Fault Outcome → α → α)
    (answered : σ → Bool → σ → α → α) (pair : Pair) (world : σ) (memory : α) :
    (settings.runIn (workbench.noting ran answered) pair (world, memory)).1 =
        (settings.runIn workbench pair world).1 ∧
      (settings.runIn (workbench.noting ran answered) pair (world, memory)).2.1 =
        (settings.runIn workbench pair world).2 := by
  have start : OnWorlds (fun world (state : σ × α) => state.1 = world) { world }
      { world := (world, memory) } := rfl
  have agree := (simulates_noting workbench ran answered).runPair settings pair.1 pair.2 start
  exact ⟨agree.result.symm, agree.related⟩

/-- The events of a pair in a world. -/
def Settings.events (pair : Pair) (world : σ) : List Event :=
  (settings.runIn workbench.recorded pair (world, [])).2.2

/-- A recorded pair ends as it does without a record, and its events are added to the record. -/
theorem runIn_recorded (pair : Pair) (world : σ) (log : List Event) :
    settings.runIn workbench.recorded pair (world, log) =
      ((settings.runIn workbench pair world).1, (settings.runIn workbench pair world).2,
        log ++ settings.events workbench pair world) := by
  have plain : (settings.runIn workbench.recorded pair (world, log)).1 =
        (settings.runIn workbench pair world).1 ∧
      (settings.runIn workbench.recorded pair (world, log)).2.1 =
        (settings.runIn workbench pair world).2 :=
    runIn_noting settings workbench _ _ pair world log
  have empty : OnWorlds (IsLater log) { world := (world, []) } { world := (world, log) } :=
    ⟨rfl, (List.append_nil log).symm⟩
  have later := (simulates_later workbench log).runPair settings pair.1 pair.2 empty
  exact Prod.ext plain.1 (Prod.ext plain.2 later.related.2)

/-! ### Many pairs -/

/-- The events of pairs one after the other, up to an interrupt. -/
def Settings.logs (world : σ) : List Pair → List (List Event)
  | [] => []
  | pair :: rest =>
    settings.events workbench pair world ::
      if (settings.runIn workbench pair world).1.isOk then
        logs (settings.runIn workbench pair world).2 rest
      else []

variable {settings workbench}

theorem walk_of_error {state : Report × σ} {pair : Pair} {fault : Fault}
    (failed : (settings.runIn workbench pair state.2).1 = .error fault) (rest : List Pair) :
    settings.walk workbench state (pair :: rest) =
      ({ state.1 with interrupted := true }, (settings.runIn workbench pair state.2).2) := by
  rw [walk_cons, stepOver_error failed, if_pos rfl]

theorem walk_of_ok {state : Report × σ} {pair : Pair} {run : PairRun}
    (running : state.1.interrupted = false)
    (ended : (settings.runIn workbench pair state.2).1 = .ok run) (rest : List Pair) :
    settings.walk workbench state (pair :: rest) =
      settings.walk workbench
        (state.1.add pair.1 pair.2 run, (settings.runIn workbench pair state.2).2) rest := by
  have still : (state.1.add pair.1 pair.2 run).interrupted = false := running
  rw [walk_cons, stepOver_ok ended, if_neg (by simp [still])]

/-- The record of a walk is made of the records of its pairs. -/
theorem walk_recorded {report : Report} (running : report.interrupted = false) (world : σ)
    (log : List Event) (pairs : List Pair) :
    settings.walk workbench.recorded (report, world, log) pairs =
      ((settings.walk workbench (report, world) pairs).1,
        (settings.walk workbench (report, world) pairs).2,
        log ++ (settings.logs workbench world pairs).flatten) := by
  induction pairs generalizing report world log with
  | nil => simp [Settings.walk, Settings.logs]
  | cons pair rest ih =>
    have recorded := runIn_recorded settings workbench pair world log
    cases ended : (settings.runIn workbench pair world).1 with
    | error fault =>
      rw [ended] at recorded
      -- The pair stops the walk, and its events are the last ones.
      rw [walk_of_error (congrArg Prod.fst recorded), walk_of_error ended, recorded,
        Settings.logs, ended]
      simp [Except.isOk, Except.toBool]
    | ok run =>
      have still : (report.add pair.1 pair.2 run).interrupted = false := running
      rw [ended] at recorded
      rw [walk_of_ok running (congrArg Prod.fst recorded), walk_of_ok running ended, recorded,
        Settings.logs, ended]
      simp only
      rw [ih still]
      simp [Except.isOk, Except.toBool]

/-- The events of a pair are those that it has in the world that the pairs before it have left. -/
theorem getElem?_logs {pairs : List Pair} {world : σ} {index : Nat} {log : List Event}
    (found : (settings.logs workbench world pairs)[index]? = some log) :
    ∃ pair, pairs[index]? = some pair ∧ log = settings.events workbench pair
      (settings.worldAfter workbench (pairs.take index) world) := by
  induction pairs generalizing world index with
  | nil => simp [Settings.logs] at found
  | cons pair rest ih =>
    rw [Settings.logs] at found
    cases index with
    | zero =>
      rw [List.getElem?_cons_zero, Option.some.injEq] at found
      exact ⟨pair, rfl, found.symm⟩
    | succ index =>
      rw [List.getElem?_cons_succ] at found
      split at found
      · exact ih found
      · simp at found

/-- The pairs that a walk reports, with their runs and their events. The record of an interrupted
walk has one part more, that of the pair in which the interrupt struck. -/
theorem walk_reports (settings : Settings) (workbench : Workbench σ) (report : Report)
    (running : report.interrupted = false) (world : σ) (pairs : List Pair) :
    let ending := (settings.walk workbench (report, world) pairs).1
    let logs := settings.logs workbench world pairs
    ∃ reports, ending.pairs = report.pairs ++ reports ∧
      logs.length = reports.length + (if ending.interrupted then 1 else 0) ∧
      ∀ index account, reports[index]? = some account → ∃ pair run,
        let before := settings.worldAfter workbench (pairs.take index) world
        pairs[index]? = some pair ∧ (settings.runIn workbench pair before).1 = .ok run ∧
          account = pairReport pair run ∧
          logs[index]? = some (settings.events workbench pair before) := by
  induction pairs generalizing report world with
  | nil =>
    refine ⟨[], by simp [Settings.walk], ?_, by simp⟩
    simp [Settings.walk, Settings.logs, running]
  | cons pair rest ih =>
    simp only
    cases ended : (settings.runIn workbench pair world).1 with
    | error fault =>
      rw [walk_of_error ended, Settings.logs, ended]
      exact ⟨[], by simp, by simp [Except.isOk, Except.toBool], by simp⟩
    | ok run =>
      have still : (report.add pair.1 pair.2 run).interrupted = false := running
      obtain ⟨reports, listed, counted, accounted⟩ :=
        ih _ still (settings.runIn workbench pair world).2
      rw [walk_of_ok running ended, Settings.logs, ended]
      refine ⟨pairReport pair run :: reports, ?_, ?_, ?_⟩
      · rw [listed]
        simp [Report.add, pairReport]
      · simp only [Except.isOk, Except.toBool, if_true, List.length_cons, counted]
        omega
      · intro index account found
        cases index with
        | zero =>
          cases found
          exact ⟨pair, run, rfl, ended, rfl, rfl⟩
        | succ index => exact accounted index account found

/-- The same for a whole sweep. -/
theorem sweep_reports (settings : Settings) (workbench : Workbench σ) (config : Config)
    (world : σ) :
    let pairs := settings.pairs config
    let report := (settings.sweep workbench config world).report
    let logs := settings.logs workbench world pairs
    logs.length = report.pairs.length + (if report.interrupted then 1 else 0) ∧
      ∀ index account, report.pairs[index]? = some account → ∃ pair run,
        let before := settings.worldAfter workbench (pairs.take index) world
        pairs[index]? = some pair ∧ (settings.runIn workbench pair before).1 = .ok run ∧
          account = pairReport pair run ∧
          logs[index]? = some (settings.events workbench pair before) := by
  have walked := state_sweep settings workbench config world
  obtain ⟨reports, listed, counted, accounted⟩ :=
    walk_reports settings workbench {} rfl world (settings.pairs config)
  rw [← walked] at listed counted
  have all : (settings.sweep workbench config world).report.pairs = reports := listed
  intro pairs report logs
  refine ⟨?_, ?_⟩
  · rw [all]
    exact counted
  · rw [all]
    exact accounted

end BoardBench.Sweep
