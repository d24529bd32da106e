import BoardBench.Sweep.Run
import BoardBench.Proofs.Retry.Loop

/-!
# What a pair depends on

A pair sees the world only through the workbench. If two workbenches give the same answers in
related worlds, then a pair has the same result with both of them. Two uses of this matter. What was
printed before has no influence on a pair, and a workbench may keep a log of its executions.

The relation is given twice, for worlds in which no interrupt has struck yet and for those in which
one has: after an interrupt nothing more is asked of the workbench.
-/
namespace BoardBench.Sweep

open Supervision (Request Outcome)

variable {σ τ α : Type}

/-- Two runs with the same result, in worlds that are related as the result asks for. -/
structure Agree (quiet struck : σ → τ → Prop) (one : Except Fault α × σ)
    (other : Except Fault α × τ) : Prop where
  result : one.1 = other.1
  quiets : one.1 ≠ .error .interrupted → quiet one.2 other.2
  strikes : one.1 = .error .interrupted → struck one.2 other.2

namespace Agree

variable {quiet struck : σ → τ → Prop}

theorem ok {value : α} {one : σ} {other : τ} (related : quiet one other) :
    Agree quiet struck (Except.ok value, one) (.ok value, other) where
  result := rfl
  quiets _ := related
  strikes interrupt := nomatch interrupt

theorem of_ok {value : α} {world : σ} {one : Except Fault α × σ} {other : Except Fault α × τ}
    (agree : Agree quiet struck one other) (ended : one = (.ok value, world)) :
    ∃ next, other = (.ok value, next) ∧ quiet world next := by
  subst ended
  exact ⟨other.2, Prod.ext agree.result.symm rfl, agree.quiets (by simp)⟩

/-- A fault ends both runs, also when it is passed on as that of something larger. -/
theorem of_error (β : Type) {fault : Fault} {world : σ} {one : Except Fault α × σ}
    {other : Except Fault α × τ} (agree : Agree quiet struck one other)
    (ended : one = (.error fault, world)) :
    ∃ next, other = (.error fault, next) ∧
      Agree quiet struck ((.error fault, world) : Except Fault β × σ) (.error fault, next) := by
  subst ended
  refine ⟨other.2, Prod.ext agree.result.symm rfl, rfl, ?_, ?_⟩
  · intro quiets
    exact agree.quiets (by simpa using quiets)
  · intro strikes
    exact agree.strikes (by simpa using strikes)

end Agree

/-! ### Attempts -/

theorem runFrom_agree {left : Retry.Actions σ} {right : Retry.Actions τ}
    {quiet struck : σ → τ → Prop}
    (attempt : ∀ number world other, quiet world other →
      Agree quiet struck (left.attempt number world) (right.attempt number other))
    (decide : ∀ made maxAttempts world other, quiet world other →
      (left.decide made maxAttempts world).1 = (right.decide made maxAttempts other).1 ∧
        quiet (left.decide made maxAttempts world).2 (right.decide made maxAttempts other).2)
    (maxAttempts made : UInt32) (below : made < maxAttempts) (world : σ) (other : τ)
    (related : quiet world other) :
    Agree quiet struck (Retry.runFrom left maxAttempts made below world)
      (Retry.runFrom right maxAttempts made below other) := by
  -- The induction is on the left loop; each step of it is matched by one of the right loop.
  fun_induction Retry.runFrom left maxAttempts made below world generalizing other with
  | case1 made below world fault after attempted =>
    obtain ⟨next, same, ends⟩ := (attempt (made + 1) world other related).of_error _ attempted
    rw [Retry.runFrom_fault same]
    exact ends
  | case2 made below world outcome after attempted telemetry =>
    obtain ⟨next, same, goes⟩ := (attempt (made + 1) world other related).of_ok attempted
    rw [Retry.runFrom_success same telemetry]
    exact .ok goes
  | case3 made below world outcome after attempted empty more asking asked ih =>
    rw [Bool.not_eq_true] at empty
    obtain ⟨next, same, goes⟩ := (attempt (made + 1) world other related).of_ok attempted
    -- Both deciders say yes, so both loops go on with the next attempt.
    obtain ⟨answer, going⟩ := decide (made + 1) maxAttempts after next goes
    rw [asked] at answer going
    rw [Retry.runFrom_again same empty more (Prod.ext answer.symm rfl)]
    exact ih _ going
  | case4 made below world outcome after attempted empty more asking asked =>
    rw [Bool.not_eq_true] at empty
    obtain ⟨next, same, goes⟩ := (attempt (made + 1) world other related).of_ok attempted
    obtain ⟨answer, going⟩ := decide (made + 1) maxAttempts after next goes
    rw [asked] at answer going
    rw [Retry.runFrom_declined same empty more (Prod.ext answer.symm rfl)]
    exact .ok going
  | case5 made below world outcome after attempted empty last =>
    rw [Bool.not_eq_true] at empty
    obtain ⟨next, same, goes⟩ := (attempt (made + 1) world other related).of_ok attempted
    rw [Retry.runFrom_exhausted same empty last]
    exact .ok goes

/-! ### Phases and pairs -/

/-- Both workbenches answer alike in quiet worlds, which stay quiet unless an interrupt strikes. -/
structure Simulates (left : Workbench σ) (right : Workbench τ) (quiet struck : σ → τ → Prop) :
    Prop where
  isDirectory : ∀ path world other, quiet world other →
    left.isDirectory path world = right.isDirectory path other
  execute : ∀ request world other, quiet world other →
    Agree quiet struck ((left.execute request world).1.result, (left.execute request world).2)
      ((right.execute request other).1.result, (right.execute request other).2)
  decide : ∀ attempt maxAttempts world other, quiet world other →
    (left.decide attempt maxAttempts world).1.answer =
        (right.decide attempt maxAttempts other).1.answer ∧
      quiet (left.decide attempt maxAttempts world).2 (right.decide attempt maxAttempts other).2

/-- The worlds of two journals are related; what was printed does not matter. -/
def OnWorlds (related : σ → τ → Prop) (one : Journal σ) (other : Journal τ) : Prop :=
  related one.world other.world

theorem result_runPhase (settings : Settings) (workbench : Workbench σ) (request : Request)
    (journal : Journal σ) : (settings.runPhase workbench request journal).1 =
      (workbench.execute request journal.world).1.result :=
  rfl

theorem world_runPhase (settings : Settings) (workbench : Workbench σ) (request : Request)
    (journal : Journal σ) : (settings.runPhase workbench request journal).2.world =
      (workbench.execute request journal.world).2 := by
  unfold Settings.runPhase
  simp only
  split <;> rfl

theorem execute_of_runPhase {settings : Settings} {workbench : Workbench σ} {request : Request}
    {journal after : Journal σ} {result : Except Fault Outcome}
    (ran : settings.runPhase workbench request journal = (result, after)) :
    result = (workbench.execute request journal.world).1.result ∧
      after.world = (workbench.execute request journal.world).2 := by
  have ended := result_runPhase settings workbench request journal
  have world := world_runPhase settings workbench request journal
  rw [ran] at ended world
  exact ⟨ended, world⟩

namespace Simulates

variable {left : Workbench σ} {right : Workbench τ} {quiet struck : σ → τ → Prop}
  (simulates : Simulates left right quiet struck) (settings : Settings)
include simulates

theorem runPhase (request : Request) {one : Journal σ} {other : Journal τ}
    (related : OnWorlds quiet one other) :
    Agree (OnWorlds quiet) (OnWorlds struck) (settings.runPhase left request one)
      (settings.runPhase right request other) := by
  have agree := simulates.execute request one.world other.world related
  constructor
  · rw [result_runPhase, result_runPhase]
    exact agree.result
  · rw [result_runPhase, OnWorlds, world_runPhase, world_runPhase]
    exact agree.quiets
  · rw [result_runPhase, OnWorlds, world_runPhase, world_runPhase]
    exact agree.strikes

end Simulates

/-- The fault of a phase becomes the failure of its pair, unless it is fatal. -/
theorem Agree.pairFault {quiet struck : σ → τ → Prop} {fault : Fault} {one : σ} {other : τ}
    (agree : Agree quiet struck ((.error fault, one) : Except Fault α × σ) (.error fault, other)) :
    Agree quiet struck (Settings.pairFault fault, one) (Settings.pairFault fault, other) := by
  by_cases struck : fault = .interrupted
  · subst struck
    exact ⟨rfl, fun quiets => absurd rfl quiets, fun _ => agree.strikes rfl⟩
  -- Any other fault leaves quiet worlds, whether or not it is fatal.
  · have goes := agree.quiets (by simpa using struck)
    refine ⟨rfl, fun _ => goes, ?_⟩
    intro strikes
    unfold Settings.pairFault at strikes
    split at strikes
    · exact absurd (Except.error.inj strikes) struck
    · cases strikes

namespace Simulates

variable {left : Workbench σ} {right : Workbench τ} {quiet struck : σ → τ → Prop}
  (simulates : Simulates left right quiet struck) (settings : Settings) (benchmark : Benchmark)
  (environment : Environment)
include simulates

theorem collect {one : Journal σ} {other : Journal τ} (related : OnWorlds quiet one other) :
    Agree (OnWorlds quiet) (OnWorlds struck) (settings.collect left benchmark environment one)
      (settings.collect right benchmark environment other) := by
  -- First the loops agree, then what becomes of their results.
  have agree : Agree (OnWorlds quiet) (OnWorlds struck)
      (Retry.run (settings.retryActions left benchmark environment) settings.policy one)
      (Retry.run (settings.retryActions right benchmark environment) settings.policy other) := by
    refine runFrom_agree ?_ ?_ _ _ _ one other related
    · intro number one other related
      exact simulates.runPhase settings _ related
    · intro made maxAttempts one other related
      exact simulates.decide made maxAttempts one.world other.world related
  unfold Settings.collect
  cases ran : Retry.run (settings.retryActions left benchmark environment) settings.policy one with
  | mk result after =>
    cases result with
    | error fault =>
      obtain ⟨next, same, ends⟩ := agree.of_error Outcome ran
      rw [same]
      exact ends.pairFault
    | ok result =>
      obtain ⟨next, same, goes⟩ := agree.of_ok ran
      rw [same]
      cases result with
      | success rows attempts => exact .ok goes
      | gaveUp reason attempts last =>
        cases reason with
        | exhausted => exact .ok goes
        | declined => exact .ok goes

theorem flashAndCollect {one : Journal σ} {other : Journal τ}
    (related : OnWorlds quiet one other) :
    Agree (OnWorlds quiet) (OnWorlds struck)
      (settings.flashAndCollect left benchmark environment one)
      (settings.flashAndCollect right benchmark environment other) := by
  unfold Settings.flashAndCollect
  split
  next => exact simulates.collect settings benchmark environment related
  next =>
    have agree := simulates.runPhase settings
      (settings.request benchmark environment settings.commands.flash) related
    cases ran : settings.runPhase left
        (settings.request benchmark environment settings.commands.flash) one with
    | mk result after =>
      cases result with
      | error fault =>
        obtain ⟨next, same, ends⟩ := agree.of_error Outcome ran
        rw [same]
        exact ends.pairFault
      | ok outcome =>
        obtain ⟨next, same, goes⟩ := agree.of_ok ran
        simp only [same]
        split
        next => exact simulates.collect settings benchmark environment goes
        next => exact .ok goes

theorem buildAndCollect {one : Journal σ} {other : Journal τ}
    (related : OnWorlds quiet one other) :
    Agree (OnWorlds quiet) (OnWorlds struck)
      (settings.buildAndCollect left benchmark environment one)
      (settings.buildAndCollect right benchmark environment other) := by
  have agree := simulates.runPhase settings
    (settings.request benchmark environment settings.commands.build) related
  unfold Settings.buildAndCollect
  cases ran : settings.runPhase left
      (settings.request benchmark environment settings.commands.build) one with
  | mk result after =>
    cases result with
    | error fault =>
      obtain ⟨next, same, ends⟩ := agree.of_error Outcome ran
      rw [same]
      exact ends.pairFault
    | ok outcome =>
      obtain ⟨next, same, goes⟩ := agree.of_ok ran
      simp only [same]
      split
      next => exact simulates.flashAndCollect settings benchmark environment goes
      next => exact .ok goes

/-- A pair ends alike with both workbenches. -/
theorem runPair {one : Journal σ} {other : Journal τ} (related : OnWorlds quiet one other) :
    Agree (OnWorlds quiet) (OnWorlds struck) (settings.runPair left benchmark environment one)
      (settings.runPair right benchmark environment other) := by
  unfold Settings.runPair
  split
  next => exact .ok related
  next =>
    simp only
    rw [simulates.isDirectory _ one.world other.world related]
    split
    next => exact simulates.buildAndCollect settings benchmark environment related
    next => exact .ok related

end Simulates

/-! ### Two simulations -/

theorem simulates_self (workbench : Workbench σ) : Simulates workbench workbench Eq Eq where
  isDirectory path world other same := by rw [same]
  execute request world other same := by
    subst same
    exact ⟨rfl, fun _ => rfl, fun _ => rfl⟩
  decide attempt maxAttempts world other same := by
    subst same
    exact ⟨rfl, rfl⟩

/-- The workbench with a log of what came of its executions. -/
def Workbench.logged (workbench : Workbench σ) :
    Workbench (σ × List (Except Fault Outcome)) where
  isDirectory path state := workbench.isDirectory path state.1
  execute request state :=
    let (execution, world) := workbench.execute request state.1
    (execution, world, state.2 ++ [execution.result])
  decide attempt maxAttempts state :=
    let (decision, world) := workbench.decide attempt maxAttempts state.1
    (decision, world, state.2)

/-- The log holds an interrupt exactly when one has struck. -/
theorem simulates_logged (workbench : Workbench σ) :
    Simulates workbench workbench.logged
      (fun world state => state.1 = world ∧ .error .interrupted ∉ state.2)
      (fun world state => state.1 = world ∧ .error .interrupted ∈ state.2) where
  isDirectory path world state related := by
    rw [← related.1]
    rfl
  execute request world state related := by
    obtain ⟨rfl, silent⟩ := related
    refine ⟨rfl, fun quiets => ⟨rfl, ?_⟩, fun strikes => ⟨rfl, ?_⟩⟩
    · intro member
      rcases List.mem_append.mp member with earlier | now
      · exact silent earlier
      · exact quiets (List.mem_singleton.mp now).symm
    · exact List.mem_append.mpr (Or.inr (List.mem_singleton.mpr strikes.symm))
  decide attempt maxAttempts world state related := by
    obtain ⟨rfl, silent⟩ := related
    exact ⟨rfl, rfl, silent⟩

end BoardBench.Sweep
