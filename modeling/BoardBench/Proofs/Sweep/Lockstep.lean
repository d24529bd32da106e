import BoardBench.Proofs.Sweep.Conduct
import BoardBench.Proofs.Sweep.Invariant
import Mathlib.Data.List.Infix

/-!
# Runs in lockstep

Two runs of a pair that have the same events until an execution of the second one is interrupted.

Main result: the second run ends as the first one does and with the same events, or it ends with the
interrupt, and the interrupted execution is its last event and one that the first run has too.

Proof strategy: both runs keep a record. As long as the records are the same both runs have the same
command to execute or the same question to ask, so the records stay the same for one event more, or
the second run is interrupted. Nothing is assumed about commands that are not executed.
-/
namespace BoardBench.Sweep

open Supervision (Request Outcome)

variable {σ τ α : Type}

/-- An execution that was interrupted. -/
def Event.IsInterrupt (event : Event) : Prop :=
  ∃ request, event = .ran request (.error .interrupted)

/-- After the same events and when the same is asked for, the same comes of it in both records, or
an interrupt in the second one. -/
def SameUntilInterrupt (full cut : List Event) : Prop :=
  ∀ before one other, before ++ [one] <+: full → before ++ [other] <+: cut →
    one.request? = other.request? → other = one ∨ other.IsInterrupt

/-- What the second one of two recorded runs has done: the same as the first one, or the same up to
an execution that was interrupted, after the events that both started with. -/
inductive Follows (start : List Event) (one : Except Fault α × Journal (σ × List Event))
    (other : Except Fault α × Journal (τ × List Event)) : Prop
  | even : other.1 = one.1 → other.2.world.2 = one.2.world.2 → Follows start one other
  | struck (before : List Event) (request : Request) (result : Except Fault Outcome) :
    start <+: before → other.1 = .error .interrupted →
    other.2.world.2 = before ++ [.ran request (.error .interrupted)] →
    before ++ [.ran request result] <+: one.2.world.2 → Follows start one other

/-- As long as both runs keep to two given records, the second one follows the first one. -/
def InStep (full cut start : List Event) (one : Except Fault α × Journal (σ × List Event))
    (other : Except Fault α × Journal (τ × List Event)) : Prop :=
  one.2.world.2 <+: full → other.2.world.2 <+: cut → Follows start one other

theorem Follows.earlier {start first : List Event}
    {one : Except Fault α × Journal (σ × List Event)}
    {other : Except Fault α × Journal (τ × List Event)} (follows : Follows start one other)
    (before : first <+: start) : Follows first one other := by
  cases follows with
  | even result record => exact .even result record
  | struck upTo request result after interrupted record going =>
    exact .struck upTo request result (before.trans after) interrupted record going

/-! ### One command -/

variable {full cut : List Event} (settings : Settings) {left : Workbench σ} {right : Workbench τ}

theorem inStep_runPhase (same : SameUntilInterrupt full cut) (request : Request)
    {one : Journal (σ × List Event)} {other : Journal (τ × List Event)}
    (even : other.world.2 = one.world.2) :
    InStep full cut one.world.2 (settings.runPhase left.recorded request one)
      (settings.runPhase right.recorded request other) := by
  cases ran : settings.runPhase left.recorded request one with
  | mk result after =>
    cases ran' : settings.runPhase right.recorded request other with
    | mk result' after' =>
      have record := record_of_runPhase ran
      have record' := record_of_runPhase ran'
      intro isFull isCut
      simp only at isFull isCut
      rw [record] at isFull
      rw [record', even] at isCut
      rcases same one.world.2 _ _ isFull isCut rfl with equal | ⟨_, equal⟩
      · cases equal
        exact .even rfl (by rw [record, record', even])
      · cases equal
        refine .struck one.world.2 request result List.prefix_rfl rfl ?_ ?_
        · rw [record', even]
        · exact record ▸ List.prefix_rfl

/-! ### The run phase -/

section Run

variable (benchmark : Benchmark) (environment : Environment)

section Record

variable (workbench : Workbench σ) {maxAttempts made : UInt32} (below : made < maxAttempts)

/-- What was recorded before the loop stays recorded. -/
theorem prefix_runFrom (journal : Journal (σ × List Event)) :
    journal.world.2 <+: (Retry.runFrom
      (settings.retryActions workbench.recorded benchmark environment) maxAttempts made below
        journal).2.world.2 := by
  fun_induction Retry.runFrom
    (settings.retryActions workbench.recorded benchmark environment) maxAttempts made below
      journal with
  | case1 made below journal fault after attempted =>
    exact ⟨_, (record_of_runPhase attempted).symm⟩
  | case2 made below journal outcome after attempted telemetry =>
    exact ⟨_, (record_of_runPhase attempted).symm⟩
  | case3 made below journal outcome after attempted empty more next asked ih =>
    rw [record_of_decide asked, record_of_runPhase attempted, List.append_assoc] at ih
    exact (List.prefix_append _ _).trans ih
  | case4 made below journal outcome after attempted empty more next asked =>
    rw [record_of_decide asked, record_of_runPhase attempted, List.append_assoc]
    exact List.prefix_append _ _
  | case5 made below journal outcome after attempted empty last =>
    exact ⟨_, (record_of_runPhase attempted).symm⟩

variable {journal after next : Journal (σ × List Event)}

/-- So does the answer to the first question of the loop. -/
theorem prefix_runFrom_asked {outcome : Outcome} {answer : Bool}
    (attempted : (settings.retryActions workbench.recorded benchmark environment).attempt
      (made + 1) journal = (.ok outcome, after))
    (empty : outcome.hasTelemetry = false) (more : made + 1 < maxAttempts)
    (asked : (settings.retryActions workbench.recorded benchmark environment).decide (made + 1)
      maxAttempts after = (answer, next)) :
    next.world.2 <+: (Retry.runFrom (settings.retryActions workbench.recorded benchmark environment)
      maxAttempts made below journal).2.world.2 := by
  cases answer with
  | true =>
    rw [Retry.runFrom_again attempted empty more asked]
    exact prefix_runFrom settings benchmark environment workbench more next
  | false =>
    rw [Retry.runFrom_declined attempted empty more asked]

/-- And so does the first attempt. -/
theorem prefix_runFrom_attempt {result : Except Fault Outcome}
    (attempted : (settings.retryActions workbench.recorded benchmark environment).attempt
      (made + 1) journal = (result, after)) :
    after.world.2 <+: (Retry.runFrom
      (settings.retryActions workbench.recorded benchmark environment) maxAttempts made below
        journal).2.world.2 := by
  cases result with
  | error fault =>
    rw [Retry.runFrom_fault attempted]
  | ok outcome =>
    cases empty : outcome.hasTelemetry with
    | true =>
      rw [Retry.runFrom_success attempted empty]
    | false =>
      by_cases more : made + 1 < maxAttempts
      · have asked : (settings.retryActions workbench.recorded benchmark environment).decide
            (made + 1) maxAttempts after = (_, _) := rfl
        have grown := prefix_runFrom_asked settings benchmark environment workbench below attempted
          empty more asked
        rw [record_of_decide asked] at grown
        exact (List.prefix_append _ _).trans grown
      · rw [Retry.runFrom_exhausted attempted empty more]

end Record

theorem inStep_decide (same : SameUntilInterrupt full cut) {attempt maxAttempts : UInt32}
    {one next : Journal (σ × List Event)} {other next' : Journal (τ × List Event)}
    {answer answer' : Bool} (even : other.world.2 = one.world.2)
    (asked : (settings.retryActions left.recorded benchmark environment).decide attempt
      maxAttempts one = (answer, next))
    (asked' : (settings.retryActions right.recorded benchmark environment).decide attempt
      maxAttempts other = (answer', next'))
    (isFull : next.world.2 <+: full) (isCut : next'.world.2 <+: cut) :
    answer' = answer ∧ next'.world.2 = next.world.2 := by
  rw [record_of_decide asked] at isFull ⊢
  rw [record_of_decide asked', even] at isCut ⊢
  -- An answer is no interrupt.
  rcases same one.world.2 _ _ isFull isCut rfl with equal | ⟨request, equal⟩
  · cases equal
    exact ⟨rfl, rfl⟩
  · cases equal

/-- A question after an attempt without rows, and what follows it. -/
theorem inStep_runFrom_asked (same : SameUntilInterrupt full cut) {maxAttempts made : UInt32}
    (below : made < maxAttempts) {one after : Journal (σ × List Event)}
    {other after' : Journal (τ × List Event)} {outcome : Outcome}
    (attempted : (settings.retryActions left.recorded benchmark environment).attempt (made + 1)
      one = (.ok outcome, after))
    (attempted' : (settings.retryActions right.recorded benchmark environment).attempt (made + 1)
      other = (.ok outcome, after'))
    (even : after'.world.2 = after.world.2) (empty : outcome.hasTelemetry = false)
    (more : made + 1 < maxAttempts)
    (next : ∀ {one : Journal (σ × List Event)} {other : Journal (τ × List Event)},
      other.world.2 = one.world.2 → InStep full cut one.world.2
        (Retry.runFrom (settings.retryActions left.recorded benchmark environment) maxAttempts
          (made + 1) more one)
        (Retry.runFrom (settings.retryActions right.recorded benchmark environment) maxAttempts
          (made + 1) more other)) :
    InStep full cut after.world.2
      (Retry.runFrom (settings.retryActions left.recorded benchmark environment) maxAttempts made
        below one)
      (Retry.runFrom (settings.retryActions right.recorded benchmark environment) maxAttempts made
        below other) := by
  intro isFull isCut
  obtain ⟨⟨answer, going⟩, asked⟩ : ∃ ending,
    (settings.retryActions left.recorded benchmark environment).decide (made + 1) maxAttempts
      after = ending := ⟨_, rfl⟩
  obtain ⟨⟨answer', going'⟩, asked'⟩ : ∃ ending,
    (settings.retryActions right.recorded benchmark environment).decide (made + 1) maxAttempts
      after' = ending := ⟨_, rfl⟩
  have grown := prefix_runFrom_asked settings benchmark environment left below attempted empty more
    asked
  have grown' := prefix_runFrom_asked settings benchmark environment right below attempted' empty
    more asked'
  obtain ⟨rfl, recorded⟩ := inStep_decide settings benchmark environment same even asked asked'
    (grown.trans isFull) (grown'.trans isCut)
  cases answer' with
  | false =>
    rw [Retry.runFrom_declined attempted empty more asked,
      Retry.runFrom_declined attempted' empty more asked']
    exact .even rfl recorded
  | true =>
    rw [Retry.runFrom_again attempted empty more asked] at isFull ⊢
    rw [Retry.runFrom_again attempted' empty more asked'] at isCut ⊢
    have started : after.world.2 <+: going.world.2 := ⟨_, (record_of_decide asked).symm⟩
    exact (next recorded isFull isCut).earlier started

theorem inStep_runFrom (same : SameUntilInterrupt full cut) {maxAttempts made : UInt32}
    (below : made < maxAttempts) {one : Journal (σ × List Event)}
    {other : Journal (τ × List Event)} (even : other.world.2 = one.world.2) :
    InStep full cut one.world.2
      (Retry.runFrom (settings.retryActions left.recorded benchmark environment) maxAttempts made
        below one)
      (Retry.runFrom (settings.retryActions right.recorded benchmark environment) maxAttempts made
        below other) := by
  -- The induction is on the number of attempts that are left.
  induction remaining : maxAttempts.toNat - made.toNat generalizing made one other with
  | zero =>
    rw [UInt32.lt_iff_toNat_lt] at below
    omega
  | succ count ih =>
    intro isFull isCut
    obtain ⟨⟨result, after⟩, attempted⟩ : ∃ ending,
      (settings.retryActions left.recorded benchmark environment).attempt (made + 1) one = ending :=
      ⟨_, rfl⟩
    obtain ⟨⟨result', after'⟩, attempted'⟩ : ∃ ending,
      (settings.retryActions right.recorded benchmark environment).attempt (made + 1) other =
        ending := ⟨_, rfl⟩
    have grown := prefix_runFrom_attempt settings benchmark environment left below attempted
    have grown' := prefix_runFrom_attempt settings benchmark environment right below attempted'
    have first : InStep full cut one.world.2 (result, after) (result', after') := by
      rw [← attempted, ← attempted']
      exact inStep_runPhase settings same _ even
    cases first (grown.trans isFull) (grown'.trans isCut) with
    | struck before request passed started interrupted record going =>
      -- The second loop ends with the interrupt, whatever the first one does next.
      cases interrupted
      rw [Retry.runFrom_fault attempted']
      exact .struck before request passed started rfl record (going.trans grown)
    | even equal record =>
      cases equal
      cases result with
      | error fault =>
        rw [Retry.runFrom_fault attempted, Retry.runFrom_fault attempted']
        exact .even rfl record
      | ok outcome =>
        cases empty : outcome.hasTelemetry with
        | true =>
          rw [Retry.runFrom_success attempted empty, Retry.runFrom_success attempted' empty]
          exact .even rfl record
        | false =>
          by_cases more : made + 1 < maxAttempts
          · have fewer : maxAttempts.toNat - (made + 1).toNat = count := by
              rw [Retry.toNat_next below]
              omega
            have started : one.world.2 <+: after.world.2 :=
              ⟨_, (record_of_runPhase attempted).symm⟩
            exact (inStep_runFrom_asked settings benchmark environment same below attempted
              attempted' record empty more (fun even => ih more even fewer) isFull isCut).earlier
                started
          · rw [Retry.runFrom_exhausted attempted empty more,
              Retry.runFrom_exhausted attempted' empty more]
            exact .even rfl record

/-- What the result of the loop says about the pair. -/
def verdict : Except Fault Retry.Result → Except Fault PairRun
  | .error fault => Settings.pairFault fault
  | .ok (.success rows attempts) =>
    .ok
      { status := .collected rows.length attempts
        rows := rows.map (enrich benchmark environment) }
  | .ok (.gaveUp .exhausted attempts _) => .ok { status := .failed (.noTelemetry attempts) }
  | .ok (.gaveUp .declined attempts _) => .ok { status := .failed (.declined attempts) }

theorem collect_eq (workbench : Workbench σ) (journal : Journal σ) :
    let ending := Retry.run (settings.retryActions workbench benchmark environment)
      settings.policy journal
    (settings.collect workbench benchmark environment journal).1 =
        verdict benchmark environment ending.1 ∧
      (settings.collect workbench benchmark environment journal).2.world = ending.2.world := by
  intro ending
  unfold Settings.collect
  split
  next fault after ran =>
    have same : ending = (.error fault, after) := ran
    rw [same]
    exact ⟨rfl, rfl⟩
  next rows attempts after ran =>
    have same : ending = (.ok (.success rows attempts), after) := ran
    rw [same]
    exact ⟨rfl, rfl⟩
  next attempts last after ran =>
    have same : ending = (.ok (.gaveUp .exhausted attempts last), after) := ran
    rw [same]
    exact ⟨rfl, rfl⟩
  next attempts last after ran =>
    have same : ending = (.ok (.gaveUp .declined attempts last), after) := ran
    rw [same]
    exact ⟨rfl, rfl⟩

theorem inStep_collect (same : SameUntilInterrupt full cut) {one : Journal (σ × List Event)}
    {other : Journal (τ × List Event)} (even : other.world.2 = one.world.2) :
    InStep full cut one.world.2 (settings.collect left.recorded benchmark environment one)
      (settings.collect right.recorded benchmark environment other) := by
  intro isFull isCut
  obtain ⟨result, world⟩ := collect_eq settings benchmark environment left.recorded one
  obtain ⟨result', world'⟩ := collect_eq settings benchmark environment right.recorded other
  rw [world] at isFull
  rw [world'] at isCut
  cases inStep_runFrom settings benchmark environment same settings.policy.positive even isFull
    isCut with
  | even equal record =>
    have results : (settings.collect right.recorded benchmark environment other).1 =
        (settings.collect left.recorded benchmark environment one).1 := by
      rw [result, result', Retry.run, equal]
      rfl
    exact .even results (by rw [world, world', Retry.run, record, Retry.run])
  | struck before request passed started interrupted record going =>
    refine .struck before request passed started ?_ ?_ ?_
    · rw [result', Retry.run, interrupted]
      rfl
    · rw [world']
      exact record
    · rw [world]
      exact going

/-! ### The phases before it -/

theorem prefix_of_records {spec : List Event → PairStatus → Prop} {before : List Event}
    {ending : Except Fault PairRun × Journal (σ × List Event)}
    (records : Records spec before ending) : before <+: ending.2.world.2 := by
  obtain ⟨events, added, -⟩ := records
  exact ⟨events, added.symm⟩

/-- What the command of a phase has recorded stays recorded. -/
theorem prefix_prepare {workbench : Workbench σ} {request : Request}
    (failure : Option Int → Failure)
    {next : Journal (σ × List Event) → Except Fault PairRun × Journal (σ × List Event)}
    (grows : ∀ journal, journal.world.2 <+: (next journal).2.world.2)
    {journal after : Journal (σ × List Event)} {result : Except Fault Outcome}
    (ran : settings.runPhase workbench.recorded request journal = (result, after)) :
    after.world.2 <+:
      (settings.prepare workbench.recorded request failure next journal).2.world.2 := by
  rw [Settings.prepare, ran]
  cases result with
  | error fault => exact List.prefix_rfl
  | ok outcome =>
    simp only
    split
    next => exact grows after
    next => exact List.prefix_rfl

theorem inStep_prepare (same : SameUntilInterrupt full cut) (request : Request)
    (failure : Option Int → Failure)
    {nextLeft : Journal (σ × List Event) → Except Fault PairRun × Journal (σ × List Event)}
    {nextRight : Journal (τ × List Event) → Except Fault PairRun × Journal (τ × List Event)}
    (grows : ∀ journal, journal.world.2 <+: (nextLeft journal).2.world.2)
    (grows' : ∀ journal, journal.world.2 <+: (nextRight journal).2.world.2)
    (next : ∀ {one other}, other.world.2 = one.world.2 →
      InStep full cut one.world.2 (nextLeft one) (nextRight other))
    {one : Journal (σ × List Event)} {other : Journal (τ × List Event)}
    (even : other.world.2 = one.world.2) :
    InStep full cut one.world.2
      (settings.prepare left.recorded request failure nextLeft one)
      (settings.prepare right.recorded request failure nextRight other) := by
  intro isFull isCut
  have first : InStep full cut one.world.2 (settings.runPhase left.recorded request one)
      (settings.runPhase right.recorded request other) :=
    inStep_runPhase settings same request even
  cases ran : settings.runPhase left.recorded request one with
  | mk result after =>
    cases ran' : settings.runPhase right.recorded request other with
    | mk result' after' =>
      have grown := prefix_prepare settings failure grows ran
      have grown' := prefix_prepare settings failure grows' ran'
      rw [ran, ran'] at first
      cases first (grown.trans isFull) (grown'.trans isCut) with
      | struck before command passed started interrupted record going =>
        cases interrupted
        refine .struck before command passed started ?_ ?_ (going.trans grown)
        · rw [Settings.prepare, ran']
          rfl
        · rw [Settings.prepare, ran']
          exact record
      | even equal record =>
        cases equal
        have started : one.world.2 <+: after.world.2 := ⟨_, (record_of_runPhase ran).symm⟩
        rw [Settings.prepare, ran] at isFull ⊢
        rw [Settings.prepare, ran'] at isCut ⊢
        cases result with
        | error fault => exact .even rfl record
        | ok outcome =>
          simp only at isFull isCut ⊢
          split at isFull
          next clean =>
            rw [if_pos clean] at isCut ⊢
            rw [if_pos clean]
            exact (next record isFull isCut).earlier started
          next unclean =>
            rw [if_neg unclean, if_neg unclean]
            exact .even rfl record

theorem inStep_flashAndCollect (same : SameUntilInterrupt full cut)
    {one : Journal (σ × List Event)} {other : Journal (τ × List Event)}
    (even : other.world.2 = one.world.2) :
    InStep full cut one.world.2 (settings.flashAndCollect left.recorded benchmark environment one)
      (settings.flashAndCollect right.recorded benchmark environment other) := by
  by_cases native : settings.target.isNative
  · rw [Settings.flashAndCollect, if_pos native, Settings.flashAndCollect, if_pos native]
    exact inStep_collect settings benchmark environment same even
  · rw [flashAndCollect_eq_prepare settings left.recorded benchmark environment native,
      flashAndCollect_eq_prepare settings right.recorded benchmark environment native]
    exact inStep_prepare settings same _ _
      (fun journal => prefix_of_records
        (records_collect settings left benchmark environment journal))
      (fun journal => prefix_of_records
        (records_collect settings right benchmark environment journal))
      (inStep_collect settings benchmark environment same) even

theorem inStep_buildAndCollect (same : SameUntilInterrupt full cut)
    {one : Journal (σ × List Event)} {other : Journal (τ × List Event)}
    (even : other.world.2 = one.world.2) :
    InStep full cut one.world.2 (settings.buildAndCollect left.recorded benchmark environment one)
      (settings.buildAndCollect right.recorded benchmark environment other) := by
  rw [buildAndCollect_eq_prepare, buildAndCollect_eq_prepare]
  exact inStep_prepare settings same _ _
    (fun journal => prefix_of_records
      (records_flashAndCollect settings left benchmark environment journal))
    (fun journal => prefix_of_records
      (records_flashAndCollect settings right benchmark environment journal))
    (inStep_flashAndCollect settings benchmark environment same) even

/-- A pair of which the directory is there in both worlds or in none. -/
theorem inStep_runPair (same : SameUntilInterrupt full cut)
    {one : Journal (σ × List Event)} {other : Journal (τ × List Event)}
    (even : other.world.2 = one.world.2)
    (directory : environment.disabled = false →
      left.isDirectory (settings.target.directory environment) one.world.1 =
        right.isDirectory (settings.target.directory environment) other.world.1) :
    InStep full cut one.world.2 (settings.runPair left.recorded benchmark environment one)
      (settings.runPair right.recorded benchmark environment other) := by
  have there (workbench : Workbench σ) (journal : Journal (σ × List Event)) :
      workbench.recorded.isDirectory (settings.target.directory environment) journal.world =
        workbench.isDirectory (settings.target.directory environment) journal.world.1 := rfl
  unfold Settings.runPair
  split
  next => exact fun _ _ => .even rfl even
  next on =>
    have agree : left.recorded.isDirectory (settings.target.directory environment) one.world =
        right.recorded.isDirectory (settings.target.directory environment) other.world :=
      directory (by simpa using on)
    simp only [agree]
    split
    next =>
      have printed : (other.print (Settings.pairBanner benchmark environment)).world.2 =
          (one.print (Settings.pairBanner benchmark environment)).world.2 := even
      exact inStep_buildAndCollect settings benchmark environment same printed
    next => exact fun _ _ => .even rfl even

end Run

/-- The same for a pair on its own, after what was recorded before it. -/
theorem lockstep_runIn (same : SameUntilInterrupt full cut) (pair : Pair) (log : List Event)
    {world : σ} {other : τ}
    (directory : pair.2.disabled = false →
      left.isDirectory (settings.target.directory pair.2) world =
        right.isDirectory (settings.target.directory pair.2) other)
    (isFull : log ++ settings.events left pair world <+: full)
    (isCut : log ++ settings.events right pair other <+: cut) :
    ((settings.runIn right pair other).1 = (settings.runIn left pair world).1 ∧
      settings.events right pair other = settings.events left pair world) ∨
    ∃ own request result, (settings.runIn right pair other).1 = .error .interrupted ∧
      settings.events right pair other = own ++ [.ran request (.error .interrupted)] ∧
      own ++ [.ran request result] <+: settings.events left pair world := by
  have one := runIn_recorded settings left pair world log
  have two := runIn_recorded settings right pair other log
  have result : (settings.runPair left.recorded pair.1 pair.2 { world := (world, log) }).1 =
      (settings.runIn left pair world).1 := congrArg Prod.fst one
  have result' : (settings.runPair right.recorded pair.1 pair.2 { world := (other, log) }).1 =
      (settings.runIn right pair other).1 := congrArg Prod.fst two
  have record : (settings.runPair left.recorded pair.1 pair.2 { world := (world, log) }).2.world.2 =
      log ++ settings.events left pair world := congrArg (·.2.2) one
  have record' :
      (settings.runPair right.recorded pair.1 pair.2 { world := (other, log) }).2.world.2 =
        log ++ settings.events right pair other := congrArg (·.2.2) two
  have start : ({ world := (other, log) } : Journal (τ × List Event)).world.2 =
      ({ world := (world, log) } : Journal (σ × List Event)).world.2 := rfl
  have follows := inStep_runPair settings pair.1 pair.2 same start directory
    (record ▸ isFull) (record' ▸ isCut)
  cases follows with
  | even equal logged =>
    rw [record, record'] at logged
    exact .inl ⟨by rw [← result, ← result', equal], List.append_cancel_left logged⟩
  | struck before request passed started interrupted logged going =>
    obtain ⟨own, rfl⟩ : log <+: before := started
    rw [record', List.append_assoc] at logged
    rw [record, List.append_assoc, List.prefix_append_right_inj] at going
    exact .inr ⟨own, request, passed, result' ▸ interrupted, List.append_cancel_left logged, going⟩

end BoardBench.Sweep
