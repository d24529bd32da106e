import BoardBench.Proofs.Sweep.Lockstep
import Mathlib.Data.List.Induction

/-!
# Interrupted sweeps

Two sweeps that behave alike until an execution of the second one is interrupted.

Main result: the second report is what the first one says about the pairs before the interrupted
one, with all of their rows and no others, and the interrupted execution is the last event of the
second sweep.

Proof strategy: the pairs that the second sweep is done with were the same in the first one, since
no interrupt was among their events. The pair after them runs in lockstep up to the interrupt.
-/
namespace BoardBench.Sweep

variable {σ τ : Type}

/-! ### The record of a sweep -/

namespace Settings

variable (settings : Settings) (workbench : Workbench σ)

/-- All that is executed or asked in a sweep, in order. -/
def record (config : Config) (world : σ) : List Event :=
  (settings.sweep workbench.recorded config (world, [])).journal.world.2

/-- All that is executed or asked for some pairs, one after the other. -/
def recordAfter (pairs : List Pair) (world : σ) : List Event :=
  (settings.worldAfter workbench.recorded pairs (world, [])).2

end Settings

section Record

variable {settings : Settings} {workbench : Workbench σ} {config : Config}

/-- The record of a sweep is made of those of its pairs. -/
theorem record_eq_flatten (config : Config) (world : σ) :
    settings.record workbench config world =
      (settings.logs workbench world (settings.pairs config)).flatten := by
  have walked := state_sweep settings workbench.recorded config (world, [])
  rw [walk_recorded rfl] at walked
  exact congrArg (·.2.2) walked

theorem worldAfter_recorded (pairs : List Pair) (world : σ) :
    settings.worldAfter workbench.recorded pairs (world, []) =
      (settings.worldAfter workbench pairs world, settings.recordAfter workbench pairs world) := by
  induction pairs using List.reverseRecOn with
  | nil => rfl
  | append_singleton before pair ih =>
    rw [Settings.recordAfter, worldAfter_concat, worldAfter_concat, ih, runIn_recorded]

theorem recordAfter_concat (before : List Pair) (pair : Pair) (world : σ) :
    settings.recordAfter workbench (before ++ [pair]) world =
      settings.recordAfter workbench before world ++
        settings.events workbench pair (settings.worldAfter workbench before world) := by
  rw [Settings.recordAfter, worldAfter_concat, worldAfter_recorded, runIn_recorded]

theorem recordAfter_mono {before pairs : List Pair} (earlier : before <+: pairs) (world : σ) :
    settings.recordAfter workbench before world <+: settings.recordAfter workbench pairs world := by
  obtain ⟨more, rfl⟩ := earlier
  induction more using List.reverseRecOn with
  | nil => rw [List.append_nil]
  | append_singleton more pair ih =>
    rw [← List.append_assoc, recordAfter_concat]
    exact ih.trans (List.prefix_append _ _)

theorem Covered.recorded {world now : σ} {done : List Pair} {runs : List PairRun}
    (covered : Covered settings workbench world done runs now) :
    Covered settings workbench.recorded (world, []) done runs
      (now, settings.recordAfter workbench done world) := by
  induction covered with
  | start => exact .start
  | @step done runs now pair run before ran ih =>
    have next := runIn_recorded settings workbench pair now
      (settings.recordAfter workbench done world)
    rw [ran] at next
    have step := ih.step (congrArg Prod.fst next)
    rw [next, before.world_eq, ← recordAfter_concat] at step
    exact before.world_eq ▸ step

/-- A walk is where it would be without the pairs that are done. -/
theorem walk_of_covered {world now : σ} {done : List Pair} {runs : List PairRun}
    (covered : Covered settings workbench world done runs now) (rest : List Pair) :
    settings.walk workbench ({}, world) (done ++ rest) =
      settings.walk workbench (reportOn done runs, now) rest := by
  induction covered generalizing rest with
  | start => rfl
  | step before ran ih =>
    rw [List.append_assoc, ih, List.singleton_append, walk_of_ok rfl ran,
      add_reportOn before.length_eq]

section Ends

variable {world now : σ} {done : List Pair} {runs : List PairRun}
  (covered : Covered settings workbench world done runs now)
include covered

theorem record_of_through (all : settings.pairs config = done) :
    settings.record workbench config world = settings.recordAfter workbench done world := by
  have walked := state_sweep settings workbench.recorded config (world, [])
  rw [all, ← List.append_nil done, walk_of_covered covered.recorded] at walked
  exact congrArg (·.2.2) walked

theorem record_of_stopped {pair : Pair} {rest : List Pair} {fault : Fault}
    (split : settings.pairs config = done ++ pair :: rest)
    (failed : (settings.runIn workbench pair now).1 = .error fault) :
    settings.record workbench config world =
      settings.recordAfter workbench (done ++ [pair]) world := by
  have recorded := runIn_recorded settings workbench pair now
    (settings.recordAfter workbench done world)
  rw [failed] at recorded
  have walked := state_sweep settings workbench.recorded config (world, [])
  rw [split, walk_of_covered covered.recorded, walk_of_error (congrArg Prod.fst recorded),
    recorded] at walked
  rw [recordAfter_concat, ← covered.world_eq]
  exact congrArg (·.2.2) walked

end Ends

/-! ### Interrupts in the record -/

/-- A record shows an interrupt as soon as one has struck. -/
theorem simulates_recorded (workbench : Workbench σ) :
    Simulates workbench workbench.recorded
      (fun world state => state.1 = world ∧ ∀ event ∈ state.2, ¬event.IsInterrupt)
      (fun world state => state.1 = world ∧ ∃ event ∈ state.2, event.IsInterrupt) where
  isDirectory path world state related := by
    rw [← related.1]
    rfl
  execute request world state related := by
    obtain ⟨rfl, quiet⟩ := related
    refine ⟨rfl, ?_, ?_⟩
    · intro passed
      refine ⟨rfl, List.forall_mem_append.mpr ⟨quiet, ?_⟩⟩
      rintro event last ⟨other, interrupt⟩
      rw [List.mem_singleton.mp last, Event.ran.injEq] at interrupt
      exact passed interrupt.2
    · intro interrupted
      refine ⟨rfl, _, List.mem_append_right _ (List.mem_singleton_self _), request, ?_⟩
      exact congrArg (Event.ran request) interrupted
  decide attempt maxAttempts world state related := by
    obtain ⟨rfl, quiet⟩ := related
    refine ⟨rfl, rfl, List.forall_mem_append.mpr ⟨quiet, ?_⟩⟩
    rintro event last ⟨request, interrupt⟩
    rw [List.mem_singleton.mp last] at interrupt
    cases interrupt

/-- A pair ends with an interrupt exactly if there is one among its events. -/
theorem exists_interrupt_iff (pair : Pair) (world : σ) :
    (∃ event ∈ settings.events workbench pair world, event.IsInterrupt) ↔
      (settings.runIn workbench pair world).1 = .error .interrupted := by
  have silent : OnWorlds (fun world (state : σ × List Event) =>
      state.1 = world ∧ ∀ event ∈ state.2, ¬event.IsInterrupt) { world } { world := (world, []) } :=
    ⟨rfl, by simp⟩
  have agree := (simulates_recorded workbench).runPair settings pair.1 pair.2 silent
  constructor
  · rintro ⟨event, logged, interrupt⟩
    by_cases interrupted : (settings.runIn workbench pair world).1 = .error .interrupted
    · exact interrupted
    · exact absurd interrupt ((agree.quiets interrupted).2 event logged)
  · intro interrupted
    exact (agree.strikes interrupted).2

theorem Covered.quiet {world now : σ} {done : List Pair} {runs : List PairRun}
    (covered : Covered settings workbench world done runs now) :
    ∀ event ∈ settings.recordAfter workbench done world, ¬event.IsInterrupt := by
  induction covered with
  | start =>
    intro event logged
    cases logged
  | @step done runs now pair run before ran ih =>
    rw [recordAfter_concat, ← before.world_eq]
    refine List.forall_mem_append.mpr ⟨ih, ?_⟩
    intro event logged interrupt
    rw [(exists_interrupt_iff pair now).mp ⟨event, logged, interrupt⟩] at ran
    cases ran

/-- A sweep without an interrupt in its record is done with all pairs. -/
theorem covered_of_quiet {world : σ}
    (quiet : ∀ event ∈ settings.record workbench config world, ¬event.IsInterrupt) :
    ∃ runs now, Covered settings workbench world (settings.pairs config) runs now ∧
      (settings.sweep workbench config world).report = reportOn (settings.pairs config) runs := by
  cases hasWalked_sweep settings workbench config world with
  | through hasDone =>
    obtain ⟨runs, covered, report⟩ := hasDone
    exact ⟨runs, _, covered, report⟩
  | stopped done pair rest runs now split covered failed report =>
    rw [record_of_stopped covered split failed, recordAfter_concat, ← covered.world_eq] at quiet
    obtain ⟨event, logged, interrupt⟩ := (exists_interrupt_iff pair now).mpr failed
    exact absurd interrupt (quiet event (List.mem_append_right _ logged))

/-- The runs of the first pairs are the first runs. -/
theorem Covered.runs_initial {world now now' : σ} {done more : List Pair}
    {runs runs' : List PairRun} (covered : Covered settings workbench world done runs now)
    (further : Covered settings workbench world (done ++ more) runs' now') : runs <+: runs' := by
  have lengths := covered.length_eq
  have lengths' := further.length_eq
  rw [List.length_append] at lengths'
  rw [List.prefix_iff_getElem?]
  intro index within
  have within' : index < runs'.length := by omega
  obtain ⟨pair, among, ran⟩ := covered.run_eq (List.getElem?_eq_getElem within)
  obtain ⟨pair', among', ran'⟩ := further.run_eq (List.getElem?_eq_getElem within')
  rw [List.getElem?_append_left (by omega), among, Option.some.injEq] at among'
  subst among'
  rw [List.take_append_of_le_length (by omega), ran, Except.ok.injEq] at ran'
  rw [List.getElem?_eq_getElem within', ran']

theorem Covered.ended {world now : σ} {done rest : List Pair} {pair : Pair} {runs : List PairRun}
    (covered : Covered settings workbench world (done ++ pair :: rest) runs now) :
    ∃ run, (settings.runIn workbench pair
      (settings.worldAfter workbench done world)).1 = .ok run := by
  have lengths := covered.length_eq
  rw [List.length_append, List.length_cons] at lengths
  have within : done.length < runs.length := by omega
  obtain ⟨other, among, ran⟩ := covered.run_eq (List.getElem?_eq_getElem within)
  rw [List.getElem?_append_right (Nat.le_refl _), Nat.sub_self, List.getElem?_cons_zero,
    Option.some.injEq] at among
  rw [List.take_left, ← among] at ran
  exact ⟨_, ran⟩

end Record

/-! ### Two sweeps -/

/-- After the same events, the next one is the same in both sweeps or an interrupt in the second
one, and a pair has a directory in both or in none. -/
structure Settings.BehaveAlike (settings : Settings) (config : Config) (left : Workbench σ)
    (world : σ) (right : Workbench τ) (other : τ) : Prop where
  events : SameUntilInterrupt (settings.record left config world)
    (settings.record right config other)
  directories : ∀ before pair, before ++ [pair] <+: settings.pairs config →
    pair.2.disabled = false →
    settings.recordAfter left before world = settings.recordAfter right before other →
    left.isDirectory (settings.target.directory pair.2) (settings.worldAfter left before world) =
      right.isDirectory (settings.target.directory pair.2) (settings.worldAfter right before other)

section Two

variable {settings : Settings} {config : Config} {left : Workbench σ} {right : Workbench τ}
  {world : σ} {other : τ} (alike : settings.BehaveAlike config left world right other)
  (full : settings.record left config world =
    settings.recordAfter left (settings.pairs config) world)
include alike full

/-- One more pair in both sweeps, after the same events. -/
theorem Settings.BehaveAlike.runIn {done : List Pair} {pair : Pair}
    (among : done ++ [pair] <+: settings.pairs config)
    (cut : settings.recordAfter right (done ++ [pair]) other <+:
      settings.record right config other)
    (even : settings.recordAfter right done other = settings.recordAfter left done world) :
    let now := settings.worldAfter left done world
    let now' := settings.worldAfter right done other
    ((settings.runIn right pair now').1 = (settings.runIn left pair now).1 ∧
      settings.events right pair now' = settings.events left pair now) ∨
    ∃ own request result, (settings.runIn right pair now').1 = .error .interrupted ∧
      settings.events right pair now' = own ++ [.ran request (.error .interrupted)] ∧
      own ++ [.ran request result] <+: settings.events left pair now := by
  have whole : settings.recordAfter left (done ++ [pair]) world <+:
      settings.recordAfter left (settings.pairs config) world := recordAfter_mono among world
  rw [← full, recordAfter_concat] at whole
  rw [recordAfter_concat, even] at cut
  exact lockstep_runIn settings alike.events pair _
    (fun on => alike.directories done pair among on even.symm) whole cut

/-- What the second sweep is done with was the same in the first one. -/
theorem Settings.BehaveAlike.covered {done : List Pair} {runs : List PairRun} {now : τ}
    (covered : Covered settings right other done runs now)
    (among : done <+: settings.pairs config)
    (cut : settings.recordAfter right done other <+: settings.record right config other) :
    Covered settings left world done runs (settings.worldAfter left done world) ∧
      settings.recordAfter right done other = settings.recordAfter left done world := by
  induction covered with
  | start => exact ⟨.start, rfl⟩
  | @step done runs now pair run before ran ih =>
    have earlier : done <+: done ++ [pair] := List.prefix_append _ _
    obtain ⟨covered, even⟩ := ih (earlier.trans among)
      ((recordAfter_mono earlier other).trans cut)
    rw [before.world_eq] at ran
    rcases alike.runIn full among cut even with ⟨same, events⟩ | ⟨_, _, _, interrupted, -⟩
    · rw [ran] at same
      refine ⟨?_, ?_⟩
      · rw [worldAfter_concat]
        exact covered.step same.symm
      · rw [recordAfter_concat, recordAfter_concat, even, events]
    · rw [ran] at interrupted
      cases interrupted

end Two

theorem pairs_reportOn_append {done rest : List Pair} {runs later : List PairRun}
    (lengths : done.length = runs.length) :
    (reportOn (done ++ rest) (runs ++ later)).pairs =
      (reportOn done runs).pairs ++ (reportOn rest later).pairs := by
  simp only [reportOn, List.zip_append lengths, List.map_append]

/-- If two sweeps behave alike until an execution of the second one is interrupted, and the first
one has no interrupt, then the second one reports the pairs before the interrupted one as the first
one does, with the same rows, and nothing of the other pairs. The interrupted execution is one for
that pair, and nothing is executed or asked after it. -/
theorem sweep_truncates (settings : Settings) (config : Config) {left : Workbench σ}
    {right : Workbench τ} {world : σ} {other : τ}
    (alike : settings.BehaveAlike config left world right other)
    (quiet : ∀ event ∈ settings.record left config world, ¬event.IsInterrupt)
    (struck : ∃ event ∈ settings.record right config other, event.IsInterrupt) :
    let pairs := settings.pairs config
    let one := (settings.sweep left config world).report
    let two := (settings.sweep right config other).report
    one.interrupted = false ∧ two.interrupted = true ∧ two.pairs <+: one.pairs ∧
    ∃ done pair rest runs later, pairs = done ++ pair :: rest ∧ done.length = runs.length ∧
      (∀ index run, (runs ++ later)[index]? = some run → ∃ pair, pairs[index]? = some pair ∧
        (settings.runIn left pair
          (settings.worldAfter left (pairs.take index) world)).1 = .ok run) ∧
      one = reportOn pairs (runs ++ later) ∧
      two = { reportOn done runs with interrupted := true } ∧
      one.results.records = runs.flatMap PairRun.rows ++ later.flatMap PairRun.rows ∧
      two.results.records = runs.flatMap PairRun.rows ∧
      ∃ own request result,
        let before := settings.recordAfter left done world ++ own
        settings.record right config other = before ++ [.ran request (.error .interrupted)] ∧
        before ++ [.ran request result] <+: settings.record left config world ∧
        (∀ event ∈ before, ¬event.IsInterrupt) ∧ request ∈ settings.plan pair := by
  intro pairs one two
  obtain ⟨all, now, covered, report⟩ := covered_of_quiet quiet
  have full := record_of_through covered rfl
  cases hasWalked_sweep settings right config other with
  | through hasDone =>
    -- Without an interrupted pair there is no interrupt in the record.
    obtain ⟨runs, through, -⟩ := hasDone
    obtain ⟨event, logged, interrupt⟩ := struck
    rw [record_of_through through rfl] at logged
    exact absurd interrupt (through.quiet event logged)
  | stopped done pair rest runs now' split stopped failed report' =>
    have cut := record_of_stopped stopped split failed
    have among : done ++ [pair] <+: pairs := ⟨rest, by simp [pairs, split]⟩
    have whole : settings.recordAfter right (done ++ [pair]) other <+:
        settings.record right config other := cut ▸ List.prefix_rfl
    have earlier : done <+: done ++ [pair] := List.prefix_append _ _
    obtain ⟨before, even⟩ := alike.covered full stopped (earlier.trans among)
      ((recordAfter_mono earlier other).trans whole)
    rw [stopped.world_eq] at failed
    have reaches : Covered settings left world (done ++ pair :: rest) all now := split ▸ covered
    obtain ⟨later, rfl⟩ := before.runs_initial reaches
    obtain ⟨run, ended⟩ := reaches.ended
    rcases alike.runIn full among whole even with
      ⟨same, -⟩ | ⟨own, request, result, -, events, going⟩
    · rw [failed, ended] at same
      cases same
    · have passed : settings.recordAfter left done world ++ own ++ [.ran request result] <+:
          settings.record left config world := by
        refine .trans ?_ (full ▸ recordAfter_mono among world)
        rw [recordAfter_concat, List.append_assoc]
        exact (List.prefix_append_right_inj _).mpr going
      have planned : request ∈ settings.plan pair := by
        apply (conducts_events settings left ended).commands.subset
        exact List.mem_filterMap.mpr ⟨.ran request result, going.subset (by simp), rfl⟩
      have first : one = reportOn pairs (runs ++ later) := report
      have second : two = { reportOn done runs with interrupted := true } := report'
      refine ⟨by rw [first]; rfl, by rw [second], ?_, done, pair, rest, runs, later, split,
        stopped.length_eq, ?_, first, second, ?_, ?_, own, request, result, ?_, passed, ?_, planned⟩
      · rw [first, second, show pairs = done ++ pair :: rest from split,
          pairs_reportOn_append stopped.length_eq]
        exact List.prefix_append _ _
      · exact fun index run found => covered.run_eq found
      · rw [first]
        exact List.flatMap_append
      · rw [second]
        rfl
      · rw [cut, recordAfter_concat, even, events, List.append_assoc]
      · intro event logged
        exact quiet event (passed.subset (List.mem_append_left _ logged))

/-! ### An interrupted attempt -/

/-- Records that agree up to an interrupt at the end of the second one. -/
theorem sameUntilInterrupt_of_last {before more : List Event} {one other : Event}
    (struck : other.IsInterrupt) :
    SameUntilInterrupt (before ++ one :: more) (before ++ [other]) := by
  rintro start next next' ⟨after, isFull⟩ ⟨after', isCut⟩ -
  have found := congrArg (·[start.length]?) isFull
  have found' := congrArg (·[start.length]?) isCut
  simp only [List.append_assoc, List.singleton_append, List.getElem?_append_right (Nat.le_refl _),
    Nat.sub_self, List.getElem?_cons_zero] at found found'
  rcases Nat.lt_trichotomy start.length before.length with early | last | late
  · rw [List.getElem?_append_left early] at found found'
    exact .inl (Option.some.inj (found'.trans found.symm))
  · rw [last, List.getElem?_concat_length, Option.some.injEq] at found'
    exact .inr (found' ▸ struck)
  · rw [List.getElem?_eq_none (by simp; omega)] at found'
    cases found'

/-- A world that counts executions. The fourth one shows no row, and one may be interrupted. -/
def restless (strikesAt? : Option Nat) : Workbench Nat where
  isDirectory _ _ := true
  execute _ count :=
    ({ seen := []
       result := if strikesAt? = some count then .error .interrupted
         else .ok { exit := .ended (.code 0), transcript := []
                    rows := if count = 3 then [] else [Telemetry.Row.empty] }
       unconfigured := by intro cause; split <;> simp }, count + 1)
  decide _ _ count := ({ answer := true }, count)

instance decidableEqResult : DecidableEq (Except Fault Supervision.Outcome)
  | .ok one, .ok other => decidable_of_iff (one = other) (by simp)
  | .error one, .error other => decidable_of_iff (one = other) (by simp)
  | .ok _, .error _ => isFalse (by simp)
  | .error _, .ok _ => isFalse (by simp)

deriving instance DecidableEq for Event

/-- The second attempt for the second pair is interrupted, the first one had no rows. -/
theorem restless_truncated :
    let full := (counterSettings.sweep (restless none) counterConfig 0).report
    let cut := (counterSettings.sweep (restless (some 4)) counterConfig 0).report
    full.interrupted = false ∧ cut.interrupted = true ∧ cut.pairs <+: full.pairs := by
  obtain ⟨common, request, outcome, full, cut⟩ : ∃ common request outcome,
      counterSettings.record (restless none) counterConfig 0 =
          common ++ [.ran request (.ok outcome)] ∧
        counterSettings.record (restless (some 4)) counterConfig 0 =
          common ++ [.ran request (.error .interrupted)] :=
    ⟨(counterSettings.record (restless none) counterConfig 0).take 5,
      counterSettings.runRequest counterConfig.benchmarks[0] { name := "rbpf" },
      { exit := .ended (.code 0), transcript := [], rows := [Telemetry.Row.empty] },
      by decide +kernel, by decide +kernel⟩
  have alike : counterSettings.BehaveAlike counterConfig (restless none) 0 (restless (some 4)) 0 :=
    ⟨by rw [full, cut]; exact sameUntilInterrupt_of_last ⟨request, rfl⟩, fun _ _ _ _ _ => rfl⟩
  have quiet : ∀ event ∈ counterSettings.record (restless none) counterConfig 0,
      ¬event.IsInterrupt := by
    obtain ⟨runs, covered, -⟩ :=
      (hasWalked_sweep counterSettings (restless none) counterConfig 0).hasDone (by decide +kernel)
    rw [record_of_through covered rfl]
    exact covered.quiet
  have struck : ∃ event ∈ counterSettings.record (restless (some 4)) counterConfig 0,
      event.IsInterrupt :=
    ⟨_, by rw [cut]; exact List.mem_append_right _ (List.mem_singleton_self _), request, rfl⟩
  obtain ⟨ended, interrupted, earlier, -⟩ :=
    sweep_truncates counterSettings counterConfig alike quiet struck
  exact ⟨ended, interrupted, earlier⟩

end BoardBench.Sweep
