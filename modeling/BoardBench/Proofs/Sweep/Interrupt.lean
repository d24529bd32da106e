import BoardBench.Proofs.Sweep.Conduct
import BoardBench.Proofs.Sweep.Invariant
import BoardBench.Proofs.Retry.Prompt
import BoardBench.Host.Station

/-!
# The flag at the retry prompt

Only an execution turns a raised flag into an interrupt. A flag that is raised while a question
waits for its answer is a no, and the sweep goes on with the next pair.

Main result: the pair with the question is reported as declined. After it, pairs are reported as
long as none of them gets a command started, and the sweep is interrupted exactly if one of them
does. If all of them are disabled or have no directory, then the report shows nothing of the
interrupt.
-/
namespace BoardBench.Sweep

open Supervision (Request Outcome)

variable {σ : Type}

/-! ### Workbenches with a flag -/

/-- A raised flag stays up, lets no command run to its end, and makes the answer no. The last is
asked for in proper worlds only, which executions and questions do not leave. -/
structure Workbench.Heeds (workbench : Workbench σ) (proper : σ → Prop) (raised : σ → Bool) :
    Prop where
  execute : ∀ request world, proper world → proper (workbench.execute request world).2
  decide : ∀ attempt maxAttempts world, proper world →
    proper (workbench.decide attempt maxAttempts world).2
  stays : ∀ request world, raised world = true →
    raised (workbench.execute request world).2 = true
  fails : ∀ request world, raised world = true →
    ∃ fault, (workbench.execute request world).1.result = .error fault
  answers : ∀ attempt maxAttempts world, proper world →
    raised (workbench.decide attempt maxAttempts world).2 = true →
    (workbench.decide attempt maxAttempts world).1.answer = false

/-- The workbench that notes whether the flag went up while a question waited. -/
def Workbench.watched (workbench : Workbench σ) (raised : σ → Bool) : Workbench (σ × Bool) :=
  workbench.noting (fun _ _ noted => noted)
    (fun before _ after noted => noted || (!raised before && raised after))

/-- The flag goes up while a question of the pair waits. -/
def Settings.IsRaisedAtQuestion (settings : Settings) (workbench : Workbench σ)
    (raised : σ → Bool) (pair : Pair) (world : σ) : Prop :=
  (settings.runIn (workbench.watched raised) pair (world, false)).2.2 = true

/-! ### The pair with the question -/

section Question

/-- Nothing has been noted in a proper world. -/
def Unnoticed (proper : σ → Prop) (journal : Journal (σ × Bool)) : Prop :=
  journal.world.2 = false ∧ proper journal.world.1

/-- If the flag went up at a question, it is still up and the question was answered with no. -/
def Declines (raised : σ → Bool) (ending : Except Fault PairRun × Journal (σ × Bool)) : Prop :=
  ending.2.world.2 = true → raised ending.2.world.1 = true ∧
    ∃ attempts, ending.1 = .ok { status := .failed (.declined attempts) }

variable {workbench : Workbench σ} {proper : σ → Prop} {raised : σ → Bool} {settings : Settings}

theorem Unnoticed.declines {result : Except Fault PairRun} {journal : Journal (σ × Bool)}
    (unnoticed : Unnoticed proper journal) : Declines raised (result, journal) := by
  intro noted
  rw [unnoticed.1] at noted
  cases noted

variable (heeds : workbench.Heeds proper raised)
include heeds

theorem Unnoticed.runPhase {request : Request} {journal after : Journal (σ × Bool)}
    {result : Except Fault Outcome} (unnoticed : Unnoticed proper journal)
    (ran : settings.runPhase (workbench.watched raised) request journal = (result, after)) :
    Unnoticed proper after := by
  obtain ⟨-, world⟩ := execute_of_runPhase ran
  rw [Unnoticed, world]
  exact ⟨unnoticed.1, heeds.execute request journal.world.1 unnoticed.2⟩

variable {benchmark : Benchmark} {environment : Environment}

theorem Unnoticed.decide {attempt maxAttempts : UInt32} {journal after : Journal (σ × Bool)}
    {answer : Bool} (unnoticed : Unnoticed proper journal)
    (asked : (settings.retryActions (workbench.watched raised) benchmark environment).decide
      attempt maxAttempts journal = (answer, after)) :
    proper after.world.1 ∧
      (after.world.2 = true → raised after.world.1 = true ∧ answer = false) := by
  obtain ⟨quiet, good⟩ := unnoticed
  have answers := heeds.answers attempt maxAttempts journal.world.1 good
  have next := heeds.decide attempt maxAttempts journal.world.1 good
  have noted : after.world.2 = (journal.world.2 ||
      (!raised journal.world.1 && raised after.world.1)) := by
    cases asked
    rfl
  cases asked
  refine ⟨next, ?_⟩
  -- Nothing was noted before, so it is this question that the flag went up at.
  intro up
  rw [noted, quiet, Bool.false_or, Bool.and_eq_true] at up
  exact ⟨up.2, answers up.2⟩

variable (settings benchmark environment)

theorem keeps_unnoticed :
    (settings.retryActions (workbench.watched raised) benchmark environment).Keeps
      settings.policy.maxAttempts fun _ => Unnoticed proper := by
  intro made journal outcome after next _ _ unnoticed attempted _ asked
  have still : Unnoticed proper after := unnoticed.runPhase heeds attempted
  obtain ⟨good, raised⟩ := still.decide heeds asked
  refine ⟨?_, good⟩
  -- The answer was yes, so the flag is not up after it.
  cases noted : next.world.2 with
  | false => rfl
  | true => cases (raised noted).2

theorem declines_collect {journal : Journal (σ × Bool)} (unnoticed : Unnoticed proper journal) :
    Declines raised
      (settings.collect (workbench.watched raised) benchmark environment journal) := by
  obtain ⟨made, last, -, still, leaves⟩ :=
    Retry.run_leaves (keeps_unnoticed settings heeds benchmark environment) unnoticed
  unfold Settings.collect
  generalize Retry.run _ _ _ = ending at leaves
  -- Only a loop that ends with a no can have seen the flag go up at a question.
  cases leaves with
  | fault attempted => exact (still.runPhase heeds attempted).declines
  | success attempted => exact (still.runPhase heeds attempted).declines
  | exhausted attempted => exact (still.runPhase heeds attempted).declines
  | declined attempted empty more asked =>
    intro noted
    have asking := still.runPhase heeds attempted
    exact ⟨((asking.decide heeds asked).2 noted).1, _, rfl⟩

theorem declines_prepare (request : Request) (failure : Option Int → Failure)
    {next : Journal (σ × Bool) → Except Fault PairRun × Journal (σ × Bool)}
    (declines : ∀ {after}, Unnoticed proper after → Declines raised (next after))
    {journal : Journal (σ × Bool)} (unnoticed : Unnoticed proper journal) :
    Declines raised
      (settings.prepare (workbench.watched raised) request failure next journal) := by
  unfold Settings.prepare
  split
  next fault after ran => exact (unnoticed.runPhase heeds ran).declines
  next outcome after ran =>
    have still : Unnoticed proper after := unnoticed.runPhase heeds ran
    split
    · exact declines still
    · exact still.declines

theorem declines_flashAndCollect {journal : Journal (σ × Bool)}
    (unnoticed : Unnoticed proper journal) :
    Declines raised
      (settings.flashAndCollect (workbench.watched raised) benchmark environment journal) := by
  by_cases native : settings.target.isNative
  · rw [Settings.flashAndCollect, if_pos native]
    exact declines_collect settings heeds benchmark environment unnoticed
  · rw [flashAndCollect_eq_prepare settings _ benchmark environment native]
    exact declines_prepare settings heeds _ _
      (declines_collect settings heeds benchmark environment) unnoticed

theorem declines_runPair {journal : Journal (σ × Bool)} (unnoticed : Unnoticed proper journal) :
    Declines raised
      (settings.runPair (workbench.watched raised) benchmark environment journal) := by
  unfold Settings.runPair
  split
  next => exact unnoticed.declines
  next =>
    simp only
    split
    next =>
      rw [buildAndCollect_eq_prepare]
      exact declines_prepare settings heeds _ _
        (declines_flashAndCollect settings heeds benchmark environment) unnoticed
    next => exact unnoticed.declines

theorem declined_of_isRaised {pair : Pair} {world : σ} (good : proper world)
    (raisedAt : settings.IsRaisedAtQuestion workbench raised pair world) :
    raised (settings.runIn workbench pair world).2 = true ∧ ∃ attempts,
      (settings.runIn workbench pair world).1 = .ok { status := .failed (.declined attempts) } := by
  have start : Unnoticed proper { world := (world, false) } := ⟨rfl, good⟩
  have watched := declines_runPair settings heeds pair.1 pair.2 start raisedAt
  obtain ⟨result, left⟩ := runIn_noting settings workbench (fun _ _ noted => noted)
    (fun before _ after noted => noted || (!raised before && raised after)) pair world false
  rw [← result, ← left]
  exact watched

end Question

/-! ### The pairs after it -/

section After

variable {settings : Settings} {workbench : Workbench σ} {proper : σ → Prop} {raised : σ → Bool}
  (heeds : workbench.Heeds proper raised)

theorem worldAfter_take (settings : Settings) (workbench : Workbench σ) (pairs : List Pair)
    {first later : Nat} (order : first ≤ later) (world : σ) :
    settings.worldAfter workbench (pairs.take later) world =
      settings.worldAfter workbench ((pairs.take later).drop first)
        (settings.worldAfter workbench (pairs.take first) world) := by
  have front : (pairs.take later).take first = pairs.take first := by
    rw [List.take_take, Nat.min_eq_left order]
  have split := List.take_append_drop first (pairs.take later)
  rw [front] at split
  calc settings.worldAfter workbench (pairs.take later) world
      = settings.worldAfter workbench
          (pairs.take first ++ (pairs.take later).drop first) world := by
        rw [split]
    _ = _ := List.foldl_append

/-- The pair gets as far as its first command, and that is interrupted. -/
def Settings.IsStruck (settings : Settings) (workbench : Workbench σ) (pair : Pair) (world : σ) :
    Prop :=
  pair.2.disabled = false ∧
    workbench.isDirectory (settings.target.directory pair.2) world = true ∧
    (workbench.execute (settings.buildRequest pair) world).1.result = .error .interrupted

/-- No command of the pair was started. -/
def PairStatus.IsIdle : PairStatus → Prop
  | skipped _ => True
  | failed (.spawn _) => True
  | _ => False

/-- A pair that gets as far as its first command ends with the fault the command is met with. -/
theorem runIn_of_error {pair : Pair} {world : σ} {fault : Fault} (on : pair.2.disabled = false)
    (present : workbench.isDirectory (settings.target.directory pair.2) world = true)
    (failed : (workbench.execute (settings.buildRequest pair) world).1.result = .error fault) :
    settings.runIn workbench pair world =
      (Settings.pairFault fault, (workbench.execute (settings.buildRequest pair) world).2) := by
  let start : Journal σ :=
    Journal.print { world } (Settings.pairBanner pair.1 pair.2)
  have ran : settings.runPair workbench pair.1 pair.2 { world } =
      settings.buildAndCollect workbench pair.1 pair.2 start := by
    simp [Settings.runPair, on, present, start]
  have phase : settings.runPhase workbench (settings.buildRequest pair) start =
      (.error fault, (settings.runPhase workbench (settings.buildRequest pair) start).2) :=
    Prod.ext failed rfl
  have world := world_runPhase settings workbench (settings.buildRequest pair) start
  rw [Settings.runIn, ran, buildAndCollect_eq_prepare, Settings.prepare, phase]
  exact Prod.ext rfl world

include heeds

theorem proper_worldAfter (pairs : List Pair) {world : σ} (good : proper world) :
    proper (settings.worldAfter workbench pairs world) := by
  have keeps : workbench.Keeps proper := ⟨heeds.execute, heeds.decide⟩
  exact keeps.worldAfter settings pairs good

/-- With the flag up, a pair is interrupted at its first command or does not get as far as that. -/
theorem runIn_of_raised (pair : Pair) {world : σ} (up : raised world = true) :
    raised (settings.runIn workbench pair world).2 = true ∧
      ((settings.IsStruck workbench pair world ∧
          (settings.runIn workbench pair world).1 = .error .interrupted) ∨
        (¬settings.IsStruck workbench pair world ∧
          ∃ run, (settings.runIn workbench pair world).1 = .ok run ∧ run.status.IsIdle)) := by
  cases off : pair.2.disabled with
  | true =>
    have ended : settings.runIn workbench pair world =
        (.ok { status := .skipped .disabled }, world) := by
      simp [Settings.runIn, Settings.runPair, off]
    rw [ended]
    exact ⟨up, .inr ⟨fun struck => Bool.noConfusion (off.symm.trans struck.1), _, rfl, trivial⟩⟩
  | false =>
    cases present : workbench.isDirectory (settings.target.directory pair.2) world with
    | false =>
      have ended : settings.runIn workbench pair world =
          (.ok { status := .skipped (.missingDirectory (settings.target.directory pair.2)) },
            world) := by
        simp [Settings.runIn, Settings.runPair, off, present]
      rw [ended]
      exact ⟨up, .inr ⟨fun struck => Bool.noConfusion (present.symm.trans struck.2.1), _, rfl,
        trivial⟩⟩
    | true =>
      obtain ⟨fault, failed⟩ := heeds.fails (settings.buildRequest pair) world up
      rw [runIn_of_error off present failed]
      refine ⟨heeds.stays (settings.buildRequest pair) world up, ?_⟩
      -- The configuration is not to blame, so every fault but an interrupt is mild.
      have unconfigured := (workbench.execute (settings.buildRequest pair) world).1.unconfigured
      cases fault with
      | interrupted => exact .inl ⟨⟨off, present, failed⟩, rfl⟩
      | config cause => exact absurd failed (unconfigured cause)
      | _ =>
        refine .inr ⟨?_, _, rfl, trivial⟩
        intro struck
        rw [struck.2.2] at failed
        cases failed

theorem isIdle_of_raised {pair : Pair} {world : σ} {run : PairRun} (up : raised world = true)
    (ended : (settings.runIn workbench pair world).1 = .ok run) :
    run.status.IsIdle ∧ ¬settings.IsStruck workbench pair world := by
  rcases (runIn_of_raised heeds pair up).2 with ⟨-, failed⟩ | ⟨missed, other, same, isIdle⟩
  · rw [failed] at ended
    cases ended
  · rw [same] at ended
    cases ended
    exact ⟨isIdle, missed⟩

theorem isStruck_of_raised {pair : Pair} {world : σ} {fault : Fault} (up : raised world = true)
    (ended : (settings.runIn workbench pair world).1 = .error fault) :
    settings.IsStruck workbench pair world := by
  rcases (runIn_of_raised heeds pair up).2 with ⟨struck, -⟩ | ⟨-, run, same, -⟩
  · exact struck
  · rw [same] at ended
    cases ended

theorem raised_worldAfter (pairs : List Pair) {world : σ} (up : raised world = true) :
    raised (settings.worldAfter workbench pairs world) = true := by
  induction pairs generalizing world with
  | nil => exact up
  | cons pair rest ih => exact ih (runIn_of_raised heeds pair up).1

/-- If the flag is up after a pair, then it is up before each later one. -/
theorem raised_before_later {pairs : List Pair} {index later : Nat} {pair : Pair} {world : σ}
    (among : pairs[index]? = some pair) (after : index < later)
    (up : raised (settings.runIn workbench pair
      (settings.worldAfter workbench (pairs.take index) world)).2 = true) :
    raised (settings.worldAfter workbench (pairs.take later) world) = true := by
  have next : pairs.take (index + 1) = pairs.take index ++ [pair] := by
    rw [List.take_add_one, among]
    rfl
  rw [worldAfter_take settings workbench pairs after, next, worldAfter_concat]
  exact raised_worldAfter heeds _ up

end After

/-! ### The sweep -/

section Sweep

variable (settings : Settings) (workbench : Workbench σ)

/-- A sweep ends behind its last pair, or at one that is interrupted. -/
theorem sweep_ends (config : Config) (world : σ) :
    let pairs := settings.pairs config
    let report := (settings.sweep workbench config world).report
    (report.interrupted = false ∧ report.pairs.length = pairs.length) ∨
      (report.interrupted = true ∧ ∃ pair, pairs[report.pairs.length]? = some pair ∧
        (settings.runIn workbench pair
          (settings.worldAfter workbench (pairs.take report.pairs.length) world)).1 =
            .error .interrupted) := by
  intro pairs report
  cases hasWalked_sweep settings workbench config world with
  | through hasDone =>
    obtain ⟨runs, covered, written⟩ := hasDone
    have account : report = reportOn pairs runs := written
    have lengths : pairs.length = runs.length := covered.length_eq
    refine .inl ⟨by rw [account]; rfl, ?_⟩
    rw [account]
    simp [reportOn, lengths]
  | stopped done pair rest runs now split covered failed written =>
    have account : report = { reportOn done runs with interrupted := true } := written
    have lengths := covered.length_eq
    have count : report.pairs.length = done.length := by
      simp [account, reportOn, lengths]
    have cut : pairs = done ++ pair :: rest := split
    refine .inr ⟨by rw [account], pair, ?_, ?_⟩
    · rw [count, cut]
      simp
    · rw [count, cut, List.take_left, ← covered.world_eq]
      exact failed

variable {workbench} {proper : σ → Prop} {raised : σ → Bool} {world : σ}

/-- If the flag goes up while a question of a pair waits for its answer, then the pair is reported
as declined. No later pair that is reported has had a command started. The sweep is interrupted
exactly if some later pair gets as far as its first command, with the command started. -/
theorem sweep_after_raise (heeds : workbench.Heeds proper raised) (config : Config)
    (good : proper world) {index : Nat} {pair : Pair}
    (among : (settings.pairs config)[index]? = some pair)
    (reached : index ≤ (settings.sweep workbench config world).report.pairs.length)
    (raisedAt : settings.IsRaisedAtQuestion workbench raised pair
      (settings.worldAfter workbench ((settings.pairs config).take index) world)) :
    let pairs := settings.pairs config
    let report := (settings.sweep workbench config world).report
    (∃ attempts, report.pairs[index]? = some
      { benchmark := pair.1.name, environment := pair.2.label
        status := .failed (.declined attempts) }) ∧
    (∀ later account, index < later → report.pairs[later]? = some account →
      account.status.IsIdle) ∧
    (report.interrupted = true ↔
      ∃ later other, index < later ∧ pairs[later]? = some other ∧
        settings.IsStruck workbench other
          (settings.worldAfter workbench (pairs.take later) world)) := by
  intro pairs report
  obtain ⟨up, attempts, ended⟩ :=
    declined_of_isRaised settings heeds (proper_worldAfter heeds _ good) raisedAt
  have ends := sweep_ends settings workbench config world
  obtain ⟨-, accounts⟩ := sweep_reports settings workbench config world
  -- The pair with the question is not the one that stops the sweep, so it is reported.
  have within : index < report.pairs.length := by
    rcases ends with ⟨-, all⟩ | ⟨-, other, last, failed⟩
    · have bound := (List.getElem?_eq_some_iff.mp among).1
      rw [← all] at bound
      exact bound
    · refine Nat.lt_of_le_of_ne reached ?_
      intro same
      rw [← same, among, Option.some.injEq] at last
      rw [← last, ← same, ended] at failed
      cases failed
  have later_up : ∀ later, index < later →
      raised (settings.worldAfter workbench (pairs.take later) world) = true :=
    fun later after => raised_before_later heeds among after up
  refine ⟨⟨attempts, ?_⟩, ?_, ?_, ?_⟩
  · obtain ⟨other, run, same, ran, account, -⟩ :=
      accounts index _ (List.getElem?_eq_getElem within)
    rw [among, Option.some.injEq] at same
    subst same
    rw [ended] at ran
    cases ran
    rw [List.getElem?_eq_getElem within, account]
    rfl
  · intro later account after found
    obtain ⟨other, run, -, ran, rfl, -⟩ := accounts later account found
    exact (isIdle_of_raised heeds (later_up later after) ran).1
  · intro interrupted
    rcases ends with ⟨quiet, -⟩ | ⟨-, other, last, failed⟩
    · rw [quiet] at interrupted
      cases interrupted
    · have struck := isStruck_of_raised heeds (later_up report.pairs.length within) failed
      exact ⟨report.pairs.length, other, within, last, struck⟩
  · rintro ⟨later, other, after, there, struck⟩
    rcases ends with ⟨-, all⟩ | ⟨interrupted, -⟩
    · -- All pairs are reported, also the one that is struck: but then it has not ended.
      have bound := (List.getElem?_eq_some_iff.mp there).1
      rw [← all] at bound
      obtain ⟨same, run, again, ran, -⟩ := accounts later _ (List.getElem?_eq_getElem bound)
      rw [there, Option.some.injEq] at again
      subst again
      exact absurd struck (isIdle_of_raised heeds (later_up later after) ran).2
    · exact interrupted

end Sweep

/-- Commands that show nothing and exit with code zero, unless the flag interrupts them. -/
def silent : Workbench Retry.Desk where
  isDirectory _ _ := true
  execute _ desk :=
    ({ seen := []
       result := if desk.flag then .error .interrupted
         else .ok { exit := .ended (.code 0), transcript := [], rows := [] }
       unconfigured := by intro cause; split <;> simp }, desk)
  decide attempt maxAttempts desk :=
    let (answer, desk) := desk.decide (fun _ => false) attempt maxAttempts
    ({ answer }, desk)

theorem heeds_silent : silent.Heeds Retry.Desk.IsPrompting Retry.Desk.flag where
  execute _ _ prompting := prompting
  decide attempt maxAttempts _ prompting := prompting.decide (fun _ => false) attempt maxAttempts
  stays _ _ up := up
  fails _ _ up := ⟨_, if_pos up⟩
  answers attempt maxAttempts _ prompting := prompting.answer (fun _ => false) attempt maxAttempts

def silentConfig : Config where
  -- The second environment is disabled, so nothing is executed after the first one.
  benchmarks :=
    [{ name := "sum", filename := "sum.c", scaleFactor := 1, iterations := 1, board := "native"
       environments := [{ name := "wasm" }, { name := "rbpf", disabled := true }] }]
  commands := counterSettings.commands

def raisingDesk : Retry.Desk where
  decider := .prompting { input := [] }
  -- The flag is raised while an answer is waited for the first time.
  raises := [1]

theorem raisingDesk_declined :
    ∃ attempts, (counterSettings.sweep silent silentConfig raisingDesk).report.pairs[0]? =
      some
        { benchmark := "sum", environment := "wasm"
          status := .failed (.declined attempts) } := by
  have prompting : raisingDesk.IsPrompting := ⟨_, rfl, rfl⟩
  have raisedAt : counterSettings.IsRaisedAtQuestion silent Retry.Desk.flag
      (silentConfig.benchmarks[0], { name := "wasm" }) raisingDesk := by
    unfold Settings.IsRaisedAtQuestion
    decide +kernel
  exact (sweep_after_raise counterSettings heeds_silent silentConfig prompting
    rfl (Nat.zero_le _) raisedAt).1

/-- An interrupt at the prompt that does not end the sweep: the pair behind it is reported, and the
report is not marked as interrupted. -/
theorem raisingDesk_uninterrupted :
    raisingDesk.IsPrompting ∧
      counterSettings.IsRaisedAtQuestion silent Retry.Desk.flag
        (silentConfig.benchmarks[0], { name := "wasm" }) raisingDesk ∧
      (counterSettings.sweep silent silentConfig raisingDesk).journal.world.flag = true ∧
      (counterSettings.sweep silent silentConfig raisingDesk).report.interrupted = false ∧
      (counterSettings.sweep silent silentConfig raisingDesk).report.pairs =
        [{ benchmark := "sum", environment := "wasm", status := .failed (.declined 1) },
          { benchmark := "sum", environment := "rbpf", status := .skipped .disabled }] := by
  refine ⟨⟨_, rfl, rfl⟩, ?_, ?_, ?_, ?_⟩
  · unfold Settings.IsRaisedAtQuestion
    decide +kernel
  · decide +kernel
  · decide +kernel
  · decide +kernel

/-! ### The station -/

theorem execute_of_flag (patience : Supervision.Patience) (request : Request)
    (raisesOn : Nat → Bool) {flag : Bool} (child : Supervision.Child) (up : flag = true) :
    (Supervision.execute patience request raisesOn flag child).result = .error .interrupted ∧
      (Supervision.execute patience request raisesOn flag child).session.isInterrupted = true := by
  subst up
  -- The flag is looked at before anything is read.
  have stops (session : Supervision.Session) (up : session.flag = true) :
      Supervision.readLoop request raisesOn session = (.interrupted, session.terminate) := by
    rw [Supervision.readLoop]
    exact if_pos (by simp [Supervision.Session.isInterrupted, up])
  rw [Supervision.execute, stops _ rfl]
  exact ⟨rfl, rfl⟩

/-- A station whose decider is a prompt that looks at the flag. -/
theorem heeds_station (raisesOn : Nat → Bool) :
    (Host.Station.workbench raisesOn).Heeds (fun station => station.desk.IsPrompting)
      (fun station => station.desk.flag) where
  execute request station prompting := by
    have decider : ((Host.Station.workbench raisesOn).execute request station).2.desk.decider =
        station.desk.decider := by
      simp only [Host.Station.workbench, Host.Station.run]
      split <;> rfl
    obtain ⟨prompt, same, interruptible⟩ := prompting
    exact ⟨prompt, decider.trans same, interruptible⟩
  decide attempt maxAttempts station prompting := prompting.decide raisesOn attempt maxAttempts
  stays request station up := by
    simp only [Host.Station.workbench, Host.Station.run]
    split
    · exact up
    · exact (execute_of_flag _ _ _ _ up).2
  fails request station up := by
    simp only [Host.Station.workbench, Host.Station.run]
    split
    · exact ⟨_, rfl⟩
    · exact ⟨_, (execute_of_flag _ _ _ _ up).1⟩
  answers attempt maxAttempts station prompting :=
    prompting.answer raisesOn attempt maxAttempts

end BoardBench.Sweep
