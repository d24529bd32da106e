import BoardBench.Proofs.Sweep.Confinement
import Mathlib.Logic.Function.Basic

/-!
# Isolation of pairs

Main result: if commands behave alike in two sweeps but for the directory of one pair, then both
report the same on all other pairs, with the same rows in the same order. Whatever becomes of the
one pair, nothing about the pairs before it and after it changes.

Proof strategy: neither sweep is interrupted, so both reports are those of the runs of all pairs.
Each run but the one depends on the directory of its pair only.
-/
namespace BoardBench.Sweep

open Supervision (Request Outcome)

variable {σ τ : Type}

/-! ### Sweeps that agree -/

/-- When its turn comes, each pair with another directory finds that commands behave alike there in
both sweeps. -/
def Settings.AgreeBut (settings : Settings) (pairs : List Pair) (directory : String)
    (left : Workbench σ) (world : σ) (right : Workbench τ) (other : τ) : Prop :=
  ∀ index pair, pairs[index]? = some pair → settings.target.directory pair.2 ≠ directory →
    AgreeIn (settings.target.directory pair.2)
      left (settings.worldAfter left (pairs.take index) world)
      right (settings.worldAfter right (pairs.take index) other)

section Apart

variable {left : Workbench σ} {right : Workbench τ} (leftAlways : left.AlwaysRetries)
  (rightAlways : right.AlwaysRetries) (leftApart : left.KeepsApart) (rightApart : right.KeepsApart)
include leftAlways rightAlways leftApart rightApart

theorem agreeIn_worldAfter (settings : Settings) {directory : String} (pairs : List Pair)
    {world : σ} {other : τ}
    (agree : ∀ place, place ≠ directory → AgreeIn place left world right other) :
    ∀ place, place ≠ directory →
      AgreeIn place left (settings.worldAfter left pairs world) right
        (settings.worldAfter right pairs other) := by
  induction pairs generalizing world other with
  | nil => exact agree
  | cons pair rest ih =>
    apply ih
    intro place differs
    by_cases own : place = settings.target.directory pair.2
    · subst own
      exact (runIn_of_agreeIn leftAlways rightAlways settings pair (agree _ differs)).2
    -- The pair leaves the place as it was, in both sweeps.
    · have before := agreeIn_runIn leftAlways leftApart settings pair world own
      have after := agreeIn_runIn rightAlways rightApart settings pair other own
      exact before.trans ((agree place differs).trans after.symm)

/-- Where commands leave other directories alone, it is enough that they behave alike at first. -/
theorem agreeBut_of_keepsApart (settings : Settings) (pairs : List Pair) {directory : String}
    {world : σ} {other : τ}
    (agree : ∀ place, place ≠ directory → AgreeIn place left world right other) :
    settings.AgreeBut pairs directory left world right other := by
  intro index pair _ differs
  exact agreeIn_worldAfter leftAlways rightAlways leftApart rightApart settings (pairs.take index)
    agree _ differs

end Apart

/-! ### Reports that differ in one place -/

/-- Lists of one length that agree except at one index. -/
theorem exists_split_of_agree {α : Type} {one other : List α} {index : Nat}
    (within : index < one.length) (lengths : one.length = other.length)
    (same : ∀ place, place ≠ index → one[place]? = other[place]?) :
    ∃ before first second after, before.length = index ∧
      one = before ++ first :: after ∧ other = before ++ second :: after := by
  have front : one.take index = other.take index := by
    apply List.ext_getElem?
    intro place
    rw [List.getElem?_take, List.getElem?_take]
    split
    next early => exact same place (Nat.ne_of_lt early)
    next => rfl
  have back : one.drop (index + 1) = other.drop (index + 1) := by
    apply List.ext_getElem?
    intro place
    rw [List.getElem?_drop, List.getElem?_drop]
    exact same _ (by omega)
  refine ⟨one.take index, one[index], other[index], one.drop (index + 1), ?_, ?_, ?_⟩
  · rw [List.length_take, Nat.min_eq_left (Nat.le_of_lt within)]
  · rw [← List.drop_eq_getElem_cons within, List.take_append_drop]
  · rw [front, back, ← List.drop_eq_getElem_cons (lengths ▸ within), List.take_append_drop]

theorem pairs_reportOn_getElem? {pairs : List Pair} {runs others : List PairRun} {index : Nat}
    (same : runs[index]? = others[index]?) :
    (reportOn pairs runs).pairs[index]? = (reportOn pairs others).pairs[index]? := by
  simp only [reportOn, List.getElem?_map, List.zip, List.getElem?_zipWith, same]

/-- A sweep without interrupts is done with all of its pairs. -/
theorem hasDone_sweep {settings : Settings} {workbench : Workbench σ} {config : Config} {world : σ}
    (quiet : ∀ index, ¬settings.IsInterruptedAt workbench (settings.pairs config) world index) :
    (settings.sweep workbench config world).HasDone settings workbench world
      (settings.pairs config) := by
  cases hasWalked_sweep settings workbench config world with
  | through hasDone => exact hasDone
  | stopped done pair rest runs now split covered failed report =>
    have struck := covered.isInterruptedAt failed rest
    rw [← split] at struck
    exact absurd struck (quiet done.length)

/-! ### The sweeps -/

/-- Two sweeps of a configuration whose pairs have directories of their own. If commands behave
alike except in the directory of one pair, and no execution is interrupted, then the reports are
those of the same runs but for that of the one pair. -/
theorem sweep_isolates (settings : Settings) {left : Workbench σ} {right : Workbench τ}
    (leftAlways : left.AlwaysRetries) (rightAlways : right.AlwaysRetries) (config : Config)
    {world : σ} {other : τ}
    (distinct : ((settings.pairs config).map fun pair =>
      settings.target.directory pair.2).Nodup)
    {index : Nat} {pair : Pair} (among : (settings.pairs config)[index]? = some pair)
    (agree : settings.AgreeBut (settings.pairs config) (settings.target.directory pair.2)
      left world right other)
    (leftQuiet : ∀ place, ¬settings.IsInterruptedAt left (settings.pairs config) world place)
    (rightQuiet : ∀ place, ¬settings.IsInterruptedAt right (settings.pairs config) other place) :
    let pairs := settings.pairs config
    let one := (settings.sweep left config world).report
    let two := (settings.sweep right config other).report
    (one.pairs.map PairReport.labels = pairs.map Pair.labels ∧
      two.pairs.map PairReport.labels = pairs.map Pair.labels) ∧
    (∀ place, place ≠ index → one.pairs[place]? = two.pairs[place]?) ∧
    ∃ before run run' after, before.length = index ∧
      one = reportOn pairs (before ++ run :: after) ∧
      two = reportOn pairs (before ++ run' :: after) ∧
      one.results.records =
        before.flatMap PairRun.rows ++ run.rows ++ after.flatMap PairRun.rows ∧
      two.results.records =
        before.flatMap PairRun.rows ++ run'.rows ++ after.flatMap PairRun.rows := by
  intro pairs one two
  obtain ⟨runs, covered, written⟩ := hasDone_sweep leftQuiet
  obtain ⟨runs', covered', written'⟩ := hasDone_sweep rightQuiet
  have first : one = reportOn pairs runs := written
  have second : two = reportOn pairs runs' := written'
  have lengths : pairs.length = runs.length := covered.length_eq
  have lengths' : pairs.length = runs'.length := covered'.length_eq
  -- The runs are the same ones, except that of the pair.
  have same : ∀ place, place ≠ index → runs[place]? = runs'[place]? := by
    intro place differs
    by_cases within : place < pairs.length
    · have found := List.getElem?_eq_getElem (lengths ▸ within)
      have found' := List.getElem?_eq_getElem (lengths' ▸ within)
      obtain ⟨next, there, ended⟩ := covered.run_eq found
      obtain ⟨next', there', ended'⟩ := covered'.run_eq found'
      rw [there, Option.some.injEq] at there'
      subst there'
      have elsewhere : settings.target.directory next.2 ≠ settings.target.directory pair.2 := by
        intro shared
        have twice : (pairs.map fun pair => settings.target.directory pair.2)[place]? =
            (pairs.map fun pair => settings.target.directory pair.2)[index]? := by
          rw [List.getElem?_map, List.getElem?_map, there, among, Option.map_some,
            Option.map_some, shared]
        exact differs ((List.getElem?_inj (by rwa [List.length_map]) distinct).mp twice)
      have alike := (runIn_of_agreeIn leftAlways rightAlways settings next
        (agree place next there elsewhere)).1
      rw [ended, ended', Except.ok.injEq] at alike
      rw [found, found', alike]
    · rw [List.getElem?_eq_none (by omega), List.getElem?_eq_none (by omega)]
  have within : index < runs.length := lengths ▸ (List.getElem?_eq_some_iff.mp among).1
  obtain ⟨before, run, run', after, counted, split, split'⟩ :=
    exists_split_of_agree within (lengths.symm.trans lengths') same
  refine ⟨⟨?_, ?_⟩, ?_, before, run, run', after, counted, ?_, ?_, ?_, ?_⟩
  · rw [first]
    exact labels_reportOn lengths
  · rw [second]
    exact labels_reportOn lengths'
  · intro place differs
    rw [first, second]
    exact pairs_reportOn_getElem? (same place differs)
  · rw [first, split]
  · rw [second, split']
  · rw [first, split]
    simp [reportOn]
  · rw [second, split']
    simp [reportOn]

/-! ### Shelves -/

section Shelves

variable {α : Type}

/-- A workbench with a state for each directory: what a command does depends on the state of its
directory, and changes that one only. -/
def Workbench.shelved (isThere : String → α → Bool) (run : Request → α → Execution × α) :
    Workbench (String → α) where
  isDirectory path shelves := isThere path (shelves path)
  execute request shelves :=
    let (execution, next) := run request (shelves request.cwd)
    (execution, Function.update shelves request.cwd next)
  decide _ _ shelves := ({ answer := true }, shelves)

variable {isThere : String → α → Bool} {run run' : Request → α → Execution × α}

theorem alwaysRetries_shelved : (Workbench.shelved isThere run).AlwaysRetries :=
  fun _ _ _ => rfl

theorem agreeIn_shelved {directory : String} {shelves shelves' : String → α}
    (same : ∀ request state, request.cwd = directory → run request state = run' request state)
    (equal : shelves directory = shelves' directory) :
    AgreeIn directory (Workbench.shelved isThere run) shelves (Workbench.shelved isThere run')
      shelves' := by
  have after (requests : List Request) (within : AllIn directory requests) :
      (Workbench.shelved isThere run).after requests shelves directory =
        (Workbench.shelved isThere run').after requests shelves' directory := by
    induction requests generalizing shelves shelves' with
    | nil => exact equal
    | cons request rest ih =>
      obtain ⟨inside, within⟩ := List.forall_mem_cons.mp within
      apply ih _ within
      simp only [Workbench.shelved]
      rw [inside, equal, same request _ inside, Function.update_self, Function.update_self]
  constructor
  · intro requests within
    exact congrArg (isThere directory) (after requests within)
  · intro requests request within inside
    simp only [Workbench.shelved] at after ⊢
    rw [inside, after requests within, same request _ inside]

theorem keepsApart_shelved : (Workbench.shelved isThere run).KeepsApart := by
  intro request shelves directory differs
  apply agreeIn_shelved (fun _ _ _ => rfl)
  exact Function.update_of_ne differs _ _

end Shelves

/-- Every command exits with a code and shows a row. -/
def exiting (code : Int) : Execution where
  seen := []
  result := .ok { exit := .ended (.code code), transcript := [], rows := [Telemetry.Row.empty] }
  unconfigured := by simp

/-- In one directory every command exits with the code, in all others with code zero. -/
def exitingIn (directory : String) (code : Int) : Workbench (String → Unit) :=
  .shelved (fun _ _ => true) fun request state =>
    (exiting (if request.cwd = directory then code else 0), state)

theorem wasm_isolated :
    let report (code : Int) :=
      (counterSettings.sweep (exitingIn "/wasm" code) counterConfig fun _ => ()).report
    (report 0).pairs[0]? ≠ (report 2).pairs[0]? ∧ (report 0).pairs[1]? = (report 2).pairs[1]? := by
  have quiet (code : Int)
      (ended : (counterSettings.sweep (exitingIn "/wasm" code) counterConfig
        fun _ => ()).report.interrupted = false) (place : Nat) :
      ¬counterSettings.IsInterruptedAt (exitingIn "/wasm" code)
        (counterSettings.pairs counterConfig) (fun _ => ()) place := by
    obtain ⟨runs, covered, -⟩ := (hasWalked_sweep _ _ _ _).hasDone ended
    exact covered.never_interrupted place
  have always (code : Int) : (exitingIn "/wasm" code).AlwaysRetries := alwaysRetries_shelved
  have among : (counterSettings.pairs counterConfig)[0]? =
      some (counterConfig.benchmarks[0], { name := "wasm" }) := rfl
  have agree : counterSettings.AgreeBut (counterSettings.pairs counterConfig) "/wasm"
      (exitingIn "/wasm" 0) (fun _ => ()) (exitingIn "/wasm" 2) (fun _ => ()) := by
    apply agreeBut_of_keepsApart (always 0) (always 2) keepsApart_shelved keepsApart_shelved
    intro place differs
    apply agreeIn_shelved _ rfl
    intro request state inside
    rw [if_neg (inside ▸ differs), if_neg (inside ▸ differs)]
  have directory : "/wasm" = counterSettings.target.directory { name := "wasm" } := by
    decide +kernel
  have isolated := sweep_isolates counterSettings (always 0) (always 2) counterConfig
    (by decide +kernel) among (directory ▸ agree) (quiet 0 (by decide +kernel))
    (quiet 2 (by decide +kernel))
  refine ⟨by decide +kernel, ?_⟩
  exact isolated.2.1 1 (by decide)

end BoardBench.Sweep
