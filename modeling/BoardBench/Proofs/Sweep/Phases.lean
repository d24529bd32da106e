import BoardBench.Proofs.Sweep.Events

/-!
# The phases of a pair

What is to happen for a pair, and what is to become of it, as a relation between its events and its
status that knows nothing of worlds and loops. A skipped pair has no events. Any other one is built,
then flashed unless the board is native, then run, each command only after the one before it has
exited with code zero. The run command is repeated as long as there are no rows, the policy has
attempts left and the answer is yes.

Main results: the events determine the status, and the commands among them are the first ones of a
fixed plan.
-/
namespace BoardBench.Sweep

open Supervision (Request Outcome)

/-! ### What is to happen -/

/-- Attempts that are repeated. -/
def repeated (request : Request) (outcomes : List Outcome) : List Event :=
  outcomes.flatMap fun outcome => [.ran request (.ok outcome), .answered true]

/-- How the attempt of a number ends the run phase. -/
inductive Settles (request : Request) (maxAttempts number : UInt32) : List Event → PairStatus → Prop
  | fault {fault : Fault} : fault.isFatal = false →
    Settles request maxAttempts number [.ran request (.error fault)]
      (.failed (.spawn fault.message))
  | rows {outcome : Outcome} : outcome.rows ≠ [] →
    Settles request maxAttempts number [.ran request (.ok outcome)]
      (.collected outcome.rows.length number)
  | exhausted {outcome : Outcome} : outcome.rows = [] → number = maxAttempts →
    Settles request maxAttempts number [.ran request (.ok outcome)]
      (.failed (.noTelemetry number))
  | declined {outcome : Outcome} : outcome.rows = [] → number < maxAttempts →
    Settles request maxAttempts number [.ran request (.ok outcome), .answered false]
      (.failed (.declined number))

/-- The run phase: attempts without rows that are repeated, and one that is not. -/
inductive Collects (request : Request) (maxAttempts : UInt32) : List Event → PairStatus → Prop
  | after (outcomes : List Outcome) {number : UInt32} {events : List Event} {status : PairStatus} :
    (∀ outcome ∈ outcomes, outcome.rows = []) → number.toNat = outcomes.length + 1 →
    number ≤ maxAttempts → Settles request maxAttempts number events status →
    Collects request maxAttempts (repeated request outcomes ++ events) status

/-- A phase that comes before another one: its command must exit with code zero. -/
inductive Prepares (request : Request) (failure : Option Int → Failure)
    (next : List Event → PairStatus → Prop) : List Event → PairStatus → Prop
  | fault {fault : Fault} : fault.isFatal = false →
    Prepares request failure next [.ran request (.error fault)] (.failed (.spawn fault.message))
  | failed {outcome : Outcome} : outcome.exit ≠ .ended (.code 0) →
    Prepares request failure next [.ran request (.ok outcome)]
      (.failed (failure outcome.exit.code?))
  | passed {outcome : Outcome} {events : List Event} {status : PairStatus} :
    outcome.exit = .ended (.code 0) → next events status →
    Prepares request failure next (.ran request (.ok outcome) :: events) status

namespace Settings

variable (settings : Settings) (pair : Pair)

def buildRequest : Request :=
  settings.request pair.1 pair.2 settings.commands.build

def flashRequest : Request :=
  settings.request pair.1 pair.2 settings.commands.flash

/-- The run phase of a pair. -/
def Runs : List Event → PairStatus → Prop :=
  Collects (settings.runRequest pair.1 pair.2) settings.policy.maxAttempts

/-- The flash phase of a pair, which a native board does not have, and the run phase. -/
def Flashes : List Event → PairStatus → Prop :=
  if settings.target.isNative then settings.Runs pair
  else Prepares (settings.flashRequest pair) .flash (settings.Runs pair)

/-- All phases of a pair. -/
def Builds : List Event → PairStatus → Prop :=
  Prepares (settings.buildRequest pair) .build (settings.Flashes pair)

/-- The events of a pair and its status, given whether its directory is there. -/
inductive Conducts (isThere : Bool) : List Event → PairStatus → Prop
  | disabled : pair.2.disabled = true → Conducts isThere [] (.skipped .disabled)
  | missing : pair.2.disabled = false → isThere = false →
    Conducts isThere [] (.skipped (.missingDirectory (settings.target.directory pair.2)))
  | phased {events : List Event} {status : PairStatus} : pair.2.disabled = false →
    isThere = true → settings.Builds pair events status → Conducts isThere events status

end Settings

/-! ### The events determine the status -/

/-- Of the same events there is one status at most. -/
def Determines (spec : List Event → PairStatus → Prop) : Prop :=
  ∀ ⦃events one other⦄, spec events one → spec events other → one = other

theorem length_repeated (request : Request) (outcomes : List Outcome) :
    (repeated request outcomes).length = 2 * outcomes.length := by
  simp [repeated, List.length_flatMap, List.map_const', Nat.mul_comm]

theorem Settles.length {request : Request} {maxAttempts number : UInt32} {events : List Event}
    {status : PairStatus} (settles : Settles request maxAttempts number events status) :
    events.length = 1 ∨ events.length = 2 := by
  cases settles with
  | fault => exact .inl rfl
  | rows => exact .inl rfl
  | exhausted => exact .inl rfl
  | declined => exact .inr rfl

theorem determines_settles (request : Request) (maxAttempts number : UInt32) :
    Determines (Settles request maxAttempts number) := by
  intro events one other first second
  cases first with
  | fault => cases second with
    | fault => rfl
  | rows some => cases second with
    | rows => rfl
    | exhausted none => exact absurd none some
  | exhausted none => cases second with
    | rows some => exact absurd none some
    | exhausted => rfl
  | declined => cases second with
    | declined => rfl

theorem determines_collects (request : Request) (maxAttempts : UInt32) :
    Determines (Collects request maxAttempts) := by
  intro events one other first second
  cases first with
  | @after outcomes number last _ _ counted _ settles =>
    generalize whole : repeated request outcomes ++ last = events at second
    cases second with
    | @after outcomes' number' last' _ _ counted' _ settles' =>
      -- The last attempt has one event or two, so both sides have as many attempts before it.
      have lengths := congrArg List.length whole
      rw [List.length_append, List.length_append, length_repeated, length_repeated] at lengths
      have short := settles.length
      have short' := settles'.length
      have same : outcomes.length = outcomes'.length := by omega
      have before : (repeated request outcomes).length = (repeated request outcomes').length := by
        rw [length_repeated, length_repeated, same]
      obtain ⟨-, rfl⟩ := List.append_inj whole before
      have numbers : number = number' := UInt32.toNat_inj.mp (by rw [counted, counted', same])
      subst numbers
      exact determines_settles _ _ _ settles settles'

theorem determines_prepares (request : Request) (failure : Option Int → Failure)
    {next : List Event → PairStatus → Prop} (determines : Determines next) :
    Determines (Prepares request failure next) := by
  intro events one other first second
  cases first with
  | fault => cases second with
    | fault => rfl
  | failed unclean => cases second with
    | failed => rfl
    | passed clean => exact absurd clean unclean
  | passed clean rest => cases second with
    | failed unclean => exact absurd clean unclean
    | passed _ rest' => exact determines rest rest'

section Determines

variable (settings : Settings) (pair : Pair)

theorem determines_flashes : Determines (settings.Flashes pair) := by
  have runs : Determines (settings.Runs pair) := determines_collects _ _
  unfold Settings.Flashes
  split
  · exact runs
  · exact determines_prepares _ _ runs

theorem determines_conducts (isThere : Bool) : Determines (settings.Conducts pair isThere) := by
  intro events one other first second
  cases first with
  | disabled off => cases second with
    | disabled => rfl
    | missing on => simp [off] at on
    | phased on => simp [off] at on
  | missing on absent => cases second with
    | disabled off => simp [off] at on
    | missing => rfl
    | phased _ present => simp [present] at absent
  | phased on present builds => cases second with
    | disabled off => simp [off] at on
    | missing _ absent => simp [present] at absent
    | phased _ _ builds' =>
      exact determines_prepares _ _ (determines_flashes settings pair) builds builds'

end Determines

/-! ### The commands of a pair -/

def Event.request? : Event → Option Request
  | .ran request _ => some request
  | .answered _ => none

/-- What was executed, or attempted, in order. -/
def commands (events : List Event) : List Request :=
  events.filterMap Event.request?

theorem commands_repeated (request : Request) (outcomes : List Outcome) :
    commands (repeated request outcomes) = List.replicate outcomes.length request := by
  induction outcomes with
  | nil => rfl
  | cons outcome rest ih =>
    rw [List.length_cons, List.replicate_succ, ← ih]
    rfl

theorem Settles.commands {request : Request} {maxAttempts number : UInt32} {events : List Event}
    {status : PairStatus} (settles : Settles request maxAttempts number events status) :
    Sweep.commands events = [request] := by
  cases settles with
  | fault => rfl
  | rows => rfl
  | exhausted => rfl
  | declined => rfl

/-- The commands that a pair may need. -/
def Settings.plan (settings : Settings) (pair : Pair) : List Request :=
  settings.buildRequest pair ::
    ((if settings.target.isNative then [] else [settings.flashRequest pair]) ++
      List.replicate settings.policy.maxAttempts.toNat (settings.runRequest pair.1 pair.2))

theorem Collects.commands {request : Request} {maxAttempts : UInt32} {events : List Event}
    {status : PairStatus} (collects : Collects request maxAttempts events status) :
    Sweep.commands events <+: List.replicate maxAttempts.toNat request := by
  cases collects with
  | @after outcomes number last _ _ counted within settles =>
    have bound : outcomes.length + 1 ≤ maxAttempts.toNat := counted ▸ within
    have whole : Sweep.commands (repeated request outcomes ++ last) =
        List.replicate (outcomes.length + 1) request := by
      rw [List.replicate_succ', ← commands_repeated, ← settles.commands]
      exact List.filterMap_append
    rw [whole]
    exact List.prefix_replicate_iff.mpr ⟨by simpa using bound, by simp⟩

theorem Prepares.commands {request : Request} {failure : Option Int → Failure}
    {next : List Event → PairStatus → Prop} {plan : List Request}
    (planned : ∀ events status, next events status → Sweep.commands events <+: plan)
    {events : List Event} {status : PairStatus}
    (prepares : Prepares request failure next events status) :
    Sweep.commands events <+: request :: plan := by
  cases prepares with
  | fault => exact List.prefix_append [request] plan
  | failed => exact List.prefix_append [request] plan
  | passed _ rest => exact List.cons_prefix_cons.mpr ⟨rfl, planned _ _ rest⟩

/-- Whatever happens, the commands of a pair are the first ones of its plan. -/
theorem Settings.Conducts.commands {settings : Settings} {pair : Pair} {isThere : Bool}
    {events : List Event} {status : PairStatus}
    (conducts : settings.Conducts pair isThere events status) :
    Sweep.commands events <+: settings.plan pair := by
  cases conducts with
  | disabled => exact List.nil_prefix
  | missing => exact List.nil_prefix
  | phased _ _ builds =>
    refine Prepares.commands ?_ builds
    intro events status flashes
    unfold Settings.Flashes at flashes
    split at flashes
    next native =>
      rw [if_pos native]
      exact Collects.commands flashes
    next foreign =>
      rw [if_neg foreign]
      exact Prepares.commands (fun _ _ => Collects.commands) flashes

/-- The commands of a pair are those of its phases; a native board has no flash phase. -/
theorem mem_plan_iff {settings : Settings} {pair : Pair} {request : Request} :
    request ∈ settings.plan pair ↔
      request = settings.buildRequest pair ∨
        ¬settings.target.isNative ∧ request = settings.flashRequest pair ∨
        request = settings.runRequest pair.1 pair.2 := by
  have attempts : settings.policy.maxAttempts.toNat ≠ 0 :=
    Nat.ne_of_gt (UInt32.lt_iff_toNat_lt.mp settings.policy.positive)
  by_cases native : settings.target.isNative <;> simp [Settings.plan, native, attempts]

/-- All of them are for the directory and with the variables of the pair. -/
theorem mem_plan {settings : Settings} {pair : Pair} {request : Request}
    (planned : request ∈ settings.plan pair) :
    request.cwd = settings.target.directory pair.2 ∧
      request.bindings = settings.target.bindings pair.1 pair.2 := by
  rcases mem_plan_iff.mp planned with rfl | ⟨-, rfl⟩ | rfl
  · exact ⟨rfl, rfl⟩
  · exact ⟨rfl, rfl⟩
  · exact ⟨rfl, rfl⟩

end BoardBench.Sweep
