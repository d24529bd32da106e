import BoardBench.Proofs.Retry.Course
import BoardBench.Proofs.Retry.Prompt

/-!
# Shutting down between attempts

Main result: when the flag is raised during an attempt or during a read of a prompt that looks at
it, nothing comes after: no attempt is made and no line is read, whatever the read returned. What is
returned is what the last attempt says.

The world of this module is a scene: the prompt, and the attempts and reads so far in order. A trial
fixes what each attempt yields and during which of these events the flag is raised. The invariant is
that no event of a scene but its last one raises the flag, so the loop only goes on from scenes in
which none does.
-/
namespace BoardBench.Retry

open Supervision (Outcome)

/-! ### How far a prompt reads -/

/-- The input after so many lines. -/
def unread : Nat → Bytes → Bytes
  | 0, input => input
  | count + 1, input => unread count (readRaw input).2

theorem unread_add (first second : Nat) (input : Bytes) :
    unread (first + second) input = unread second (unread first input) := by
  induction first generalizing input with
  | zero => rw [Nat.zero_add, unread]
  | succ first ih => rw [Nat.succ_add, unread, unread, ih]

namespace Prompt

variable {raisesOn : Nat → Bool} {attempt maxAttempts : UInt32} {written : String} {prompt : Prompt}

/-- One prompt is the other after one read or more, of which at most the last one raises the
flag. -/
structure ReadsTo (raisesOn : Nat → Bool) (prompt after : Prompt) : Prop where
  later : prompt.reads < after.reads
  input : after.input = unread (after.reads - prompt.reads) prompt.input
  quiet : ∀ number, prompt.reads < number → number < after.reads → raisesOn number = false
  raised : after.raised = raisesOn after.reads

/-- One read from a prompt whose flag is down. -/
theorem readsTo_reading {input : Bytes} (lowered : prompt.raised = false)
    (left : (readRaw prompt.input).2 = input) :
    prompt.ReadsTo raisesOn { prompt.reading raisesOn with input } where
  later := Nat.lt_succ_self _
  input := by
    have once : prompt.reads + 1 - prompt.reads = 1 := Nat.add_sub_cancel_left _ _
    rw [← left]
    change _ = unread (prompt.reads + 1 - prompt.reads) prompt.input
    rw [once, unread, unread]
  quiet := by
    intro number later earlier
    exact absurd earlier (Nat.not_lt.mpr later)
  raised := by simp [reading, lowered]

/-- One read that does not raise the flag, and those after it. -/
theorem ReadsTo.again {input : Bytes} {after : Prompt} (left : (readRaw prompt.input).2 = input)
    (calm : raisesOn (prompt.reads + 1) = false)
    (reads : ReadsTo raisesOn { prompt.reading raisesOn with input } after) :
    prompt.ReadsTo raisesOn after where
  later := Nat.lt_of_succ_lt reads.later
  input := by
    have later : prompt.reads + 1 < after.reads := reads.later
    have more : after.reads - prompt.reads = after.reads - (prompt.reads + 1) + 1 := by omega
    rw [reads.input, more, unread, left]
    rfl
  quiet := by
    intro number later earlier
    rcases Nat.eq_or_lt_of_le (Nat.succ_le_of_lt later) with first | further
    · rw [← first]
      exact calm
    · exact reads.quiet number further earlier
  raised := reads.raised

variable (interruptible : prompt.interruptible = true)
include interruptible

theorem isInterrupted_eq_raised : prompt.isInterrupted = prompt.raised := by
  rw [isInterrupted, interruptible, Bool.true_and]

theorem ask_of_raised (raised : prompt.raised = true) :
    prompt.ask raisesOn attempt maxAttempts written = { answer := false, written, prompt } := by
  rw [ask, if_pos]
  rwa [isInterrupted_eq_raised interruptible]

/-- A call at a prompt whose flag is down reads until the flag is raised, at most. -/
theorem readsTo_ask (lowered : prompt.raised = false) :
    prompt.ReadsTo raisesOn (prompt.ask raisesOn attempt maxAttempts written).prompt := by
  -- Whatever is answered, the call ends right behind a read, or goes on with the flag down.
  fun_induction Prompt.ask raisesOn attempt maxAttempts written prompt with
  | case1 written prompt interrupted =>
    rw [isInterrupted_eq_raised interruptible, lowered] at interrupted
    cases interrupted
  | case2 written prompt early asking after ended interrupted =>
    exact readsTo_reading lowered (by rw [ended, readRaw])
  | case3 written prompt early asking after ended quiet =>
    exact readsTo_reading lowered (by rw [ended, readRaw])
  | case4 written prompt early asking after byte rest input line next interrupted =>
    exact readsTo_reading lowered (by rw [input])
  | case5 written prompt early asking after byte rest input line next quiet yes =>
    exact readsTo_reading lowered (by rw [input])
  | case6 written prompt early asking after byte rest input line next quiet no =>
    exact readsTo_reading lowered (by rw [input])
  | case7 written prompt early asking after byte rest input line next quiet unclear ih =>
    -- The question is only put again when this read has not raised the flag.
    have calm : raisesOn (prompt.reads + 1) = false := by
      change ¬(prompt.interruptible && (prompt.raised || raisesOn (prompt.reads + 1))) = true
        at quiet
      simpa [interruptible, lowered] using quiet
    have still : (prompt.raised || raisesOn (prompt.reads + 1)) = false := by
      rw [lowered, calm, Bool.false_or]
    exact .again (by rw [input]) calm (ih interruptible still)

end Prompt

/-! ### Scenes -/

/-- What takes so long that the flag may be raised during it. -/
inductive Event where
  | attempt (number : UInt32)
  | read (number : Nat)
  deriving DecidableEq

/-- The numbers of the attempts among events. -/
def attemptsIn (events : List Event) : List UInt32 :=
  events.filterMap fun event =>
    match event with
    | .attempt number => some number
    | .read _ => none

/-- The numbers of the reads among events. -/
def readsIn (events : List Event) : List Nat :=
  events.filterMap fun event =>
    match event with
    | .attempt _ => none
    | .read number => some number

/-- The reads of a prompt after so many, up to a number. -/
def readsUpTo (first last : Nat) : List Event :=
  (List.range' (first + 1) (last - first)).map .read

structure Scene where
  prompt : Prompt
  events : List Event := []

/-- What each attempt yields, and what the flag is raised during. -/
structure Trial where
  outcome : UInt32 → Outcome
  raises : Event → Bool

namespace Trial

/-- The scene after an attempt. -/
def attempt (trial : Trial) (number : UInt32) (scene : Scene) : Scene where
  prompt := { scene.prompt with raised := scene.prompt.raised || trial.raises (.attempt number) }
  events := scene.events ++ [.attempt number]

/-- The answer to a question, and the scene after it. -/
def ask (trial : Trial) (attempt maxAttempts : UInt32) (scene : Scene) : Bool × Scene :=
  let asked := scene.prompt.ask (fun number => trial.raises (.read number)) attempt maxAttempts ""
  (asked.answer,
    { prompt := asked.prompt
      events := scene.events ++ readsUpTo scene.prompt.reads asked.prompt.reads })

def actions (trial : Trial) : Actions Scene where
  attempt number scene := (.ok (trial.outcome number), trial.attempt number scene)
  decide := trial.ask

/-- What is returned when an attempt is the last one. -/
def ending (trial : Trial) (maxAttempts last : UInt32) : Result :=
  if (trial.outcome last).hasTelemetry then .success (trial.outcome last).rows last
  else .gaveUp (if last = maxAttempts then .exhausted else .declined) last (trial.outcome last)

end Trial

/-- The invariant: the attempts of the scene are those up to a number, the input has been read as
often as there are reads, and no event but the last one raises the flag. -/
structure Scene.Unfolds (trial : Trial) (input : Bytes) (made : UInt32) (scene : Scene) : Prop where
  interruptible : scene.prompt.interruptible = true
  attempts : attemptsIn scene.events = numbers made
  input : scene.prompt.input = unread (readsIn scene.events).length input
  quiet : ∀ event ∈ scene.events.dropLast, trial.raises event = false
  raised : scene.prompt.raised = scene.events.any trial.raises

theorem attemptsIn_append (first second : List Event) :
    attemptsIn (first ++ second) = attemptsIn first ++ attemptsIn second :=
  List.filterMap_append

theorem readsIn_append (first second : List Event) :
    readsIn (first ++ second) = readsIn first ++ readsIn second :=
  List.filterMap_append

theorem readsUpTo_self (number : Nat) : readsUpTo number number = [] := by
  rw [readsUpTo, Nat.sub_self, List.range'_zero, List.map_nil]

theorem readsUpTo_concat {first last : Nat} (later : first < last) :
    readsUpTo first last = readsUpTo first (last - 1) ++ [.read last] := by
  have count : last - first = last - 1 - first + 1 := by omega
  have final : first + 1 + (last - 1 - first) = last := by omega
  rw [readsUpTo, readsUpTo, count, List.range'_1_concat, final, List.map_append, List.map_singleton]

theorem mem_readsUpTo {first last : Nat} {event : Event} (member : event ∈ readsUpTo first last) :
    ∃ number, event = .read number ∧ first < number ∧ number ≤ last := by
  obtain ⟨number, bounds, rfl⟩ := List.mem_map.mp member
  rw [List.mem_range'_1] at bounds
  exact ⟨number, rfl, by omega, by omega⟩

theorem attemptsIn_readsUpTo (first last : Nat) : attemptsIn (readsUpTo first last) = [] := by
  simp [attemptsIn, readsUpTo]

theorem readsIn_readsUpTo (first last : Nat) :
    readsIn (readsUpTo first last) = List.range' (first + 1) (last - first) := by
  rw [readsIn, readsUpTo, List.filterMap_map]
  exact List.filterMap_some

namespace Scene.Unfolds

variable {trial : Trial} {input : Bytes} {made maxAttempts : UInt32} {scene : Scene}

theorem start (trial : Trial) {prompt : Prompt} (interruptible : prompt.interruptible = true)
    (lowered : prompt.raised = false) :
    Unfolds trial prompt.input 0 { prompt } where
  interruptible := interruptible
  attempts := rfl
  input := rfl
  quiet := by simp
  raised := by simp [lowered]

variable (unfolds : Unfolds trial input made scene)
include unfolds

/-- What raises the flag is the last event. -/
theorem eq_nil_of_raises {before after : List Event} {event : Event}
    (events : scene.events = before ++ event :: after) (raises : trial.raises event = true) :
    after = [] := by
  cases after with
  | nil => rfl
  | cons next more =>
    have earlier : event ∈ scene.events.dropLast := by
      rw [events, List.dropLast_append_of_ne_nil (List.cons_ne_nil _ _), List.dropLast_cons_cons]
      exact List.mem_append_right _ List.mem_cons_self
    rw [unfolds.quiet event earlier] at raises
    cases raises

section Calm

variable (lowered : scene.prompt.raised = false)
include lowered

theorem forall_quiet : ∀ event ∈ scene.events, trial.raises event = false := by
  rw [unfolds.raised, List.any_eq_false] at lowered
  intro event member
  exact Bool.eq_false_iff.mpr (lowered event member)

/-- An attempt is only made in a scene in which the flag is down. -/
theorem attempt (below : made < maxAttempts) :
    Unfolds trial input (made + 1) (trial.attempt (made + 1) scene) where
  interruptible := unfolds.interruptible
  attempts := by
    rw [numbers_next below, ← unfolds.attempts]
    exact attemptsIn_append _ _
  input := by
    rw [Trial.attempt, readsIn_append, List.length_append]
    exact unfolds.input
  quiet := by
    rw [Trial.attempt, List.dropLast_concat]
    exact unfolds.forall_quiet lowered
  raised := by
    rw [Trial.attempt, unfolds.raised, List.any_append, List.any_cons, List.any_nil, Bool.or_false]

/-- The reads for a question that is put when the flag is down. -/
theorem reads {after : Prompt} (interruptible : after.interruptible = true)
    (reads : scene.prompt.ReadsTo (fun number => trial.raises (.read number)) after) :
    Unfolds trial input made
      { prompt := after, events := scene.events ++ readsUpTo scene.prompt.reads after.reads } := by
  have calm : ∀ event ∈ scene.events ++ readsUpTo scene.prompt.reads (after.reads - 1),
      trial.raises event = false := by
    intro event member
    rcases List.mem_append.mp member with before | read
    · exact unfolds.forall_quiet lowered event before
    · obtain ⟨number, rfl, later, earlier⟩ := mem_readsUpTo read
      exact reads.quiet number later (by omega)
  constructor
  · exact interruptible
  · rw [attemptsIn_append, attemptsIn_readsUpTo, List.append_nil]
    exact unfolds.attempts
  · rw [readsIn_append, List.length_append, readsIn_readsUpTo, List.length_range', unread_add,
      ← unfolds.input]
    exact reads.input
  · rw [readsUpTo_concat reads.later, ← List.append_assoc, List.dropLast_concat]
    exact calm
  · have none : (scene.events ++ readsUpTo scene.prompt.reads (after.reads - 1)).any trial.raises =
        false :=
      List.any_eq_false.mpr fun event member => Bool.eq_false_iff.mp (calm event member)
    rw [readsUpTo_concat reads.later, ← List.append_assoc, List.any_append, none, Bool.false_or,
      List.any_cons, List.any_nil, Bool.or_false]
    exact reads.raised

end Calm

/-- A question: when the flag is up already, nothing is read. -/
theorem ask (maxAttempts : UInt32) :
    Unfolds trial input made (trial.ask made maxAttempts scene).2 := by
  by_cases raised : scene.prompt.raised = true
  · -- The attempt before has raised the flag, so no line is read.
    rw [Trial.ask, Prompt.ask_of_raised unfolds.interruptible raised, readsUpTo_self,
      List.append_nil]
    exact unfolds
  · rw [Bool.not_eq_true] at raised
    refine unfolds.reads raised ?_ ?_
    · exact Prompt.interruptible_ask.trans unfolds.interruptible
    · exact Prompt.readsTo_ask unfolds.interruptible raised

/-- A yes is only given while the flag is down. -/
theorem lowered_of_ask (yes : (trial.ask made maxAttempts scene).1 = true) :
    (trial.ask made maxAttempts scene).2.prompt.raised = false := by
  cases raised : (trial.ask made maxAttempts scene).2.prompt.raised with
  | false => rfl
  | true =>
    have looks := (unfolds.ask maxAttempts).interruptible
    have no := Prompt.answer_of_isInterrupted (Bool.and_eq_true_iff.mpr ⟨looks, raised⟩)
    exact absurd yes (Bool.eq_false_iff.mp no)

end Scene.Unfolds

/-! ### The loop -/

variable {trial : Trial} {input : Bytes} {made maxAttempts : UInt32}

/-- The loop only goes on from a scene in which the flag is down. -/
theorem keeps_unfolds (trial : Trial) (input : Bytes) (maxAttempts : UInt32) :
    trial.actions.Keeps maxAttempts fun made scene =>
      scene.Unfolds trial input made ∧ scene.prompt.raised = false := by
  rintro made scene outcome after next below more ⟨unfolds, lowered⟩ attempted empty asked
  obtain ⟨-, rfl⟩ := Prod.mk.inj attempted
  have attempted := unfolds.attempt lowered below
  have asked : trial.ask (made + 1) maxAttempts (trial.attempt (made + 1) scene) = (true, next) :=
    asked
  have still := attempted.ask maxAttempts
  have calm := attempted.lowered_of_ask (congrArg Prod.fst asked)
  rw [asked] at still calm
  exact ⟨still, calm⟩

/-- However an attempt ends the loop, the scene has unfolded up to this attempt, which settles what
is returned. -/
theorem unfolds_of_leaves {scene : Scene} {ran : Except Fault Result × Scene}
    (unfolds : scene.Unfolds trial input made) (lowered : scene.prompt.raised = false)
    (below : made < maxAttempts) (leaves : Leaves trial.actions maxAttempts made scene ran) :
    ran.2.Unfolds trial input (made + 1) ∧ ran.1 = .ok (trial.ending maxAttempts (made + 1)) := by
  -- Only a question after the attempt may still add reads.
  have last := unfolds.attempt lowered below
  cases leaves with
  | fault attempted => cases attempted
  | success attempted telemetry =>
    cases attempted
    refine ⟨last, ?_⟩
    rw [Trial.ending, if_pos telemetry]
  | exhausted attempted empty final =>
    cases attempted
    refine ⟨last, ?_⟩
    rw [Trial.ending, empty, if_neg Bool.false_ne_true, if_pos final]
  | declined attempted empty more asked =>
    cases attempted
    constructor
    · have after := last.ask maxAttempts
      rwa [show trial.ask (made + 1) maxAttempts _ = _ from asked] at after
    · rw [Trial.ending, empty, if_neg Bool.false_ne_true, if_neg (UInt32.ne_of_lt more)]

/-- When the flag is raised during an attempt or a read, nothing happens after it, and the last
attempt made until then settles what is returned. -/
theorem raise_ends_run (trial : Trial) (policy : Policy) (prompt : Prompt)
    (interruptible : prompt.interruptible = true) (lowered : prompt.raised = false)
    (before after : List Event) (event : Event)
    (events : (run trial.actions policy { prompt }).2.events = before ++ event :: after)
    (raises : trial.raises event = true) :
    after = [] ∧ ∃ last, 1 ≤ last ∧ last ≤ policy.maxAttempts ∧
      attemptsIn (before ++ [event]) = numbers last ∧
      (run trial.actions policy { prompt }).1 = .ok (trial.ending policy.maxAttempts last) ∧
      (run trial.actions policy { prompt }).2.prompt.input =
        unread (readsIn (before ++ [event])).length prompt.input := by
  obtain ⟨made, scene, below, ⟨unfolds, calm⟩, leaves⟩ :=
    run_leaves (keeps_unfolds trial prompt.input policy.maxAttempts)
      ⟨Scene.Unfolds.start trial interruptible lowered, lowered⟩
  obtain ⟨unfolds, result⟩ := unfolds_of_leaves unfolds calm below leaves
  obtain rfl := unfolds.eq_nil_of_raises events raises
  have next := toNat_next below
  rw [UInt32.lt_iff_toNat_lt] at below
  refine ⟨rfl, made + 1, ?_, ?_, ?_, result, ?_⟩
  · rw [UInt32.le_iff_toNat_le, next]
    exact Nat.le_add_left 1 _
  · rw [UInt32.le_iff_toNat_le, next]
    exact below
  · rw [← events]
    exact unfolds.attempts
  · rw [← events]
    exact unfolds.input

/-- A trial without rows whose flag goes up during the second read. -/
def Trial.late : Trial where
  outcome _ := { exit := .timedOut, transcript := [], rows := [] }
  raises event := event = .read 2

/-- The second line says yes, but the flag is up. -/
theorem raise_ends_run_late :
    let ran := run Trial.late.actions .standard { prompt := { input := encode "maybe\ny\ny\n" } }
    ran.2.events = [.attempt 1, .read 1, .read 2] ∧ ∃ last, 1 ≤ last ∧ last ≤ 3 ∧
      attemptsIn [.attempt 1, .read 1, .read 2] = numbers last ∧
      ran.1 = .ok (Trial.late.ending 3 last) ∧
      ran.2.prompt.input = unread 2 (encode "maybe\ny\ny\n") := by
  intro ran
  have events : ran.2.events = [.attempt 1, .read 1, .read 2] := by decide +kernel
  exact ⟨events, (raise_ends_run .late .standard { input := encode "maybe\ny\ny\n" } rfl rfl
    [.attempt 1, .read 1] [] (.read 2) events rfl).2⟩

end BoardBench.Retry
