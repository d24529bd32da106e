import BoardBench.Proofs.Retry.Loop
import Mathlib.Order.Bounds.Defs

/-!
# The course of the retry loop

Main result: what the loop does is settled by the first attempt that faults, has rows, is the last
one allowed, or is followed by a no. The attempts up to it are made in order, each one once. A
question is put after each of them that may be repeated, and what is returned is what this last
attempt says.

The world of this module is a script, which fixes what each attempt yields and what is answered to
each question, and a log of the calls.
-/
namespace BoardBench.Retry

open Supervision (Outcome)

/-- What the attempts yield and what the questions are answered, each counted from one on. -/
structure Script where
  result : Nat → Except Fault Outcome
  answer : Nat → Bool

/-- The numbers that attempts were made with, and the numbers that questions were put with. -/
structure Log where
  called : List UInt32 := []
  asked : List (UInt32 × UInt32) := []

/-- An attempt that ended without a fault and without rows. -/
def isFruitless : Except Fault Outcome → Bool
  | .ok outcome => !outcome.hasTelemetry
  | .error _ => false

/-- The numbers from one on. -/
def numbers (last : UInt32) : List UInt32 :=
  (List.range' 1 last.toNat).map UInt32.ofNat

namespace Script

/-- The actions of a script: whatever number an attempt or a question comes with, the next result or
the next answer is given. -/
def actions (script : Script) : Actions Log where
  attempt number log :=
    (script.result (log.called.length + 1), { log with called := log.called ++ [number] })
  decide attempt maxAttempts log :=
    (script.answer (log.asked.length + 1),
      { log with asked := log.asked ++ [(attempt, maxAttempts)] })

/-- An attempt faults, has rows, is the last one allowed, or is followed by a no. -/
def EndsAt (script : Script) (maxAttempts number : UInt32) : Prop :=
  (∃ fault, script.result number.toNat = .error fault) ∨
    (∃ outcome, script.result number.toNat = .ok outcome ∧ outcome.hasTelemetry = true) ∨
    number = maxAttempts ∨ script.answer number.toNat = false

/-- An attempt that may be repeated: it was fruitless and is not the last one allowed. -/
def mayRepeat (script : Script) (maxAttempts number : UInt32) : Bool :=
  isFruitless (script.result number.toNat) && decide (number < maxAttempts)

/-- What is returned when an attempt is the last one made. -/
def ending (script : Script) (maxAttempts last : UInt32) : Except Fault Result :=
  match script.result last.toNat with
  | .error fault => .error fault
  | .ok outcome =>
    if outcome.hasTelemetry then .ok (.success outcome.rows last)
    else .ok (.gaveUp (if last = maxAttempts then .exhausted else .declined) last outcome)

variable {script : Script} {maxAttempts number : UInt32} {outcome : Outcome} {fault : Fault}

theorem mayRepeat_of_fault (yields : script.result number.toNat = .error fault) :
    script.mayRepeat maxAttempts number = false := by
  simp [mayRepeat, isFruitless, yields]

theorem mayRepeat_last : script.mayRepeat maxAttempts maxAttempts = false := by
  simp [mayRepeat]

theorem ending_of_fault (yields : script.result number.toNat = .error fault) :
    script.ending maxAttempts number = .error fault := by
  simp [ending, yields]

section Ok

variable (yields : script.result number.toNat = .ok outcome)
include yields

theorem mayRepeat_of_success (telemetry : outcome.hasTelemetry = true) :
    script.mayRepeat maxAttempts number = false := by
  simp [mayRepeat, isFruitless, yields, telemetry]

theorem mayRepeat_of_fruitless (empty : outcome.hasTelemetry = false)
    (more : number < maxAttempts) : script.mayRepeat maxAttempts number = true := by
  simp [mayRepeat, isFruitless, yields, empty, more]

theorem ending_of_success (telemetry : outcome.hasTelemetry = true) :
    script.ending maxAttempts number = .ok (.success outcome.rows number) := by
  simp [ending, yields, telemetry]

theorem ending_of_fruitless (empty : outcome.hasTelemetry = false) :
    script.ending maxAttempts number =
      .ok (.gaveUp (if number = maxAttempts then .exhausted else .declined) number outcome) := by
  simp [ending, yields, empty]

end Ok

end Script

/-! ### Numbers -/

theorem length_numbers (last : UInt32) : (numbers last).length = last.toNat := by
  simp [numbers]

theorem numbers_next {made maxAttempts : UInt32} (below : made < maxAttempts) :
    numbers (made + 1) = numbers made ++ [made + 1] := by
  rw [numbers, toNat_next below, List.range'_1_concat, List.map_append, ← numbers]
  have next : UInt32.ofNat (1 + made.toNat) = made + 1 := by
    rw [Nat.add_comm, ← toNat_next below, UInt32.ofNat_toNat]
  rw [List.map_singleton, next]

theorem mem_numbers_iff {last number : UInt32} :
    number ∈ numbers last ↔ 1 ≤ number ∧ number ≤ last := by
  simp only [numbers, List.mem_map, List.mem_range'_1, UInt32.le_iff_toNat_le]
  constructor
  · rintro ⟨index, bounds, rfl⟩
    have small : index < UInt32.size := by
      have bound := last.toNat_lt
      simp only [UInt32.size]
      omega
    rw [UInt32.toNat_ofNat_of_lt' small]
    exact ⟨bounds.1, by omega⟩
  · intro bounds
    exact ⟨number.toNat, ⟨bounds.1, by omega⟩, UInt32.ofNat_toNat⟩

theorem maxAttempts_ofCount (count : UInt32) :
    (Policy.ofCount count).maxAttempts = max count 1 := by
  unfold Policy.ofCount
  split
  next zero =>
    subst zero
    rfl
  next nonzero =>
    have positive := UInt32.pos_iff_ne_zero.mpr nonzero
    change count = if count ≤ 1 then 1 else count
    split
    next small =>
      rw [UInt32.lt_iff_toNat_lt] at positive
      rw [UInt32.le_iff_toNat_le] at small
      exact UInt32.toNat_inj.mp (Nat.le_antisymm small positive)
    next => rfl

/-! ### The loop of a script -/

/-- The loop invariant: the attempts made so far are logged, none of them ends the loop, and after
each of them the question was put. -/
structure Log.HasMade (script : Script) (maxAttempts made : UInt32) (log : Log) : Prop where
  called : log.called = numbers made
  asked : log.asked = (numbers made).map fun number => (number, maxAttempts)
  repeated : ∀ number ∈ numbers made,
    script.mayRepeat maxAttempts number = true ∧ ¬script.EndsAt maxAttempts number

namespace Log.HasMade

variable {script : Script} {maxAttempts made : UInt32} {log : Log}

theorem start (script : Script) (maxAttempts : UInt32) : HasMade script maxAttempts 0 {} where
  called := rfl
  asked := rfl
  repeated := by simp [numbers]

variable (hasMade : log.HasMade script maxAttempts made) (below : made < maxAttempts)
include hasMade below

theorem attempt_eq :
    script.actions.attempt (made + 1) log =
      (script.result (made + 1).toNat, { log with called := numbers (made + 1) }) := by
  have next : log.called.length + 1 = (made + 1).toNat := by
    rw [hasMade.called, length_numbers, toNat_next below]
  rw [numbers_next below, ← hasMade.called, ← next]
  rfl

theorem decide_eq :
    script.actions.decide (made + 1) maxAttempts { log with called := numbers (made + 1) } =
      (script.answer (made + 1).toNat,
        { called := numbers (made + 1)
          asked := (numbers (made + 1)).map fun number => (number, maxAttempts) }) := by
  have next : log.asked.length + 1 = (made + 1).toNat := by
    rw [hasMade.asked, List.length_map, length_numbers, toNat_next below]
  rw [← next, numbers_next below, List.map_append, ← hasMade.asked]
  rfl

/-- An attempt after which the loop goes on does not end it. -/
theorem again {outcome : Outcome} (more : made + 1 < maxAttempts)
    (yields : script.result (made + 1).toNat = .ok outcome) (empty : outcome.hasTelemetry = false)
    (yes : script.answer (made + 1).toNat = true) :
    HasMade script maxAttempts (made + 1)
      { called := numbers (made + 1)
        asked := (numbers (made + 1)).map fun number => (number, maxAttempts) } := by
  refine ⟨rfl, rfl, ?_⟩
  intro number member
  rw [numbers_next below, List.mem_append, List.mem_singleton] at member
  rcases member with earlier | rfl
  · exact hasMade.repeated number earlier
  · refine ⟨Script.mayRepeat_of_fruitless yields empty more, ?_⟩
    rintro (⟨fault, failed⟩ | ⟨other, same, rows⟩ | last | no)
    · rw [yields] at failed
      cases failed
    · rw [yields, Except.ok.injEq] at same
      rw [← same, empty] at rows
      cases rows
    · rw [last] at more
      exact absurd more (UInt32.lt_irrefl _)
    · rw [yes] at no
      cases no

end Log.HasMade

/-- The invariant is kept by the loop. -/
theorem keeps_hasMade (script : Script) (maxAttempts : UInt32) :
    script.actions.Keeps maxAttempts (Log.HasMade script maxAttempts) := by
  intro made log outcome after next below more hasMade attempted empty asked
  rw [hasMade.attempt_eq below, Prod.mk.injEq] at attempted
  obtain ⟨yields, rfl⟩ := attempted
  rw [hasMade.decide_eq below, Prod.mk.injEq] at asked
  obtain ⟨yes, rfl⟩ := asked
  exact hasMade.again below more yields empty yes

/-! ### What the loop makes of a script -/

/-- The attempts up to the last one are made in order, a question is put after each one that may be
repeated, and the last one settles the result. -/
structure HasCourse (script : Script) (maxAttempts last : UInt32)
    (run : Except Fault Result × Log) : Prop where
  called : run.2.called = numbers last
  asked : run.2.asked = ((numbers last).filter fun number =>
    script.mayRepeat maxAttempts number).map fun number => (number, maxAttempts)
  result : run.1 = script.ending maxAttempts last

section Last

variable {script : Script} {maxAttempts made : UInt32} {log : Log}
  (hasMade : log.HasMade script maxAttempts made) (below : made < maxAttempts)
include hasMade below

/-- The attempt that ends the loop is the first one that can. -/
theorem isLeast_next (ends : script.EndsAt maxAttempts (made + 1)) :
    IsLeast {number | 1 ≤ number ∧ script.EndsAt maxAttempts number} (made + 1) := by
  have next := toNat_next below
  refine ⟨⟨?_, ends⟩, ?_⟩
  · rw [UInt32.le_iff_toNat_le, next]
    exact Nat.le_add_left 1 _
  · rintro number ⟨positive, stops⟩
    refine UInt32.not_lt.mp fun earlier => ?_
    -- An earlier number was attempted before, and did not end the loop.
    have before : number ≤ made := by
      rw [UInt32.lt_iff_toNat_lt, next] at earlier
      rw [UInt32.le_iff_toNat_le]
      omega
    exact (hasMade.repeated number (mem_numbers_iff.mpr ⟨positive, before⟩)).2 stops

/-- The questions put so far are all of them if the next attempt is not to be repeated. -/
theorem asked_of_mayRepeat_eq_false
    (final : script.mayRepeat maxAttempts (made + 1) = false) :
    log.asked = ((numbers (made + 1)).filter fun number =>
      script.mayRepeat maxAttempts number).map fun number => (number, maxAttempts) := by
  have all : (numbers made).filter (fun number => script.mayRepeat maxAttempts number) =
      numbers made :=
    List.filter_eq_self.mpr fun number member => (hasMade.repeated number member).1
  rw [numbers_next below, List.filter_append, all, List.filter_cons, if_neg (by simp [final]),
    List.filter_nil, List.append_nil, hasMade.asked]

/-- If the next attempt may be repeated, there is one more question. -/
theorem asked_of_mayRepeat_eq_true (more : script.mayRepeat maxAttempts (made + 1) = true) :
    (numbers (made + 1)).map (fun number => (number, maxAttempts)) =
      ((numbers (made + 1)).filter fun number =>
        script.mayRepeat maxAttempts number).map fun number => (number, maxAttempts) := by
  have all : (numbers (made + 1)).filter (fun number => script.mayRepeat maxAttempts number) =
      numbers (made + 1) := by
    refine List.filter_eq_self.mpr fun number member => ?_
    rw [numbers_next below, List.mem_append, List.mem_singleton] at member
    rcases member with earlier | rfl
    · exact (hasMade.repeated number earlier).1
    · exact more
  rw [all]

/-- The attempt that ends the loop can end it, and the run has the course its script asks for. -/
theorem hasCourse_of_leaves {ran : Except Fault Result × Log}
    (leaves : Leaves script.actions maxAttempts made log ran) :
    script.EndsAt maxAttempts (made + 1) ∧ HasCourse script maxAttempts (made + 1) ran := by
  have attempt := hasMade.attempt_eq below
  have unasked := asked_of_mayRepeat_eq_false hasMade below
  cases leaves with
  | fault attempted =>
    rw [attempt, Prod.mk.injEq] at attempted
    obtain ⟨yields, rfl⟩ := attempted
    exact ⟨.inl ⟨_, yields⟩, rfl, unasked (Script.mayRepeat_of_fault yields),
      (Script.ending_of_fault yields).symm⟩
  | success attempted telemetry =>
    rw [attempt, Prod.mk.injEq] at attempted
    obtain ⟨yields, rfl⟩ := attempted
    exact ⟨.inr (.inl ⟨_, yields, telemetry⟩), rfl,
      unasked (Script.mayRepeat_of_success yields telemetry),
      (Script.ending_of_success yields telemetry).symm⟩
  | exhausted attempted empty last =>
    rw [attempt, Prod.mk.injEq] at attempted
    obtain ⟨yields, rfl⟩ := attempted
    refine ⟨.inr (.inr (.inl last)), rfl, ?_, ?_⟩
    · exact unasked (by rw [last]; exact Script.mayRepeat_last)
    · rw [Script.ending_of_fruitless yields empty, if_pos last]
  | declined attempted empty more asked =>
    rw [attempt, Prod.mk.injEq] at attempted
    obtain ⟨yields, rfl⟩ := attempted
    rw [hasMade.decide_eq below, Prod.mk.injEq] at asked
    obtain ⟨no, rfl⟩ := asked
    refine ⟨.inr (.inr (.inr no)), rfl, ?_, ?_⟩
    · exact asked_of_mayRepeat_eq_true hasMade below
        (Script.mayRepeat_of_fruitless yields empty more)
    · rw [Script.ending_of_fruitless yields empty, if_neg (UInt32.ne_of_lt more)]

end Last

/-- A run of the retry loop follows its script up to the first attempt that faults, has rows, is the
last one allowed, or is followed by a no. -/
theorem run_follows_script (count : UInt32) (script : Script) :
    ∃ last, IsLeast {number | 1 ≤ number ∧ script.EndsAt (max count 1) number} last ∧
      last ≤ max count 1 ∧
      HasCourse script (max count 1) last (run script.actions (Policy.ofCount count) {}) := by
  rw [← maxAttempts_ofCount]
  obtain ⟨made, log, below, hasMade, leaves⟩ :=
    run_leaves (keeps_hasMade script _)
      (Log.HasMade.start script (Policy.ofCount count).maxAttempts)
  obtain ⟨ends, course⟩ := hasCourse_of_leaves hasMade below leaves
  refine ⟨made + 1, isLeast_next hasMade below ends, ?_, course⟩
  rw [UInt32.le_iff_toNat_le, toNat_next below]
  exact below

end BoardBench.Retry
