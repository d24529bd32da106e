import BoardBench.Proofs.Retry.Course
import BoardBench.Proofs.Retry.Dialogue
import Mathlib.Logic.Function.Iterate

/-!
# The attempt counter

Main result: the number of attempts made is below the greatest one allowed whenever another attempt
is due, and an attempt after which a question is put is below it as well. So neither the number of
the next attempt nor the number in the question wraps, and no more attempts are made than allowed.

Here the loop is a machine that goes from stage to stage and computes with words that may wrap; what
the loop returns is what the machine ends with. The invariant ties the counter of a stage to the
attempts and steps so far, and to what remains of the loop. A step keeps it, hence so does a run.
-/
namespace BoardBench.Retry

open Supervision (Outcome)

variable {σ : Type}

/-! ### The next number -/

theorem one_le_next {made limit : UInt32} (below : made < limit) : 1 ≤ made + 1 := by
  rw [UInt32.le_iff_toNat_le, toNat_next below]
  exact Nat.le_add_left 1 _

theorem next_le {made limit : UInt32} (below : made < limit) : made + 1 ≤ limit := by
  rw [UInt32.le_iff_toNat_le, toNat_next below]
  exact UInt32.lt_iff_toNat_lt.mp below

/-! ### Stages -/

/-- Where the loop stands: before an attempt, with the number of those made; before the question
after a fruitless attempt; or at its end. -/
inductive Stage (σ : Type) where
  | attempting (made : UInt32) (world : σ)
  | asking (attempt : UInt32) (outcome : Outcome) (world : σ)
  | ended (result : Except Fault Result) (world : σ)

namespace Stage

/-- The stage that comes next. Nothing is known of the counter, so the sum may wrap. -/
def next (actions : Actions σ) (limit : UInt32) : Stage σ → Stage σ
  | .attempting made world =>
    match actions.attempt (made + 1) world with
    | (.error fault, world) => .ended (.error fault) world
    | (.ok outcome, world) =>
      if outcome.hasTelemetry then .ended (.ok (.success outcome.rows (made + 1))) world
      else if limit ≤ made + 1 then .ended (.ok (.gaveUp .exhausted (made + 1) outcome)) world
      else .asking (made + 1) outcome world
  | .asking attempt outcome world =>
    match actions.decide attempt limit world with
    | (true, world) => .attempting attempt world
    | (false, world) => .ended (.ok (.gaveUp .declined attempt outcome)) world
  | .ended result world => .ended result world

def isAttempting : Stage σ → Bool
  | .attempting .. => true
  | _ => false

/-- Numbers are within the limit, and the next number is greater by one. -/
def IsInRange (limit : UInt32) : Stage σ → Prop
  | .attempting made _ => made < limit ∧ 1 ≤ made + 1 ∧ made + 1 ≤ limit ∧
    (made + 1).toNat = made.toNat + 1
  | .asking attempt _ _ => 1 ≤ attempt ∧ attempt < limit ∧ attempt + 1 ≤ limit ∧
    (attempt + 1).toNat = attempt.toNat + 1 ∧
    question attempt limit = invitation (attempt.toNat + 1) limit.toNat
  | .ended .. => True

/-- The stage after so many steps from the first attempt. -/
def after (actions : Actions σ) (limit : UInt32) (world : σ) (steps : Nat) : Stage σ :=
  (next actions limit)^[steps] (.attempting 0 world)

/-- The attempts among so many steps. -/
def attemptsWithin (actions : Actions σ) (limit : UInt32) (world : σ) (steps : Nat) : Nat :=
  (List.range steps).countP fun step => (after actions limit world step).isAttempting

/-- The invariant. Before an attempt all attempts made are counted, each with a question after it.
Before a question the last attempt has none yet. What remains of the loop leads to the result. -/
inductive Stands (actions : Actions σ) (limit : UInt32) (ran : Except Fault Result × σ) :
    Nat → Nat → Stage σ → Prop
  | attempting {made : UInt32} {world : σ} {steps : Nat} (below : made < limit) :
    runFrom actions limit made below world = ran → steps = 2 * made.toNat →
    Stands actions limit ran made.toNat steps (.attempting made world)
  | asking {attempt : UInt32} {outcome : Outcome} {world : σ} {steps : Nat}
      (below : attempt < limit) :
    (∀ after, actions.decide attempt limit world = (true, after) →
      runFrom actions limit attempt below after = ran) →
    (∀ after, actions.decide attempt limit world = (false, after) →
      (.ok (.gaveUp .declined attempt outcome), after) = ran) →
    steps + 1 = 2 * attempt.toNat →
    Stands actions limit ran attempt.toNat steps (.asking attempt outcome world)
  | ended {attempts steps : Nat} : attempts ≤ limit.toNat →
    Stands actions limit ran attempts steps (.ended ran.1 ran.2)

variable {actions : Actions σ} {limit : UInt32} {ran : Except Fault Result × σ}
  {attempts steps : Nat} {stage : Stage σ}

/-! ### One step -/

/-- Every way in which an attempt can go: three of them end the loop. -/
theorem stands_next_attempting {made : UInt32} {world : σ} (below : made < limit)
    (runs : runFrom actions limit made below world = ran) (pace : steps = 2 * made.toNat) :
    Stands actions limit ran (made.toNat + 1) (steps + 1)
      (next actions limit (.attempting made world)) := by
  have counted := toNat_next below
  have within : made.toNat + 1 ≤ limit.toNat := UInt32.lt_iff_toNat_lt.mp below
  rw [next]
  rcases attempted : actions.attempt (made + 1) world with ⟨fault | outcome, after⟩
  · rw [runFrom_fault attempted] at runs
    subst runs
    exact .ended within
  · cases telemetry : outcome.hasTelemetry with
    | true =>
      rw [runFrom_success attempted telemetry] at runs
      subst runs
      simp only [telemetry, if_true]
      exact .ended within
    | false =>
      simp only [telemetry, Bool.false_eq_true, if_false]
      split
      next last =>
        rw [runFrom_exhausted attempted telemetry (UInt32.not_lt.mpr last)] at runs
        subst runs
        exact .ended within
      next more =>
        -- The loop goes on if the answer to the question is yes.
        have more := UInt32.not_le.mp more
        rw [← counted]
        refine .asking more ?_ ?_ (by omega)
        · intro later asked
          rw [← runFrom_again attempted telemetry more asked]
          exact runs
        · intro later asked
          rw [← runFrom_declined attempted telemetry more asked]
          exact runs

theorem stands_next_asking {attempt : UInt32} {outcome : Outcome} {world : σ}
    (below : attempt < limit)
    (again : ∀ after, actions.decide attempt limit world = (true, after) →
      runFrom actions limit attempt below after = ran)
    (declined : ∀ after, actions.decide attempt limit world = (false, after) →
      (.ok (.gaveUp .declined attempt outcome), after) = ran)
    (pace : steps + 1 = 2 * attempt.toNat) :
    Stands actions limit ran attempt.toNat (steps + 1)
      (next actions limit (.asking attempt outcome world)) := by
  rw [next]
  rcases asked : actions.decide attempt limit world with ⟨_ | _, after⟩
  · have ends := declined after asked
    subst ends
    exact .ended (Nat.le_of_lt (UInt32.lt_iff_toNat_lt.mp below))
  · exact .attempting below (again after asked) pace

/-- The invariant is kept by each step, which counts when it is an attempt. -/
theorem Stands.next (stands : Stands actions limit ran attempts steps stage) :
    Stands actions limit ran (attempts + if stage.isAttempting then 1 else 0) (steps + 1)
      (stage.next actions limit) := by
  cases stands with
  | attempting below runs pace => exact stands_next_attempting below runs pace
  | asking below again declined pace => exact stands_next_asking below again declined pace
  | ended within => exact .ended within

theorem Stands.isInRange (stands : Stands actions limit ran attempts steps stage) :
    stage.IsInRange limit := by
  cases stands with
  | attempting below => exact ⟨below, one_le_next below, next_le below, toNat_next below⟩
  | @asking attempt _ _ _ below _ _ pace =>
    -- A question comes after an attempt.
    have positive : 1 ≤ attempt.toNat := by omega
    exact ⟨UInt32.le_iff_toNat_le.mpr positive, below, next_le below, toNat_next below,
      question_eq_invitation below⟩
  | ended => trivial

theorem Stands.attempts_le (stands : Stands actions limit ran attempts steps stage) :
    attempts ≤ limit.toNat := by
  cases stands with
  | attempting below => exact Nat.le_of_lt (UInt32.lt_iff_toNat_lt.mp below)
  | asking below => exact Nat.le_of_lt (UInt32.lt_iff_toNat_lt.mp below)
  | ended within => exact within

/-- No stage but the last one is left after two steps for each attempt allowed. -/
theorem Stands.eq_ended (stands : Stands actions limit ran attempts (2 * limit.toNat) stage) :
    stage = .ended ran.1 ran.2 := by
  generalize count : 2 * limit.toNat = steps at stands
  cases stands with
  | attempting below _ pace =>
    have within := UInt32.lt_iff_toNat_lt.mp below
    omega
  | asking below _ _ pace => omega
  | ended => rfl

/-! ### All steps -/

theorem after_succ (actions : Actions σ) (limit : UInt32) (world : σ) (steps : Nat) :
    after actions limit world (steps + 1) = (after actions limit world steps).next actions limit :=
  Function.iterate_succ_apply' _ _ _

theorem attemptsWithin_succ (actions : Actions σ) (limit : UInt32) (world : σ) (steps : Nat) :
    attemptsWithin actions limit world (steps + 1) = attemptsWithin actions limit world steps +
      if (after actions limit world steps).isAttempting then 1 else 0 := by
  rw [attemptsWithin, List.range_succ, List.countP_append, List.countP_singleton, attemptsWithin]

theorem stands_after (actions : Actions σ) (policy : Policy) (world : σ) (steps : Nat) :
    Stands actions policy.maxAttempts (run actions policy world)
      (attemptsWithin actions policy.maxAttempts world steps) steps
      (after actions policy.maxAttempts world steps) := by
  induction steps with
  | zero => exact .attempting policy.positive rfl rfl
  | succ steps ih =>
    rw [after_succ, attemptsWithin_succ]
    exact ih.next

end Stage

/-! ### Numbers that are used -/

/-- The actions do the same for numbers within the limit. -/
structure Actions.AgreeWithin (limit : UInt32) (actions others : Actions σ) : Prop where
  attempt : ∀ number world, 1 ≤ number → number ≤ limit →
    others.attempt number world = actions.attempt number world
  decide : ∀ attempt world, 1 ≤ attempt → attempt < limit →
    others.decide attempt limit world = actions.decide attempt limit world

namespace Actions.AgreeWithin

variable {actions others : Actions σ} {limit made : UInt32}
  (agree : AgreeWithin limit actions others) (below : made < limit) (world : σ)
include agree below

theorem attempt_next : actions.attempt (made + 1) world = others.attempt (made + 1) world :=
  (agree.attempt _ _ (one_le_next below) (next_le below)).symm

theorem decide_next (more : made + 1 < limit) :
    actions.decide (made + 1) limit world = others.decide (made + 1) limit world :=
  (agree.decide _ _ (one_le_next below) more).symm

/-- The loop uses no other numbers, so it is the same for both. -/
theorem runFrom_eq :
    runFrom others limit made below world = runFrom actions limit made below world := by
  -- The induction is on the one loop, and each call of the other one is rewritten to the same call.
  fun_induction runFrom actions limit made below world with
  | case1 made below world fault after attempted =>
    rw [agree.attempt_next below _] at attempted
    exact runFrom_fault attempted
  | case2 made below world outcome after attempted telemetry =>
    rw [agree.attempt_next below _] at attempted
    exact runFrom_success attempted telemetry
  | case3 made below world outcome after attempted empty more later asked ih =>
    rw [Bool.not_eq_true] at empty
    rw [agree.attempt_next below _] at attempted
    rw [agree.decide_next below _ more] at asked
    rw [runFrom_again attempted empty more asked]
    exact ih
  | case4 made below world outcome after attempted empty more later asked =>
    rw [Bool.not_eq_true] at empty
    rw [agree.attempt_next below _] at attempted
    rw [agree.decide_next below _ more] at asked
    exact runFrom_declined attempted empty more asked
  | case5 made below world outcome after attempted empty last =>
    rw [Bool.not_eq_true] at empty
    rw [agree.attempt_next below _] at attempted
    exact runFrom_exhausted attempted empty last

end Actions.AgreeWithin

/-! ### The whole loop -/

/-- Whatever the attempts yield and the answers are, all numbers stay within the limit. Before an
attempt the counter tells the attempts made, and the loop goes on from there. It ends after no more
attempts than allowed, with what it returns, and what would be done for numbers that are not within
the limit makes no difference. -/
theorem attempt_numbers_in_range (actions : Actions σ) (count : UInt32) (world : σ) :
    let limit := max count 1
    let ran := run actions (Policy.ofCount count) world
    (∀ steps, (Stage.after actions limit world steps).IsInRange limit) ∧
    (∀ steps, Stage.attemptsWithin actions limit world steps ≤ limit.toNat) ∧
    (∀ steps made current, Stage.after actions limit world steps = .attempting made current →
      Stage.attemptsWithin actions limit world steps = made.toNat ∧
        ∃ below, runFrom actions limit made below current = ran) ∧
    Stage.after actions limit world (2 * limit.toNat) = .ended ran.1 ran.2 ∧
    ∀ others, actions.AgreeWithin limit others → run others (Policy.ofCount count) world = ran := by
  intro limit ran
  have same : limit = (Policy.ofCount count).maxAttempts := (maxAttempts_ofCount count).symm
  have stands (steps : Nat) :
      Stage.Stands actions limit ran (Stage.attemptsWithin actions limit world steps) steps
        (Stage.after actions limit world steps) := by
    rw [same]
    exact Stage.stands_after actions (Policy.ofCount count) world steps
  refine ⟨fun steps => (stands steps).isInRange, fun steps => (stands steps).attempts_le, ?_,
    (stands _).eq_ended, ?_⟩
  · intro steps made current reached
    have here := stands steps
    rw [reached] at here
    generalize Stage.attemptsWithin actions limit world steps = attempts at here
    cases here with
    | attempting below runs => exact ⟨rfl, below, runs⟩
  · intro others agree
    rw [same] at agree
    exact agree.runFrom_eq (Policy.ofCount count).positive world

/-- Attempts without rows, which are always repeated. -/
def Actions.fruitless : Actions Unit where
  attempt _ _ := (.ok { exit := .timedOut, transcript := [], rows := [] }, ())
  decide _ _ _ := (true, ())

/-- The second of two attempts is due after the first one and its question. -/
theorem attempt_numbers_in_range_twice :
    Stage.after .fruitless 2 () 2 = .attempting 1 () ∧ Stage.attemptsWithin .fruitless 2 () 2 = 1 ∧
      ∃ below, runFrom .fruitless 2 1 below () = run .fruitless (Policy.ofCount 2) () := by
  have reached : Stage.after .fruitless 2 () 2 = .attempting 1 () := rfl
  exact ⟨reached, (attempt_numbers_in_range .fruitless 2 ()).2.2.1 2 1 () reached⟩

/-- The greatest number of a word is reached, and not passed. -/
example : Stage.next .fruitless 0xFFFFFFFF (.attempting 0xFFFFFFFE ()) =
    .ended (.ok (.gaveUp .exhausted 0xFFFFFFFF ⟨.timedOut, [], []⟩)) () := rfl

end BoardBench.Retry
