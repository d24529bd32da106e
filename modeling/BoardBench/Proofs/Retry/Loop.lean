import BoardBench.Retry.Loop

/-!
# The retry loop, step by step

One equation for each way in which an attempt can go, and what follows for the whole loop: what
holds before the first attempt and survives every attempt without rows holds before the attempt that
ends the loop. Rows that are returned are not empty, and a fault that is returned is that of some
attempt.
-/
namespace BoardBench.Retry

open Supervision (Outcome)

variable {σ : Type} {actions : Actions σ} {maxAttempts made : UInt32} {below : made < maxAttempts}
  {world after next : σ} {outcome : Outcome} {fault : Fault}

/-! ### One attempt -/

theorem rows_ne_nil_iff : outcome.rows ≠ [] ↔ outcome.hasTelemetry = true := by
  simp [Outcome.hasTelemetry]

theorem rows_eq_nil_iff : outcome.rows = [] ↔ outcome.hasTelemetry = false := by
  simp [Outcome.hasTelemetry]

theorem runFrom_fault (attempted : actions.attempt (made + 1) world = (.error fault, after)) :
    runFrom actions maxAttempts made below world = (.error fault, after) := by
  rw [runFrom, attempted]

section Ok

variable (attempted : actions.attempt (made + 1) world = (.ok outcome, after))
include attempted

theorem runFrom_success (telemetry : outcome.hasTelemetry = true) :
    runFrom actions maxAttempts made below world =
      (.ok (.success outcome.rows (made + 1)), after) := by
  rw [runFrom, attempted]
  exact if_pos telemetry

theorem runFrom_exhausted (empty : outcome.hasTelemetry = false)
    (last : ¬made + 1 < maxAttempts) :
    runFrom actions maxAttempts made below world =
      (.ok (.gaveUp .exhausted (made + 1) outcome), after) := by
  rw [runFrom, attempted]
  simp [empty, last]

theorem runFrom_declined (empty : outcome.hasTelemetry = false) (more : made + 1 < maxAttempts)
    (asked : actions.decide (made + 1) maxAttempts after = (false, next)) :
    runFrom actions maxAttempts made below world =
      (.ok (.gaveUp .declined (made + 1) outcome), next) := by
  rw [runFrom, attempted]
  simp [empty, more, asked]

theorem runFrom_again (empty : outcome.hasTelemetry = false) (more : made + 1 < maxAttempts)
    (asked : actions.decide (made + 1) maxAttempts after = (true, next)) :
    runFrom actions maxAttempts made below world =
      runFrom actions maxAttempts (made + 1) more next := by
  rw [runFrom, attempted]
  simp only [empty, Bool.false_eq_true, if_false, more, dif_pos, asked]

end Ok

/-! ### The loop -/

/-- How an attempt ends the loop, after `made` attempts without rows. -/
inductive Leaves (actions : Actions σ) (maxAttempts made : UInt32) (world : σ) :
    Except Fault Result × σ → Prop
  | fault {fault : Fault} {after : σ} :
    actions.attempt (made + 1) world = (.error fault, after) →
    Leaves actions maxAttempts made world (.error fault, after)
  | success {outcome : Outcome} {after : σ} :
    actions.attempt (made + 1) world = (.ok outcome, after) → outcome.hasTelemetry = true →
    Leaves actions maxAttempts made world (.ok (.success outcome.rows (made + 1)), after)
  | exhausted {outcome : Outcome} {after : σ} :
    actions.attempt (made + 1) world = (.ok outcome, after) → outcome.hasTelemetry = false →
    made + 1 = maxAttempts →
    Leaves actions maxAttempts made world (.ok (.gaveUp .exhausted (made + 1) outcome), after)
  | declined {outcome : Outcome} {after next : σ} :
    actions.attempt (made + 1) world = (.ok outcome, after) → outcome.hasTelemetry = false →
    made + 1 < maxAttempts → actions.decide (made + 1) maxAttempts after = (false, next) →
    Leaves actions maxAttempts made world (.ok (.gaveUp .declined (made + 1) outcome), next)

/-- The invariant is kept by an attempt without rows after which the answer is yes. -/
def Actions.Keeps (actions : Actions σ) (maxAttempts : UInt32) (invariant : UInt32 → σ → Prop) :
    Prop :=
  ∀ ⦃made world outcome after next⦄, made < maxAttempts → made + 1 < maxAttempts →
    invariant made world → actions.attempt (made + 1) world = (.ok outcome, after) →
    outcome.hasTelemetry = false → actions.decide (made + 1) maxAttempts after = (true, next) →
    invariant (made + 1) next

theorem next_eq_of_not_lt (below : made < maxAttempts) (last : ¬made + 1 < maxAttempts) :
    made + 1 = maxAttempts := by
  have next := toNat_next below
  rw [UInt32.lt_iff_toNat_lt] at below last
  exact UInt32.toNat_inj.mp (by omega)

/-- What the loop keeps holds when the attempt is made that ends it. -/
theorem runFrom_leaves {invariant : UInt32 → σ → Prop} (below : made < maxAttempts)
    (keeps : actions.Keeps maxAttempts invariant) (start : invariant made world) :
    ∃ last before, last < maxAttempts ∧ invariant last before ∧
      Leaves actions maxAttempts last before (runFrom actions maxAttempts made below world) := by
  fun_induction runFrom actions maxAttempts made below world with
  | case1 made below world fault after attempted =>
    exact ⟨made, world, below, start, .fault attempted⟩
  | case2 made below world outcome after attempted telemetry =>
    exact ⟨made, world, below, start, .success attempted telemetry⟩
  | case3 made below world outcome after attempted empty more next asked ih =>
    rw [Bool.not_eq_true] at empty
    exact ih (keeps below more start attempted empty asked)
  | case4 made below world outcome after attempted empty more next asked =>
    rw [Bool.not_eq_true] at empty
    exact ⟨made, world, below, start, .declined attempted empty more asked⟩
  | case5 made below world outcome after attempted empty last =>
    rw [Bool.not_eq_true] at empty
    exact ⟨made, world, below, start, .exhausted attempted empty (next_eq_of_not_lt below last)⟩

/-- The same for the whole loop. -/
theorem run_leaves {policy : Policy} {invariant : UInt32 → σ → Prop}
    (keeps : actions.Keeps policy.maxAttempts invariant) (start : invariant 0 world) :
    ∃ last before, last < policy.maxAttempts ∧ invariant last before ∧
      Leaves actions policy.maxAttempts last before (run actions policy world) :=
  runFrom_leaves policy.positive keeps start

/-- Some attempt ends the loop. -/
theorem runFrom_leaves_some (below : made < maxAttempts) :
    ∃ last before, Leaves actions maxAttempts last before
      (runFrom actions maxAttempts made below world) := by
  have keeps : actions.Keeps maxAttempts fun _ _ => True :=
    fun _ _ _ _ _ _ _ _ _ _ _ => trivial
  obtain ⟨last, before, -, -, leaves⟩ := runFrom_leaves below keeps trivial
  exact ⟨last, before, leaves⟩

theorem rows_ne_nil_of_success {rows : List Telemetry.Row} {attempts : UInt32}
    (success : (runFrom actions maxAttempts made below world).1 = .ok (.success rows attempts)) :
    rows ≠ [] := by
  obtain ⟨last, before, leaves⟩ := runFrom_leaves_some below
  generalize runFrom actions maxAttempts made below world = ending at success leaves
  cases leaves with
  | success _ telemetry =>
    simp only [Except.ok.injEq, Result.success.injEq] at success
    rw [← success.1]
    exact rows_ne_nil_iff.mpr telemetry
  | fault => cases success
  | exhausted => cases success
  | declined => cases success

theorem fault_of_attempt
    (failed : (runFrom actions maxAttempts made below world).1 = .error fault) :
    ∃ number world, (actions.attempt number world).1 = .error fault := by
  obtain ⟨last, before, leaves⟩ := runFrom_leaves_some below
  generalize runFrom actions maxAttempts made below world = ending at failed leaves
  cases leaves with
  | fault attempted =>
    cases failed
    exact ⟨last + 1, before, by rw [attempted]⟩
  | success => cases failed
  | exhausted => cases failed
  | declined => cases failed

end BoardBench.Retry
