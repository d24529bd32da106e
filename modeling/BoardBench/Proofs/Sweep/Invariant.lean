import BoardBench.Proofs.Sweep.Events

/-!
# Invariants of the world

What holds of a world and survives every execution and every question holds after a pair, and after
pairs one after the other.
-/
namespace BoardBench.Sweep

variable {σ : Type} {workbench : Workbench σ} {invariant : σ → Prop}

/-- The invariant survives executions and questions. -/
structure Workbench.Keeps (workbench : Workbench σ) (invariant : σ → Prop) : Prop where
  execute : ∀ request world, invariant world → invariant (workbench.execute request world).2
  decide : ∀ attempt maxAttempts world, invariant world →
    invariant (workbench.decide attempt maxAttempts world).2

namespace Workbench.Keeps

variable (keeps : workbench.Keeps invariant)
include keeps

/-- A workbench simulates itself also between worlds in which the invariant holds. -/
theorem simulates :
    Simulates workbench workbench (fun one other => one = other ∧ invariant one)
      (fun one other => one = other ∧ invariant one) where
  isDirectory path one other related := by rw [related.1]
  execute request one other related := by
    obtain ⟨rfl, holds⟩ := related
    have next := keeps.execute request one holds
    exact ⟨rfl, fun _ => ⟨rfl, next⟩, fun _ => ⟨rfl, next⟩⟩
  decide attempt maxAttempts one other related := by
    obtain ⟨rfl, holds⟩ := related
    exact ⟨rfl, rfl, keeps.decide attempt maxAttempts one holds⟩

theorem runIn (settings : Settings) (pair : Pair) {world : σ} (holds : invariant world) :
    invariant (settings.runIn workbench pair world).2 := by
  have start : OnWorlds (fun one other => one = other ∧ invariant one) { world } { world } :=
    ⟨rfl, holds⟩
  exact (keeps.simulates.runPair settings pair.1 pair.2 start).related.2

theorem worldAfter (settings : Settings) (pairs : List Pair) {world : σ} (holds : invariant world) :
    invariant (settings.worldAfter workbench pairs world) := by
  induction pairs generalizing world with
  | nil => exact holds
  | cons pair rest ih => exact ih (keeps.runIn settings pair holds)

end Workbench.Keeps

end BoardBench.Sweep
