import BoardBench.Supervision.Exit
import BoardBench.Fault

/-!
# Retrying

An attempt that yields no rows is repeated while the policy has attempts left and the decider says
yes. A fault ends the loop and is passed on. The world that attempts and decisions change is a
state of any type. Attempt numbers are 32-bit words; the loop keeps the number made below the
greatest one allowed, so the next number never wraps.
-/
namespace BoardBench.Retry

open Supervision (Outcome)
open Telemetry (Row)

/-- How many attempts there may be. -/
structure Policy where
  maxAttempts : UInt32
  positive : 0 < maxAttempts

/-- At least one attempt is made, so zero counts as one. -/
def Policy.ofCount (count : UInt32) : Policy where
  maxAttempts := if count = 0 then 1 else count
  positive := by
    split
    · decide
    · next nonzero => exact UInt32.pos_iff_ne_zero.mpr nonzero

def Policy.standard : Policy :=
  Policy.ofCount 3

inductive Reason where
  | exhausted
  | declined
  deriving Repr, DecidableEq

inductive Result where
  | success (rows : List Row) (attempts : UInt32)
  | gaveUp (reason : Reason) (attempts : UInt32) (last : Outcome)
  deriving DecidableEq

/-- What the loop does to the world. -/
structure Actions (σ : Type) where
  /-- Makes the attempt of a number. -/
  attempt : UInt32 → σ → Except Fault Outcome × σ
  /-- Asks whether to go on after the attempt of a number; the other word is the greatest one. -/
  decide : UInt32 → UInt32 → σ → Bool × σ

theorem toNat_next {made maxAttempts : UInt32} (below : made < maxAttempts) :
    (made + 1).toNat = made.toNat + 1 := by
  have bound := maxAttempts.toNat_lt
  rw [UInt32.lt_iff_toNat_lt] at below
  rw [UInt32.toNat_add]
  have one : (1 : UInt32).toNat = 1 := rfl
  omega

/-- Goes on after `made` attempts without rows. -/
def runFrom {σ : Type} (actions : Actions σ) (maxAttempts made : UInt32)
    (_below : made < maxAttempts) (world : σ) : Except Fault Result × σ :=
  match actions.attempt (made + 1) world with
  | (.error fault, world) => (.error fault, world)
  | (.ok outcome, world) =>
    if outcome.hasTelemetry then (.ok (.success outcome.rows (made + 1)), world)
    else if more : made + 1 < maxAttempts then
      match actions.decide (made + 1) maxAttempts world with
      | (true, world) => runFrom actions maxAttempts (made + 1) more world
      | (false, world) => (.ok (.gaveUp .declined (made + 1) outcome), world)
    else (.ok (.gaveUp .exhausted (made + 1) outcome), world)
termination_by maxAttempts.toNat - made.toNat
decreasing_by
  have next := toNat_next _below
  rw [UInt32.lt_iff_toNat_lt] at more
  omega

/-- Attempts until one yields rows, faults, is the last one allowed, or is not to be repeated. -/
def run {σ : Type} (actions : Actions σ) (policy : Policy) (world : σ) : Except Fault Result × σ :=
  runFrom actions policy.maxAttempts 0 policy.positive world

end BoardBench.Retry
