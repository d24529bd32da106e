import BoardBench.Retry.Decider

/-!
# The prompt and the shutdown flag

Main result: a prompt that looks at the flag answers no to a question after which the flag is up, no
matter when it was raised and what is typed.
-/
namespace BoardBench.Retry

namespace Prompt

variable {raisesOn : Nat → Bool} {attempt maxAttempts : UInt32} {written : String} {prompt : Prompt}

theorem interruptible_ask :
    (prompt.ask raisesOn attempt maxAttempts written).prompt.interruptible =
      prompt.interruptible := by
  fun_induction Prompt.ask raisesOn attempt maxAttempts written prompt with
  | case7 written prompt early asking after byte rest input line next quiet unclear ih => exact ih
  | _ => rfl

/-- An interrupt that the prompt can see is answered with no. -/
theorem answer_of_isInterrupted
    (interrupted : (prompt.ask raisesOn attempt maxAttempts written).prompt.isInterrupted = true) :
    (prompt.ask raisesOn attempt maxAttempts written).answer = false := by
  fun_induction Prompt.ask raisesOn attempt maxAttempts written prompt with
  -- The input has ended, or the line says yes: then the flag was looked at after the read.
  | case3 written prompt early asking after ended quiet => exact absurd interrupted quiet
  | case5 written prompt early asking after byte rest input line next quiet yes =>
    exact absurd interrupted quiet
  | case7 written prompt early asking after byte rest input line next quiet unclear ih =>
    exact ih interrupted
  | _ => rfl

end Prompt

namespace Desk

/-- The decider is a prompt that looks at the flag. -/
def IsPrompting (desk : Desk) : Prop :=
  ∃ prompt, desk.decider = .prompting prompt ∧ prompt.interruptible = true

variable {desk : Desk} (prompting : desk.IsPrompting) (raisesOn : Nat → Bool)
  (attempt maxAttempts : UInt32)
include prompting

theorem IsPrompting.decide :
    (desk.decide raisesOn attempt maxAttempts).2.IsPrompting := by
  obtain ⟨prompt, decider, interruptible⟩ := prompting
  rw [Desk.decide, decider]
  exact ⟨_, rfl, Prompt.interruptible_ask.trans interruptible⟩

theorem IsPrompting.answer
    (raised : (desk.decide raisesOn attempt maxAttempts).2.flag = true) :
    (desk.decide raisesOn attempt maxAttempts).1 = false := by
  obtain ⟨prompt, decider, interruptible⟩ := prompting
  rw [Desk.decide, decider] at raised ⊢
  have looks : (Prompt.ask (desk.raises.contains ·) attempt maxAttempts ""
      { prompt with raised := desk.flag }).prompt.interruptible = true :=
    Prompt.interruptible_ask.trans interruptible
  exact Prompt.answer_of_isInterrupted (Bool.and_eq_true_iff.mpr ⟨looks, raised⟩)

end Desk

end BoardBench.Retry
