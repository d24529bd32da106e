import BoardBench.Retry.Prompt

/-!
# Deciders

Who says whether to try again: nobody, so that the answer is always yes; a list of answers given
beforehand; or someone at a prompt. The questions, what the prompt wrote, and the shutdown flag are
kept together, since a question may take as long as an attempt.
-/
namespace BoardBench.Retry

inductive Decider where
  | always
  /-- The last answer repeats; without any the answer is yes. -/
  | listed (answers : List Bool)
  | prompting (prompt : Prompt)
  deriving Repr, DecidableEq

/-- The answer to question `index` of a list of answers. -/
def answerAt (index : Nat) : List Bool → Bool
  | [] => true
  | [last] => last
  | answer :: rest => if index = 0 then answer else answerAt (index - 1) rest

structure Desk where
  decider : Decider
  /-- The attempt numbers of the questions put to a list of answers. -/
  asked : List (UInt32 × UInt32) := []
  /-- What a prompt wrote. -/
  written : String := ""
  /-- The shutdown flag. -/
  flag : Bool := false
  /-- The reads of a prompt during which someone raises the flag. -/
  raises : List Nat := []
  deriving Repr, DecidableEq

namespace Desk

/-- Puts a question. `raisesOn n` tells that the flag is raised while question `n` is put to a list
of answers. -/
def decide (raisesOn : Nat → Bool) (attempt maxAttempts : UInt32) (desk : Desk) : Bool × Desk :=
  match desk.decider with
  | .always => (true, desk)
  | .listed answers =>
    let asked := desk.asked ++ [(attempt, maxAttempts)]
    (answerAt desk.asked.length answers,
      { desk with asked, flag := desk.flag || raisesOn asked.length })
  | .prompting prompt =>
    let asked := { prompt with raised := desk.flag }.ask (desk.raises.contains ·) attempt
      maxAttempts ""
    (asked.answer,
      { desk with
        decider := .prompting asked.prompt
        written := desk.written ++ asked.written
        flag := asked.prompt.raised })

end Desk

end BoardBench.Retry
