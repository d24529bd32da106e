import BoardBench.Text.Utf8
import BoardBench.Text.Search
import BoardBench.Console.Line

/-!
# The retry prompt

Asks on a terminal whether to repeat an attempt. A line with `n` or `no` means no; an empty line,
`y`, `yes`, the end of the input and a line that is no text mean yes; after any other line the
question is put again. A shutdown flag that is raised before a question or during a read means no.
-/
namespace BoardBench.Retry

/-- How a line is taken. -/
inductive Reply where
  | yes
  | no
  | unclear
  deriving Repr, DecidableEq

/-- What a line says, given its bytes. -/
def replyOf (line : Bytes) : Reply :=
  match strictChars? line with
  | none => .yes
  | some chars =>
    let word := lowerChars (trimChars chars)
    if word = [] ∨ word = ['y'] ∨ word = ['y', 'e', 's'] then .yes
    else if word = ['n'] ∨ word = ['n', 'o'] then .no
    else .unclear

/-- The bytes of the next line with its line feed, and those after it. -/
def readRaw : Bytes → Bytes × Bytes
  | [] => ([], [])
  | byte :: rest =>
    if byte == Console.lineFeed then ([byte], rest)
    else (byte :: (readRaw rest).1, (readRaw rest).2)

theorem readRaw_append (input : Bytes) : (readRaw input).1 ++ (readRaw input).2 = input := by
  induction input with
  | nil => rfl
  | cons byte rest ih =>
    rw [readRaw]
    split
    · rfl
    · simpa using ih

theorem readRaw_shorter (byte : UInt8) (rest : Bytes) :
    (readRaw (byte :: rest)).2.length < (byte :: rest).length := by
  have whole := congrArg List.length (readRaw_append (byte :: rest))
  have nonempty : 0 < (readRaw (byte :: rest)).1.length := by
    rw [readRaw]
    split <;> simp
  simp only [List.length_append] at whole
  omega

/-- A prompt: the input to come, how many reads have started, and the shutdown flag, if it looks at
one. -/
structure Prompt where
  input : Bytes
  reads : Nat := 0
  raised : Bool := false
  interruptible : Bool := true
  deriving Repr, DecidableEq

def question (attempt maxAttempts : UInt32) : String :=
  "RETRY RUNNING THIS BENCHMARK? (attempt " ++ toString (attempt + 1).toNat ++ "/" ++
    toString maxAttempts.toNat ++ ") [Y/n] "

def correction : String :=
  "PLEASE ANSWER y OR n\n"

/-- An answer, the text written for it, and the prompt afterwards. -/
structure Asked where
  answer : Bool
  written : String
  prompt : Prompt
  deriving Repr, DecidableEq

namespace Prompt

def isInterrupted (prompt : Prompt) : Bool :=
  prompt.interruptible && prompt.raised

/-- The prompt after one read has started, in which the flag may be raised. -/
def reading (prompt : Prompt) (raisesOn : Nat → Bool) : Prompt :=
  { prompt with
    reads := prompt.reads + 1
    raised := prompt.raised || raisesOn (prompt.reads + 1) }

/-- Asks until the answer is clear. `raisesOn n` tells that the flag is raised during read `n`. -/
def ask (raisesOn : Nat → Bool) (attempt maxAttempts : UInt32) (written : String)
    (prompt : Prompt) : Asked :=
  if prompt.isInterrupted then { answer := false, written, prompt }
  else
    let written := written ++ question attempt maxAttempts
    let after := prompt.reading raisesOn
    match input : prompt.input with
    | [] =>
      if after.isInterrupted then { answer := false, written := written ++ "\n", prompt := after }
      else { answer := true, written, prompt := after }
    | byte :: rest =>
      let line := readRaw (byte :: rest)
      let after := { after with input := line.2 }
      if after.isInterrupted then { answer := false, written := written ++ "\n", prompt := after }
      else
        match replyOf line.1 with
        | .yes => { answer := true, written, prompt := after }
        | .no => { answer := false, written, prompt := after }
        | .unclear => ask raisesOn attempt maxAttempts (written ++ correction) after
termination_by prompt.input.length
decreasing_by
  rw [input]
  exact readRaw_shorter byte rest

end Prompt

end BoardBench.Retry
