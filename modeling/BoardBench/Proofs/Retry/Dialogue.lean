import BoardBench.Retry.Loop
import BoardBench.Retry.Prompt
import BoardBench.Proofs.Console.Line
import BoardBench.Proofs.Text.Lossy

/-!
# What is said at the prompt

Main result: a prompt whose flag is not raised reads lines until one of them settles the question,
and leaves the rest of the input to the next question. Undecided lines are texts that say neither
yes nor no. An `n` or `no` means no, every other line that settles the question means yes, and so
does the end of the input. Besides the question, put once for each read, only a correction is
written after each undecided line.

Every read but the last one of each call takes a line away, so there are at most as many questions
as there are lines and calls.
-/
namespace BoardBench.Retry

open Console (IsRun lineFeed lines)

/-! ### Lines and what stands in them -/

/-- The bytes are one line, which a line feed ends or the end of the input. -/
def IsRawLine (line rest : Bytes) : Prop :=
  (∃ run, IsRun run ∧ line = run ++ [lineFeed]) ∨ IsRun line ∧ line ≠ [] ∧ rest = []

/-- The bytes encode one of the words, with blanks around it and letters of any case. -/
def Spells (line : Bytes) (words : List String) : Prop :=
  ∃ text, line = encode text ∧ lower (trim text) ∈ words

def assents : List String :=
  ["", "y", "yes"]

def refusals : List String :=
  ["n", "no"]

/-- The bytes encode a text that is neither a yes nor a no. -/
def IsUndecided (line : Bytes) : Prop :=
  (∃ text, line = encode text) ∧ ¬Spells line (assents ++ refusals)

theorem IsRawLine.ne_nil {line rest : Bytes} (raw : IsRawLine line rest) : line ≠ [] := by
  rcases raw with ⟨run, -, rfl⟩ | ⟨-, filled, -⟩
  · simp
  · exact filled

theorem isRawLine_readRaw (byte : UInt8) (rest : Bytes) :
    IsRawLine (readRaw (byte :: rest)).1 (readRaw (byte :: rest)).2 := by
  -- A line feed ends the line; any other byte is put in front of the line behind it.
  induction rest generalizing byte with
  | nil =>
    by_cases feed : byte = lineFeed
    · subst feed
      exact .inl ⟨[], by simp [IsRun], rfl⟩
    · have other : (byte == lineFeed) = false := by simpa using feed
      simp [readRaw, other, IsRawLine, IsRun, Ne.symm feed]
  | cons next more ih =>
    by_cases feed : byte = lineFeed
    · subst feed
      exact .inl ⟨[], by simp [IsRun], rfl⟩
    · have other : (byte == lineFeed) = false := by simpa using feed
      have reads : readRaw (byte :: next :: more) =
          (byte :: (readRaw (next :: more)).1, (readRaw (next :: more)).2) := by
        rw [readRaw, other]
        rfl
      rw [reads]
      rcases ih next with ⟨run, isRun, line⟩ | ⟨isRun, -, final⟩
      · refine .inl ⟨byte :: run, ?_, by rw [line, List.cons_append]⟩
        simpa [IsRun, Ne.symm feed] using isRun
      · refine .inr ⟨?_, by simp, final⟩
        simpa [IsRun, Ne.symm feed] using isRun

/-- Each line counts once. -/
theorem length_lines_raw {line rest : Bytes} (raw : IsRawLine line rest) :
    (lines (line ++ rest)).length = (lines rest).length + 1 := by
  rcases raw with ⟨run, isRun, rfl⟩ | ⟨isRun, filled, rfl⟩
  · rw [List.append_assoc, List.singleton_append, Console.lines_run_append isRun, List.length_cons]
  · rw [List.append_nil, Console.lines_run isRun, if_neg filled, Console.lines_nil]
    rfl

theorem spells_encode_iff (text : String) (words : List String) :
    Spells (encode text) words ↔ lower (trim text) ∈ words := by
  constructor
  · rintro ⟨other, same, spelled⟩
    rwa [← lossyText_encode text, same, lossyText_encode]
  · intro spelled
    exact ⟨text, rfl, spelled⟩

theorem lower_trim_eq_iff (text word : String) :
    lower (trim text) = word ↔ lowerChars (trimChars text.toList) = word.toList := by
  rw [lower, trim, String.toList_ofList]
  constructor
  · rintro rfl
    rw [String.toList_ofList]
  · intro same
    rw [same, String.ofList_toList]

theorem replyOf_encode (text : String) :
    replyOf (encode text) =
      if lower (trim text) ∈ assents then .yes
      else if lower (trim text) ∈ refusals then .no
      else .unclear := by
  simp [replyOf, strictChars?_encode, assents, refusals, lower_trim_eq_iff]

theorem replyOf_garbled {line : Bytes} (garbled : ¬∃ text, line = encode text) :
    replyOf line = .yes := by
  rw [replyOf, (strictChars?_eq_none_iff line).mpr garbled]

/-- No word is both a yes and a no. -/
theorem not_mem_assents {word : String} (refused : word ∈ refusals) : word ∉ assents := by
  simp only [refusals, List.mem_cons, List.not_mem_nil, or_false] at refused
  rcases refused with rfl | rfl
  · decide
  · decide

theorem replyOf_eq_no_iff (line : Bytes) : replyOf line = .no ↔ Spells line refusals := by
  by_cases written : ∃ text, line = encode text
  · obtain ⟨text, rfl⟩ := written
    rw [replyOf_encode, spells_encode_iff]
    by_cases refused : lower (trim text) ∈ refusals
    · simp [refused, not_mem_assents refused]
    · simp only [refused, if_false, iff_false]
      split <;> simp
  · rw [replyOf_garbled written]
    simp only [reduceCtorEq, false_iff]
    exact fun spelled => written ⟨spelled.choose, spelled.choose_spec.1⟩

theorem replyOf_eq_yes_iff (line : Bytes) :
    replyOf line = .yes ↔ (¬∃ text, line = encode text) ∨ Spells line assents := by
  by_cases written : ∃ text, line = encode text
  · obtain ⟨text, rfl⟩ := written
    rw [replyOf_encode, spells_encode_iff]
    by_cases assented : lower (trim text) ∈ assents
    · simp [assented]
    · simp only [assented, if_false, or_false, exists_apply_eq_apply', not_true, iff_false]
      split <;> simp
  · simp [replyOf_garbled written, written]

theorem replyOf_eq_unclear_iff (line : Bytes) : replyOf line = .unclear ↔ IsUndecided line := by
  by_cases written : ∃ text, line = encode text
  · obtain ⟨text, rfl⟩ := written
    rw [replyOf_encode, IsUndecided, spells_encode_iff, List.mem_append]
    by_cases assented : lower (trim text) ∈ assents
    · simp [assented]
    · by_cases refused : lower (trim text) ∈ refusals <;> simp [assented, refused]
  · simp [replyOf_garbled written, IsUndecided, written]

/-! ### One question -/

/-- What is read for one question: lines that do not settle it, and what does, which is nothing at
the end of the input. -/
structure Hearing where
  undecided : List Bytes
  deciding : Bytes

/-- Lines are read until one settles the question; `rest` is left. -/
inductive Hears : Bytes → Hearing → Bytes → Prop
  | ended : Hears [] ⟨[], []⟩ []
  | decided {line rest : Bytes} : IsRawLine line rest → ¬IsUndecided line →
    Hears (line ++ rest) ⟨[], line⟩ rest
  | undecided {line more rest : Bytes} {hearing : Hearing} : IsRawLine line more →
    IsUndecided line → Hears more hearing rest →
    Hears (line ++ more) { hearing with undecided := line :: hearing.undecided } rest

/-- The question for the attempt of a number. -/
def invitation (number limit : Nat) : String :=
  "RETRY RUNNING THIS BENCHMARK? (attempt " ++ toString number ++ "/" ++ toString limit ++
    ") [Y/n] "

/-- What is written in one call: the question for each read, and the correction for each line that
does not settle it. -/
def Hearing.script (hearing : Hearing) (number limit : Nat) : String :=
  String.join (hearing.undecided.map fun _ =>
    invitation number limit ++ "PLEASE ANSWER y OR n\n") ++ invitation number limit

/-- The reads of a call: one for each line that does not settle the question, and one more. -/
def Hearing.reads (hearing : Hearing) : Nat :=
  hearing.undecided.length + 1

/-- How a prompt answers a call after an attempt of a number; `before` was written before it. -/
structure Answers (before : String) (attempt limit : Nat) (prompt : Prompt) (hearing : Hearing)
    (asked : Asked) : Prop where
  hears : Hears prompt.input hearing asked.prompt.input
  reads : asked.prompt.reads = prompt.reads + hearing.reads
  no_iff : asked.answer = false ↔ Spells hearing.deciding refusals
  yes_iff : asked.answer = true ↔ hearing.deciding = [] ∨
    (¬∃ text, hearing.deciding = encode text) ∨ Spells hearing.deciding assents
  written : asked.written = before ++ hearing.script (attempt + 1) limit

theorem question_eq_invitation {attempt maxAttempts : UInt32} (below : attempt < maxAttempts) :
    question attempt maxAttempts = invitation (attempt.toNat + 1) maxAttempts.toNat := by
  rw [← toNat_next below]
  rfl

theorem script_undecided (line : Bytes) (hearing : Hearing) (number limit : Nat) :
    Hearing.script { hearing with undecided := line :: hearing.undecided } number limit =
      invitation number limit ++ correction ++ hearing.script number limit := by
  simp only [Hearing.script, correction, List.map_cons, String.join_cons, String.append_assoc]

theorem not_spells_nil : ¬Spells [] refusals := by
  rintro ⟨text, none, spelled⟩
  have empty : text = "" := by
    rw [← lossyText_encode text, ← none]
    rfl
  subst empty
  exact absurd spelled (by decide)

section Call

variable {before : String} {attempt limit : Nat} {prompt : Prompt} {asked : Asked}

/-- The line settles the question: the two answers exclude each other. -/
theorem answers_of_decided {line : Bytes} (raw : IsRawLine line asked.prompt.input)
    (input : prompt.input = line ++ asked.prompt.input)
    (reads : asked.prompt.reads = prompt.reads + 1)
    (written : asked.written = before ++ invitation (attempt + 1) limit)
    (reply : replyOf line = if asked.answer then .yes else .no) :
    Answers before attempt limit prompt ⟨[], line⟩ asked := by
  have no_iff := replyOf_eq_no_iff line
  have yes_iff := replyOf_eq_yes_iff line
  have unclear_iff := replyOf_eq_unclear_iff line
  rw [reply] at no_iff yes_iff unclear_iff
  refine ⟨?_, reads, ?_, ?_, ?_⟩
  · -- A line that is answered is not undecided.
    rw [input]
    refine .decided raw fun undecided => ?_
    have unclear := unclear_iff.mpr undecided
    split at unclear <;> cases unclear
  · rw [← no_iff]
    cases asked.answer <;> simp
  · rw [or_iff_right raw.ne_nil, ← yes_iff]
    cases asked.answer <;> simp
  · rw [written]
    exact congrArg (before ++ ·) String.empty_append.symm

/-- At the end of the input the answer is yes. -/
theorem answers_of_ended (input : prompt.input = []) (left : asked.prompt.input = [])
    (reads : asked.prompt.reads = prompt.reads + 1)
    (written : asked.written = before ++ invitation (attempt + 1) limit)
    (yes : asked.answer = true) : Answers before attempt limit prompt ⟨[], []⟩ asked := by
  refine ⟨?_, reads, ?_, ?_, ?_⟩
  · rw [input, left]
    exact .ended
  · simp [yes, not_spells_nil]
  · simp [yes]
  · rw [written]
    exact congrArg (before ++ ·) String.empty_append.symm

/-- After a line that does not settle the question, the correction is written and the question is
put again. -/
theorem Answers.again {corrected : String} {after : Prompt} {line : Bytes} {hearing : Hearing}
    (answers : Answers corrected attempt limit after hearing asked)
    (raw : IsRawLine line after.input) (undecided : IsUndecided line)
    (input : prompt.input = line ++ after.input) (reads : after.reads = prompt.reads + 1)
    (wrote : corrected = before ++ invitation (attempt + 1) limit ++ correction) :
    Answers before attempt limit prompt { hearing with undecided := line :: hearing.undecided }
      asked where
  hears := by
    rw [input]
    exact .undecided raw undecided answers.hears
  reads := by
    rw [answers.reads, reads, Hearing.reads, Hearing.reads, List.length_cons]
    omega
  no_iff := answers.no_iff
  yes_iff := answers.yes_iff
  written := by
    rw [answers.written, wrote, script_undecided]
    simp only [String.append_assoc]

end Call

namespace Prompt

variable {raisesOn : Nat → Bool} {attempt maxAttempts : UInt32} {written : String} {prompt : Prompt}

/-- Nobody raises a flag that the prompt looks at. -/
def IsCalm (raisesOn : Nat → Bool) (prompt : Prompt) : Prop :=
  prompt.interruptible = true → prompt.raised = false ∧ ∀ number, raisesOn number = false

namespace IsCalm

variable (calm : prompt.IsCalm raisesOn)
include calm

theorem not_isInterrupted : ¬prompt.isInterrupted = true := by
  rw [isInterrupted, Bool.and_eq_true]
  rintro ⟨looks, raised⟩
  rw [(calm looks).1] at raised
  cases raised

theorem reading (input : Bytes) : { prompt.reading raisesOn with input }.IsCalm raisesOn := by
  intro looks
  obtain ⟨lowered, quiet⟩ := calm looks
  exact ⟨by simp [Prompt.reading, lowered, quiet], quiet⟩

/-- A call hears lines up to the first one that settles it. -/
theorem ask (below : attempt < maxAttempts) :
    (prompt.ask raisesOn attempt maxAttempts written).prompt.IsCalm raisesOn ∧
      ∃ hearing, Answers written attempt.toNat maxAttempts.toNat prompt hearing
        (prompt.ask raisesOn attempt maxAttempts written) := by
  have wording := question_eq_invitation below
  -- The flag is never found up, so the cases in which it is looked for and found are void.
  fun_induction Prompt.ask raisesOn attempt maxAttempts written prompt with
  | case1 written prompt interrupted => exact absurd interrupted calm.not_isInterrupted
  | case2 written prompt early asking after ended interrupted =>
    exact absurd interrupted (calm.reading prompt.input).not_isInterrupted
  | case3 written prompt early asking after ended quiet =>
    refine ⟨calm.reading prompt.input, ⟨[], []⟩, answers_of_ended ended ended rfl ?_ rfl⟩
    rw [← wording]
  | case4 written prompt early asking after byte rest input line next interrupted =>
    exact absurd interrupted (calm.reading line.2).not_isInterrupted
  | case5 written prompt early asking after byte rest input line next quiet yes =>
    have raw := isRawLine_readRaw byte rest
    rw [← readRaw_append (byte :: rest)] at input
    refine ⟨calm.reading line.2, _, answers_of_decided raw input rfl ?_ yes⟩
    rw [← wording]
  | case6 written prompt early asking after byte rest input line next quiet no =>
    have raw := isRawLine_readRaw byte rest
    rw [← readRaw_append (byte :: rest)] at input
    refine ⟨calm.reading line.2, _, answers_of_decided raw input rfl ?_ no⟩
    rw [← wording]
  | case7 written prompt early asking after byte rest input line next quiet unclear ih =>
    have raw := isRawLine_readRaw byte rest
    have undecided := (replyOf_eq_unclear_iff _).mp unclear
    rw [← readRaw_append (byte :: rest)] at input
    -- What is heard for the question put again comes behind the undecided line.
    obtain ⟨still, hearing, answers⟩ := ih (calm.reading line.2)
    refine ⟨still, { hearing with undecided := line.1 :: hearing.undecided }, ?_⟩
    apply answers.again raw undecided input rfl
    rw [← wording]

end IsCalm

end Prompt

/-! ### Several calls -/

/-- The calls of one prompt, one after the other, each after an attempt of a number out of so
many. -/
def Prompt.askAll (raisesOn : Nat → Bool) : List (UInt32 × UInt32) → Prompt → List Asked
  | [], _ => []
  | (attempt, maxAttempts) :: calls, prompt =>
    let asked := prompt.ask raisesOn attempt maxAttempts ""
    asked :: asked.prompt.askAll raisesOn calls

/-- Every call is answered by what it hears, and goes on where the last one stopped. -/
inductive Converses : List (UInt32 × UInt32) → Prompt → List Asked → List Hearing → Prop
  | done {prompt : Prompt} : Converses [] prompt [] []
  | next {attempt maxAttempts : UInt32} {calls : List (UInt32 × UInt32)} {prompt : Prompt}
    {asked : Asked} {others : List Asked} {hearing : Hearing} {hearings : List Hearing} :
    Answers "" attempt.toNat maxAttempts.toNat prompt hearing asked →
    Converses calls asked.prompt others hearings →
    Converses ((attempt, maxAttempts) :: calls) prompt (asked :: others) (hearing :: hearings)

/-- The reads of several calls. -/
def totalReads : List Hearing → Nat
  | [] => 0
  | hearing :: others => hearing.reads + totalReads others

/-- Every read but the last one of a call takes a line away. -/
theorem Hears.reads_le {input rest : Bytes} {hearing : Hearing} (hears : Hears input hearing rest) :
    hearing.reads + (lines rest).length ≤ (lines input).length + 1 := by
  induction hears with
  | ended => exact Nat.le_of_eq (Nat.add_comm _ _)
  | decided raw _ =>
    rw [length_lines_raw raw, Hearing.reads, List.length_nil]
    omega
  | undecided raw _ _ ih =>
    rw [Hearing.reads] at ih ⊢
    rw [length_lines_raw raw, List.length_cons]
    omega

theorem Converses.reads_le {calls : List (UInt32 × UInt32)} {prompt : Prompt}
    {askeds : List Asked} {hearings : List Hearing}
    (converses : Converses calls prompt askeds hearings) :
    totalReads hearings ≤ (lines prompt.input).length + calls.length := by
  induction converses with
  | done => exact Nat.zero_le _
  | next answers _ ih =>
    have taken := answers.hears.reads_le
    rw [totalReads, List.length_cons]
    omega

theorem Prompt.IsCalm.askAll {raisesOn : Nat → Bool} {calls : List (UInt32 × UInt32)}
    {prompt : Prompt} (calm : prompt.IsCalm raisesOn)
    (below : ∀ call ∈ calls, call.1 < call.2) :
    ∃ hearings, Converses calls prompt (prompt.askAll raisesOn calls) hearings := by
  induction calls generalizing prompt with
  | nil => exact ⟨[], .done⟩
  | cons call calls ih =>
    obtain ⟨first, others⟩ := List.forall_mem_cons.mp below
    obtain ⟨still, hearing, answers⟩ := calm.ask first
    obtain ⟨hearings, converses⟩ := ih still others
    exact ⟨hearing :: hearings, .next answers converses⟩

/-- Whatever is typed, every call at a calm prompt is settled by one read, which follows reads of
undecided lines only; all calls together put no more questions than there are lines and calls. -/
theorem calm_prompt_converses (raisesOn : Nat → Bool) (calls : List (UInt32 × UInt32))
    (prompt : Prompt) (calm : prompt.IsCalm raisesOn) (below : ∀ call ∈ calls, call.1 < call.2) :
    ∃ hearings, Converses calls prompt (prompt.askAll raisesOn calls) hearings ∧
      totalReads hearings ≤ (lines prompt.input).length + calls.length := by
  obtain ⟨hearings, converses⟩ := calm.askAll below
  exact ⟨hearings, converses, converses.reads_le⟩

/-- Two calls for the lines `maybe` and `No`: the first one hears both, the second one the end of
the input. -/
theorem calm_prompt_converses_twice :
    let prompt : Prompt := { input := encode "maybe\n No\n" }
    let askeds := prompt.askAll (fun _ => false) [(1, 3), (2, 3)]
    askeds.map Asked.answer = [false, true] ∧
      ∃ hearings, Converses [(1, 3), (2, 3)] prompt askeds hearings ∧ totalReads hearings ≤ 4 := by
  intro prompt askeds
  have two : (lines prompt.input).length = 2 := by decide +kernel
  have conversation := calm_prompt_converses (fun _ => false) [(1, 3), (2, 3)] prompt
    (fun _ => ⟨rfl, fun _ => rfl⟩) (by simp)
  rw [two] at conversation
  exact ⟨by decide +kernel, conversation⟩

end BoardBench.Retry
