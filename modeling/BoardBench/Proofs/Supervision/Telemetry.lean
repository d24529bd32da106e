import BoardBench.Proofs.Supervision.Undisturbed
import BoardBench.Proofs.Telemetry.Table

/-!
# When an execution yields telemetry

Whether an outcome has rows can be told from its transcript: the last line has to close the window
that an earlier one opened, and what the window captured has to be a filled table. Reading stops at
the closing line, so such a transcript can only come from an execution that read it, and no timeout
can strike after that.
-/
namespace BoardBench

open Console (Window lines normalize isOpening isClosing isCaptured)
open Telemetry (IsFilledTable parseRows)

/-- Normalized lines that end with the closing of a window in which a filled table stands. -/
def ShowsTelemetry (texts : List String) : Prop :=
  ∃ before opening between closing, texts = before ++ opening :: between ++ [closing] ∧
    (∀ text ∈ before, isOpening text = false) ∧ isOpening opening = true ∧
    isClosing closing = true ∧ IsFilledTable (between.filter isCaptured)

namespace Console.Window

/-- As long as the window is open, no line after the opening one has closed it. -/
theorem unclosed_of_unfinished {before between : List String} {opening : String}
    (closed : ∀ text ∈ before, isOpening text = false) (opens : isOpening opening = true)
    (unfinished : (({} : Window).scan (before ++ opening :: between)).isFinished = false) :
    ∀ text ∈ between, isClosing text = false := by
  intro text member
  by_contra closes
  rw [Bool.not_eq_false] at closes
  -- A closing line in between would have finished the window.
  obtain ⟨within, after, split⟩ := List.append_of_mem member
  have finished := (isFinished_scan_iff (before ++ opening :: between)).mpr
    ⟨before, opening, within, text, after, by simp [split], closed, opens, closes⟩
  rw [unfinished] at finished
  cases finished

/-- The line that finishes a window is a closing one, and an opening one stands before it. -/
theorem finished_by_last {init : List String} {last : String}
    (unfinished : (({} : Window).scan init).isFinished = false)
    (finished : (({} : Window).scan (init ++ [last])).isFinished = true) :
    isClosing last = true ∧ ∃ before opening between, init = before ++ opening :: between ∧
      (∀ text ∈ before, isOpening text = false) ∧ isOpening opening = true := by
  obtain ⟨before, opening, within, closing, after, split, closed, opens, closes⟩ :=
    (isFinished_scan_iff (init ++ [last])).mp finished
  cases after using List.reverseRecOn with
  | nil =>
    obtain ⟨front, same⟩ := List.append_inj' split rfl
    have ending : last = closing := by simpa using same
    exact ⟨ending ▸ closes, before, opening, within, front, closed, opens⟩
  | append_singleton rest final =>
    -- A closing line before the last one would have finished the window already.
    have front : init = before ++ opening :: within ++ closing :: rest := by
      rw [← List.cons_append, ← List.append_assoc] at split
      exact (List.append_inj' split rfl).1
    have early := (isFinished_scan_iff init).mpr
      ⟨before, opening, within, closing, rest, front, closed, opens, closes⟩
    rw [unfinished] at early
    cases early

theorem rows_of_finished {before between : List String} {opening closing : String}
    (closed : ∀ text ∈ before, isOpening text = false) (opens : isOpening opening = true)
    (unclosed : ∀ text ∈ between, isClosing text = false) (closes : isClosing closing = true) :
    (({} : Window).scan (before ++ opening :: between ++ [closing])).rows =
      parseRows (between.filter isCaptured) := by
  rw [scan_closed closed opens unclosed closes []]
  rfl

/-- A window that its last line has closed has rows exactly if the lines show telemetry. -/
theorem rows_ne_nil_iff {init : List String} {last : String}
    (unfinished : (({} : Window).scan init).isFinished = false)
    (finished : (({} : Window).scan (init ++ [last])).isFinished = true) :
    (({} : Window).scan (init ++ [last])).rows ≠ [] ↔ ShowsTelemetry (init ++ [last]) := by
  constructor
  · intro rows
    obtain ⟨closes, before, opening, between, split, closed, opens⟩ :=
      finished_by_last unfinished finished
    subst split
    have unclosed := unclosed_of_unfinished closed opens unfinished
    rw [rows_of_finished closed opens unclosed closes, Telemetry.parseRows_ne_nil_iff] at rows
    exact ⟨before, opening, between, last, rfl, closed, opens, closes, rows⟩
  -- The two ways of cutting off the last line have to agree.
  · rintro ⟨before, opening, between, closing, split, closed, opens, closes, filled⟩
    obtain ⟨front, same⟩ := List.append_inj' split rfl
    rw [front] at unfinished
    have unclosed := unclosed_of_unfinished closed opens unfinished
    rw [split, rows_of_finished closed opens unclosed closes, Telemetry.parseRows_ne_nil_iff]
    exact filled

end Console.Window

theorem ShowsTelemetry.isFinished {lines : List String}
    (shows : ShowsTelemetry (lines.map normalize)) :
    (({} : Window).feedAll lines).isFinished = true := by
  obtain ⟨before, opening, between, closing, split, closed, opens, closes, -⟩ := shows
  rw [Window.feedAll_eq_scan, Window.isFinished_scan_iff]
  exact ⟨before, opening, between, closing, [], split, closed, opens, closes⟩

namespace Supervision

variable {patience : Patience} {request : Request} {raisesOn : Nat → Bool} {flag : Bool}
  {child : Child} {outcome : Outcome}

theorem rows_iff_of_concludes {texts : List String} (concludes : outcome.Concludes request texts) :
    outcome.rows ≠ [] ↔
      request.monitored = true ∧ ShowsTelemetry (outcome.transcript.map normalize) := by
  -- Telemetry in the transcript finishes the window, which two of the three endings exclude.
  have excluded (unclosed : (request.windowOf outcome.transcript).isFinished = false) :
      ¬(request.monitored = true ∧ ShowsTelemetry (outcome.transcript.map normalize)) := by
    rintro ⟨monitored, shows⟩
    rw [Request.windowOf, if_pos monitored, shows.isFinished] at unclosed
    cases unclosed
  cases concludes with
  | cutOff dated late unclosed none => simp [none, excluded unclosed]
  | exhausted whole unclosed none => simp [none, excluded unclosed]
  | closed before last after monitored inTime split whole unclosed closed rows =>
    rw [split, Window.feedAll_eq_scan, List.map_append] at closed rows
    rw [Window.feedAll_eq_scan] at unclosed
    rw [rows, split, List.map_append]
    simpa [monitored] using Window.rows_ne_nil_iff unclosed closed

/-- An outcome has rows exactly if the command was monitored and its transcript shows telemetry. So
there are none when time ran out, when the window never closed, and when it never opened. -/
theorem rows_iff_showsTelemetry
    (finished : (execute patience request raisesOn flag child).result = .ok outcome) :
    (outcome.rows ≠ [] ↔
      request.monitored = true ∧ ShowsTelemetry (outcome.transcript.map normalize)) ∧
      (outcome.exit = .timedOut → outcome.rows = []) ∧
      ((({} : Window).feedAll outcome.transcript).isFinished = false → outcome.rows = []) ∧
      ((∀ line ∈ outcome.transcript, isOpening (normalize line) = false) → outcome.rows = []) := by
  have concludes := (execute_ok finished).2
  have rows_iff := rows_iff_of_concludes concludes
  refine ⟨rows_iff, ?_, ?_, ?_⟩
  · intro late
    cases concludes with
    | cutOff _ _ _ none => exact none
    | exhausted _ _ none => exact none
    | closed _ _ _ _ inTime => exact absurd late inTime
  · intro unfinished
    by_contra rows
    have shows := (rows_iff.mp rows).2
    rw [shows.isFinished] at unfinished
    cases unfinished
  -- Rows would need an opening line in the transcript.
  · intro unopened
    by_contra rows
    obtain ⟨before, opening, between, closing, split, -, opens, -⟩ := (rows_iff.mp rows).2
    have member : opening ∈ outcome.transcript.map normalize := by simp [split]
    obtain ⟨line, among, same⟩ := List.mem_map.mp member
    rw [← same, unopened line among] at opens
    cases opens

def terminalRequest : Request where
  command := ["make", "term"]
  cwd := "/"
  monitored := true

/-- A device that prints a table of one row and is then reset. -/
def terminal : Child where
  leader := { ends := 50 }
  writes := [(10, encode "=== Benchmark Begins ===\niteration;time\n1;2\n"),
    (20, encode "=== Benchmark End ===\nbooting")]

theorem rows_of_terminal :
    ∃ outcome, (execute {} terminalRequest (fun _ => false) false terminal).result = .ok outcome ∧
      outcome.rows ≠ [] := by
  obtain ⟨outcome, finished⟩ := execute_undisturbed {} terminalRequest terminal rfl
  have concludes := (execute_ok finished).2
  have inTime := exit_ne_timedOut_of_closed concludes rfl rfl (by decide +kernel)
  refine ⟨outcome, finished, (rows_iff_showsTelemetry finished).1.mpr ⟨rfl, ?_⟩⟩
  rw [transcript_eq_untilClosed concludes rfl inTime]
  have recorded : (({} : Window).untilClosed (lines terminal.output)).map normalize =
      [] ++ "=== Benchmark Begins ===" :: ["iteration;time", "1;2"] ++
        ["=== Benchmark End ==="] := by
    decide +kernel
  rw [recorded]
  refine ⟨_, _, _, _, rfl, by simp, by decide, by decide, [], "iteration;time", ["1;2"], by decide,
    by simp, by decide, by decide, "1;2", by simp, by decide⟩

end Supervision

end BoardBench
