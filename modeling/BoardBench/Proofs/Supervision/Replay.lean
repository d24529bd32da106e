import BoardBench.CommandLine.Program
import BoardBench.Proofs.Supervision.Telemetry

/-!
# Live extraction and replay

The rows of an execution are those that parsing extracts later, from a log of the output or from the
transcript written out again. Live reading stops at the closing line, parsing of a log too, a
scanner fed by hand reads on: all of them see the same window, since it does not change once it is
closed.
-/
namespace BoardBench

open CommandLine (parseWindow)
open Console (IsLine Source Window lineFeed lines)

/-! ### Parsing -/

namespace CommandLine

theorem parseWindow_eq_feedAll (log : Bytes) :
    parseWindow log = ({} : Window).feedAll (lines log) :=
  Window.feedUntilClosed_eq_feedAll {} (lines log)

variable {texts : List String} (areLines : ∀ text ∈ texts, IsLine text)
include areLines

theorem parseWindow_join :
    parseWindow (encode (join "\n" texts)) = ({} : Window).feedAll texts := by
  rw [parseWindow_eq_feedAll, Console.lines_encode_join areLines, Window.feedAll_dropBlank]

theorem parseWindow_printed :
    parseWindow (encode (printed texts)) = ({} : Window).feedAll texts := by
  rw [parseWindow_eq_feedAll, Console.lines_encode_printed areLines]

omit areLines

/-- Once the window is closed, the rest of a log does not count. -/
theorem parseWindow_append {head : Bytes} (finished : (parseWindow head).isFinished = true)
    (tail : Bytes) : parseWindow (head ++ lineFeed :: tail) = parseWindow head := by
  obtain ⟨more, split⟩ := Console.lines_append_lineFeed head tail
  rw [parseWindow_eq_feedAll] at finished
  rw [parseWindow_eq_feedAll, parseWindow_eq_feedAll, split, Window.feedAll_append,
    Window.feedAll_finished finished]

end CommandLine

namespace Supervision

variable {patience : Patience} {request : Request} {raisesOn : Nat → Bool} {flag : Bool}
  {child : Child} {outcome : Outcome}

section Concluded

variable {texts : List String} (concludes : outcome.Concludes request texts)
  (monitored : request.monitored = true) (inTime : outcome.exit ≠ .timedOut)
include concludes monitored inTime

theorem feedAll_transcript :
    ({} : Window).feedAll outcome.transcript = ({} : Window).feedAll texts := by
  rw [transcript_eq_untilClosed concludes monitored inTime, Window.feedAll_untilClosed]

theorem rows_eq_feedAll : outcome.rows = (({} : Window).feedAll texts).rows := by
  rw [← feedAll_transcript concludes monitored inTime]
  cases concludes with
  | cutOff dated late => exact absurd late inTime
  | exhausted whole unclosed none =>
    rw [Request.windowOf, if_pos monitored] at unclosed
    rw [none, Window.rows, unclosed]
    rfl
  | closed before last after _ _ split whole unclosed closed rows => exact rows

end Concluded

/-- An execution that did not run out of time yields what a replay of its output yields, and what a
replay of its transcript yields. What comes after the line that closes the window plays no part. -/
theorem live_eq_replay
    (finished : (execute patience request raisesOn flag child).result = .ok outcome)
    (monitored : request.monitored = true) (inTime : outcome.exit ≠ .timedOut) (source : Source)
    (written : source.bytes = child.output) :
    (execute patience request raisesOn flag child).session.seen = outcome.transcript ∧
      outcome.transcript = ({} : Window).untilClosed source.drain.1 ∧
      outcome.rows = (({} : Window).feedAll source.drain.1).rows ∧
      outcome.rows = (parseWindow child.output).rows ∧
      parseWindow (encode (join "\n" outcome.transcript)) = parseWindow child.output ∧
      parseWindow (encode (printed outcome.transcript)) = parseWindow child.output ∧
      ∀ head tail, child.output = head ++ lineFeed :: tail → (parseWindow head).isFinished = true →
        outcome.transcript = ({} : Window).untilClosed (lines head) ∧
          outcome.rows = (parseWindow head).rows ∧
          ∀ other, parseWindow (head ++ lineFeed :: other) = parseWindow head := by
  obtain ⟨shown, concludes⟩ := execute_ok finished
  have drained : source.drain.1 = lines child.output := by
    rw [(Console.drain_spec source).1, written]
  have transcript := transcript_eq_untilClosed concludes monitored inTime
  have rows := rows_eq_feedAll concludes monitored inTime
  have replayed := feedAll_transcript concludes monitored inTime
  -- Transcript lines were read as lines, so they can be written and read again.
  have areLines : ∀ text ∈ outcome.transcript, IsLine text := by
    intro text member
    rw [transcript] at member
    exact Console.isLine_of_mem_lines ((Window.untilClosed_prefix _ _).subset member)
  rw [← CommandLine.parseWindow_eq_feedAll] at rows replayed
  refine ⟨shown, drained ▸ transcript, ?_, rows, ?_, ?_, ?_⟩
  · rw [drained, ← CommandLine.parseWindow_eq_feedAll, rows]
  · rw [CommandLine.parseWindow_join areLines, replayed]
  · rw [CommandLine.parseWindow_printed areLines, replayed]
  -- The lines of the head alone close the window, so those after them are not read.
  · intro head tail split closes
    obtain ⟨more, splits⟩ := Console.lines_append_lineFeed head tail
    have early := closes
    rw [CommandLine.parseWindow_eq_feedAll] at early
    refine ⟨?_, ?_, CommandLine.parseWindow_append closes⟩
    · rw [transcript, split, splits, Window.untilClosed_append rfl early]
    · rw [rows, split, CommandLine.parseWindow_append closes]

theorem rows_of_terminal_replayed :
    ∃ outcome, (execute {} terminalRequest (fun _ => false) false terminal).result = .ok outcome ∧
      outcome.exit ≠ .timedOut ∧ outcome.rows = (parseWindow terminal.output).rows ∧
      outcome.rows ≠ [] := by
  obtain ⟨outcome, finished⟩ := execute_undisturbed {} terminalRequest terminal rfl
  have inTime : outcome.exit ≠ .timedOut :=
    exit_ne_timedOut_of_closed (execute_ok finished).2 rfl rfl (by decide +kernel)
  have written : (Source.ofBytes terminal.output).bytes = terminal.output := List.append_nil _
  obtain ⟨-, -, -, rows, -⟩ :=
    live_eq_replay finished rfl inTime (Source.ofBytes terminal.output) written
  refine ⟨outcome, finished, inTime, rows, ?_⟩
  rw [rows]
  decide +kernel

end Supervision

end BoardBench
