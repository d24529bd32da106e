import BoardBench.Proofs.Console.Scanning
import BoardBench.Proofs.Supervision.Leader
import BoardBench.Proofs.Supervision.Telemetry
import BoardBench.Proofs.Supervision.Timing

/-!
# How an exit comes about

Main result: an execution is timed out if its deadline cut off the reading, or if the stream closed
and the leader was still running when the wait for it was over. Then the window was not closed, and
there are no rows. A window that was closed is never lost to a timeout: the leader is asked to end,
and the exit is what it made of that within the grace window, or that it was killed. In all other
cases the exit is the leader's own.

Proof strategy: reading takes no time of its own, so it is known when each line was read and when
the stream was found closed. From there the wait and the teardown are followed on the clock, and
each way in which reading ends leads to its own kind of exit.
-/
namespace BoardBench.Supervision

open Console (Scan Window normalize)

/-! ### What the scanner reported -/

/-- The scanner was at work and reported on one of these lines that it closes the window. -/
def Request.HasClosed (request : Request) (transcript : List String) : Prop :=
  request.monitored = true ∧ Scan.closed ∈ (({} : Window).takeAll (transcript.map .raw)).1

theorem insideScan_ne_closed (text : String) : Console.insideScan text ≠ .closed := by
  unfold Console.insideScan
  split
  · simp
  · split <;> simp

theorem closed_mem_scans_iff (texts : List String) :
    Scan.closed ∈ ({} : Window).scans texts ↔ (({} : Window).scan texts).isFinished = true := by
  cases Console.shape texts with
  | outside unopened =>
    rw [Window.scans_outside unopened, Window.scan_outside unopened]
    simp [Window.isFinished]
  | inside unopened opens unclosed =>
    rw [Window.scans_opened unopened opens unclosed, Window.scan_opened unopened opens unclosed]
    simp [Window.isFinished, insideScan_ne_closed]
  | finished after unopened opens unclosed closes =>
    have scanned := Window.scan_closed unopened opens unclosed closes after
    rw [List.append_assoc, List.cons_append] at scanned
    rw [Window.scans_closed unopened opens unclosed closes, scanned]
    simp [Window.isFinished]

theorem hasClosed_iff (request : Request) (transcript : List String) :
    request.HasClosed transcript ↔ (request.windowOf transcript).isFinished = true := by
  have texts : (transcript.map Console.Feeding.raw).map Console.Feeding.text =
      transcript.map normalize := by
    rw [List.map_map]
    rfl
  rw [Request.HasClosed, Window.takeAll_eq, texts, closed_mem_scans_iff, ← Window.feedAll_eq_scan,
    Request.windowOf]
  by_cases monitored : request.monitored = true
  · simp [monitored]
  · simp [monitored, Window.isFinished]

/-! ### The end of reading -/

/-- How reading ends, on the clock. -/
inductive Session.EndsReading (child : Child) (grace : Nat) : Stop → Session → Prop
  | interrupted {session : Session} : EndsReading child grace .interrupted session
  | cutOff {session : Session} : session.window.isFinished = false →
    EndsReading child grace .deadline session
  | drained {session : Session} : session.window.isFinished = false →
    session.handle.IsWatching child grace → session.handle.clock = child.drainedAt →
    EndsReading child grace .ended session
  | closed {session : Session} {handle : Handle} : session.window.isFinished = true →
    handle.IsWatching child grace → handle.clock = child.readAt session.transcript.length →
    session.handle = handle.terminate → EndsReading child grace .ended session

theorem Session.isFinished_of_closed {session : Session} {monitored : Bool}
    {raisesOn : Nat → Bool} {text : String} {next : Handle}
    (closed : (session.observe monitored raisesOn text next).1 = .closed) :
    (session.observe monitored raisesOn text next).2.window.isFinished = true := by
  cases monitored with
  | true => exact ((Window.closed_iff _ _).mp closed).2
  -- Nothing is reported of a line that is not monitored.
  | false => simp [observe] at closed

theorem readLoop_endsReading (request : Request) (raisesOn : Nat → Bool) {texts : List String}
    {child : Child} {grace : Nat} {session : Session} (reading : session.IsReading request texts)
    (watching : session.handle.IsWatching child grace)
    (punctual : session.handle.IsPunctual child session.transcript.length) :
    Session.EndsReading child grace (readLoop request raisesOn session).1
      (readLoop request raisesOn session).2 := by
  fun_induction readLoop request raisesOn session with
  | case1 => exact .interrupted
  | case2 session running late => exact .cutOff reading.unclosed
  | case3 session running early text handle read observed closed =>
    -- The group is torn down at the time at which the closing line was read.
    have count : observed.2.transcript.length = session.transcript.length + 1 := by
      simp [observed, Session.observe]
    have finished : observed.2.terminate.window.isFinished = true :=
      Session.isFinished_of_closed closed
    apply Session.EndsReading.closed finished (watching.readLine read)
    · exact (punctual.line read).2.trans (congrArg child.readAt count.symm)
    · exact congrArg Handle.terminate (Session.handle_observe ..)
  | case4 session running early text handle read observed unclosed ih =>
    have count : observed.2.transcript.length = session.transcript.length + 1 := by
      simp [observed, Session.observe]
    have same : observed.2.handle = handle := Session.handle_observe ..
    apply ih (reading.observe read unclosed)
    · rw [same]
      exact watching.readLine read
    · rw [same, count]
      exact (punctual.line read).1
  | case5 session running early handle read ih =>
    -- The clock has moved, but not past the next line.
    have idle := punctual.idle read
    have watched := watching.readLine read
    obtain ⟨rfl, -⟩ := Handle.readLine_idle read
    exact ih ⟨reading.shown, reading.window, reading.whole, reading.unclosed, reading.unreleased⟩
      watched idle
  | case6 session running early handle read =>
    have drained := punctual.closed watching.untouched read
    exact .drained reading.unclosed (watching.readLine read) drained

/-! ### The exit -/

section Classification

variable {patience : Patience} {request : Request} {raisesOn : Nat → Bool} {flag : Bool}
  {child : Child} {outcome : Outcome}

theorem exitAfter_of_ok {reading : Stop × Session}
    (reads : readLoop request raisesOn { handle := Handle.launch child patience.grace, flag } =
      reading)
    (finished : (execute patience request raisesOn flag child).result = .ok outcome) :
    (exitAfter patience reading).1 = some outcome.exit ∧
      outcome.transcript = reading.2.transcript := by
  simp only [execute, reads] at finished
  -- From the end of reading on only the handle changes.
  have recorded : (exitAfter patience reading).2.transcript = reading.2.transcript := by
    rw [exitAfter_keeps]
  split at finished
  next => cases finished
  next exit session ends =>
    cases finished
    rw [ends] at recorded ⊢
    exact ⟨rfl, recorded⟩

theorem Session.HasRead.window_eq {texts : List String} {stop : Stop} {session : Session}
    (read : Session.HasRead request texts stop session) (running : stop ≠ .interrupted) :
    session.window = request.windowOf session.transcript := by
  cases read with
  | interrupted => exact absurd rfl running
  | cutOff _ reading => exact reading.window
  | exhausted reading => exact reading.window
  | closed _ _ _ monitored _ _ _ _ window =>
    rw [window, Request.windowOf, if_pos monitored]

/-- How the exit of an outcome comes about, by the reason for which reading stopped. -/
inductive Outcome.Exits (patience : Patience) (request : Request) (child : Child)
    (outcome : Outcome) : Stop → Prop
  | cutOff : ¬request.HasClosed outcome.transcript → outcome.exit = .timedOut →
    Exits patience request child outcome .deadline
  | drained : ¬request.HasClosed outcome.transcript →
    outcome.exit = (if child.leader.isAlive (patience.givesUp child.drainedAt) then .timedOut
      else .ended child.leader.status) → Exits patience request child outcome .ended
  | closed {kill : Nat} {left : Member} : request.HasClosed outcome.transcript →
    child.leader.IsStopped patience.grace (child.readAt outcome.transcript.length) kill left →
    outcome.exit = .ended left.status → Exits patience request child outcome .ended

theorem exits_of_ok
    (finished : (execute patience request raisesOn flag child).result = .ok outcome) :
    outcome.Exits patience request child (readLoop request raisesOn
      { handle := Handle.launch child patience.grace, flag }).1 := by
  have start := Session.IsReading.launch request child patience.grace flag
  have read := start.readLoop raisesOn
  have ends := readLoop_endsReading request raisesOn start
    ⟨rfl, rfl, rfl, fun status same => by cases same⟩
    (Handle.IsPunctual.launch child patience.grace)
  generalize reads : readLoop request raisesOn
    { handle := Handle.launch child patience.grace, flag } = reading at read ends ⊢
  obtain ⟨exited, recorded⟩ := exitAfter_of_ok reads finished
  obtain ⟨stop, session⟩ := reading
  simp only at recorded ends read ⊢
  -- Whether the window closed can be told from the record.
  have closed_iff (running : stop ≠ .interrupted) :
      request.HasClosed outcome.transcript ↔ session.window.isFinished = true := by
    rw [hasClosed_iff, recorded, read.window_eq running]
  cases ends with
  | interrupted => simp [exitAfter] at exited
  | cutOff unclosed =>
    apply Outcome.Exits.cutOff
    · rw [closed_iff (by simp), unclosed]
      simp
    · simpa [exitAfter] using exited.symm
  | drained unclosed watching clock =>
    apply Outcome.Exits.drained
    · rw [closed_iff (by simp), unclosed]
      simp
    · rw [exitAfter] at exited
      obtain interrupted | waited := exitLoop_of_isWatching patience watching
        (show session.handle.clock = session.handle.clock + pollInterval * 0 from rfl) (.inl rfl)
      · rw [interrupted] at exited
        cases exited
      · rw [waited, clock] at exited
        exact (Option.some.inj exited).symm
  | @closed _ handle closed watching clock torn =>
    have reaped := watching.terminate.reaped
    obtain ⟨kill, stopped⟩ := Handle.leader_terminate watching.unreleased
    rw [watching.untouched, watching.patient, clock, ← recorded] at stopped
    apply Outcome.Exits.closed ((closed_iff (by simp)).mpr closed) stopped
    rw [← torn] at reaped ⊢
    rw [exitAfter] at exited
    obtain interrupted | ended :=
      exitLoop_of_status (session.handle.clock + patience.exitWait) reaped
    · rw [interrupted] at exited
      cases exited
    · rw [ended] at exited
      exact (Option.some.inj exited).symm

theorem Outcome.Concludes.of_timedOut {texts : List String}
    (concludes : outcome.Concludes request texts) (late : outcome.exit = .timedOut) :
    outcome.rows = [] ∧ ¬request.HasClosed outcome.transcript := by
  rw [hasClosed_iff]
  cases concludes with
  | cutOff _ _ unclosed none => simp [none, unclosed]
  | exhausted _ unclosed none => simp [none, unclosed]
  | closed _ _ _ _ inTime => exact absurd late inTime

theorem Outcome.Concludes.of_hasClosed {texts : List String}
    (concludes : outcome.Concludes request texts)
    (closed : request.HasClosed outcome.transcript) :
    outcome.exit ≠ .timedOut ∧
      outcome.rows = Telemetry.parseRows (({} : Window).feedAll outcome.transcript).captured := by
  rw [hasClosed_iff] at closed
  cases concludes with
  | cutOff _ _ unclosed =>
    rw [unclosed] at closed
    cases closed
  | exhausted _ unclosed =>
    rw [unclosed] at closed
    cases closed
  | closed _ _ _ _ inTime _ _ _ finished rows =>
    rw [Window.rows, if_pos finished] at rows
    exact ⟨inTime, rows⟩

namespace Outcome.Exits

variable {stop : Stop} (exits : outcome.Exits patience request child stop)
include exits

theorem timedOut_iff :
    outcome.exit = .timedOut ↔ stop = .deadline ∨
      stop = .ended ∧ ¬request.HasClosed outcome.transcript ∧
        child.leader.isAlive (patience.givesUp child.drainedAt) = true := by
  cases exits with
  | cutOff unclosed late => simp [late]
  | drained unclosed exit =>
    rw [exit]
    split <;> simp_all
  | closed closed stopped exit => simp [exit, closed]

theorem exit_of_hasClosed (closed : request.HasClosed outcome.transcript)
    (alive : child.leader.isAlive (child.readAt outcome.transcript.length) = true) :
    ∃ kill status, kill < child.readAt outcome.transcript.length + patience.grace + reapPoll ∧
      child.leader.EndsAsked patience.grace (child.readAt outcome.transcript.length) kill status ∧
      outcome.exit = .ended status := by
  cases exits with
  | cutOff unclosed => exact absurd closed unclosed
  | drained unclosed => exact absurd closed unclosed
  | closed _ stopped exit => exact ⟨_, _, stopped.soon, stopped.endsAsked alive, exit⟩

theorem exit_of_undisturbed (inTime : outcome.exit ≠ .timedOut)
    (left : ¬(request.HasClosed outcome.transcript ∧
      child.leader.isAlive (child.readAt outcome.transcript.length) = true)) :
    outcome.exit = .ended child.leader.status := by
  cases exits with
  | cutOff _ late => exact absurd late inTime
  | drained unclosed exit =>
    rw [exit] at inTime ⊢
    split at inTime
    next => exact absurd rfl inTime
    next dead => rw [if_neg dead]
  | closed closed stopped exit =>
    -- The leader had ended before, so the teardown did not touch it.
    have dead : child.leader.isAlive (child.readAt outcome.transcript.length) = false := by
      simpa [closed] using left
    have ended := Member.ends_le_of_not_isAlive (by rw [child.leads]; exact Nat.zero_le _) dead
    rw [exit, stopped.eq_of_ends_le ended]

end Outcome.Exits

/-- An exit is a timeout exactly if reading was cut off by the deadline, or the stream closed first
and the leader was there when the wait for its exit was given up. Then the window was not closed and
there are no rows. A closed window is never lost to a timeout: its rows are the outcome's, and if
the leader was there when it closed, then the exit is what it made of being asked to end. Any other
exit is the leader's own. -/
theorem execute_classified
    (finished : (execute patience request raisesOn flag child).result = .ok outcome) :
    let stop := (readLoop request raisesOn
      { handle := Handle.launch child patience.grace, flag }).1
    let closed := request.HasClosed outcome.transcript
    let closing := child.readAt outcome.transcript.length
    (outcome.exit = .timedOut ↔ stop = .deadline ∨ stop = .ended ∧ ¬closed ∧
      child.leader.isAlive (patience.givesUp child.drainedAt) = true) ∧
    (outcome.exit = .timedOut → outcome.rows = [] ∧ ¬closed) ∧
    (closed → outcome.exit ≠ .timedOut ∧
      outcome.rows = Telemetry.parseRows (({} : Window).feedAll outcome.transcript).captured) ∧
    (closed → child.leader.isAlive closing = true → ∃ kill status,
      kill < closing + patience.grace + reapPoll ∧
      child.leader.EndsAsked patience.grace closing kill status ∧
      outcome.exit = .ended status) ∧
    (outcome.exit ≠ .timedOut → ¬(closed ∧ child.leader.isAlive closing = true) →
      outcome.exit = .ended child.leader.status) := by
  have exits := exits_of_ok finished
  have concludes := (execute_ok finished).2
  exact ⟨exits.timedOut_iff, concludes.of_timedOut, concludes.of_hasClosed,
    exits.exit_of_hasClosed, exits.exit_of_undisturbed⟩

end Classification

/-- A device that prints a table of one row and cleans up for a while when it is asked to end. -/
def cleaningTerminal : Child :=
  { terminal with leader := { ends := 8000, traps := [(5, .finish 30 7)] } }

theorem exit_of_cleaningTerminal :
    ∃ outcome, (execute {} terminalRequest (fun _ => false) false cleaningTerminal).result =
      .ok outcome ∧ outcome.exit = .ended (.code 7) := by
  obtain ⟨outcome, finished⟩ := execute_undisturbed {} terminalRequest cleaningTerminal rfl
  have concludes := (execute_ok finished).2
  have inTime := exit_ne_timedOut_of_closed concludes rfl rfl (by decide +kernel)
  have recorded : outcome.transcript =
      ["=== Benchmark Begins ===", "iteration;time", "1;2", "=== Benchmark End ==="] := by
    rw [transcript_eq_untilClosed concludes rfl inTime]
    decide +kernel
  have closed : terminalRequest.HasClosed outcome.transcript := by
    rw [hasClosed_iff, recorded]
    decide +kernel
  have closing : cleaningTerminal.readAt outcome.transcript.length = 20 := by
    rw [recorded]
    decide +kernel
  have asks := (execute_classified finished).2.2.2.1 closed
  rw [closing] at asks
  obtain ⟨kill, status, -, ends, exit⟩ := asks (by decide)
  refine ⟨outcome, finished, ?_⟩
  have response : cleaningTerminal.leader.responseAt 20 = .finish 30 7 := by decide
  rw [exit]
  cases ends with
  | died dies => simp [response] at dies
  | trapped traps =>
    rw [response] at traps
    cases traps
    rfl
  | unmoved _ slow => exact absurd (slow 30 7 response) (by decide)
  | outlived _ slow _ spent =>
    have quick := slow 30 7 response
    simp only at spent
    omega

end BoardBench.Supervision
