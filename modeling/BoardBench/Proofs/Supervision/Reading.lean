import BoardBench.Supervision.Execution
import BoardBench.Proofs.Console.Line
import BoardBench.Proofs.Console.Window

/-!
# How an execution reads

Main result: an execution that is not interrupted ends in one of three ways. It was cut off by its
deadline, it came to the end of the stream, or it read the line that closes the window. Only in the
last one the window is closed, and then the exit is not a timeout.

One invariant holds whenever the read loop looks for a line: what was recorded and what is unread
make up the stream, the window is that of the record, and it is not closed.
-/
namespace BoardBench.Supervision

open Console (Window lines lineText lineFeed)

/-! ### The lines of a stream -/

/-- The bytes that a command writes when it is left to itself. -/
def Child.output (child : Child) : Bytes :=
  child.stream.map Prod.snd

theorem map_arrivalsFrom (closes : Nat) (stream : List (Nat × UInt8)) {line : Bytes}
    (run : Console.IsRun line.reverse) :
    (Child.arrivalsFrom closes line stream).map Prod.snd =
      lines (line.reverse ++ stream.map Prod.snd) := by
  induction stream generalizing line with
  | nil =>
    rw [Child.arrivalsFrom, List.map_nil, List.append_nil, Console.lines_run run]
    cases line <;> simp
  | cons arrival rest ih =>
    obtain ⟨time, byte⟩ := arrival
    rw [Child.arrivalsFrom]
    by_cases feed : byte = lineFeed
    -- The line under way is complete, and the next one starts with nothing.
    · subst feed
      have none : Console.IsRun ([] : Bytes).reverse := by decide
      rw [if_pos (by simp), List.map_cons, ih none, List.map_cons, Console.lines_run_append run]
      rfl
    -- The line under way grows by the byte, and is still without a line feed.
    · have longer : Console.IsRun (byte :: line).reverse := by
        simp only [Console.IsRun, List.mem_reverse, List.mem_cons, not_or] at run ⊢
        exact ⟨Ne.symm feed, run⟩
      rw [if_neg (by simpa using feed), ih longer]
      simp

/-- The lines that arrive are the lines of the output. -/
theorem map_arrivals (child : Child) : child.arrivals.map Prod.snd = lines child.output :=
  map_arrivalsFrom child.closesAt child.stream (by decide)

/-- A descendant that holds the stream is heard as long as it is there, also without its leader. -/
example :
    let descendant : Descendant :=
      { member := { born := 1, ends := 50 }, holdsStream := true
        writes := [(30, encode "late\n"), (60, encode "never\n")] }
    let child : Child :=
      { leader := { ends := 10 }, writes := [(40, encode "lost\n")], descendants := [descendant] }
    child.arrivals = [(30, "late")] := by decide +kernel

/-! ### One line -/

namespace Handle

theorem readLine_line_spec {handle next : Handle} {timeout : Nat} {text : String}
    (line : handle.readLine timeout = (.line text, next)) :
    handle.unread.map Prod.snd = text :: next.unread.map Prod.snd ∧
      next.released = handle.released := by
  unfold readLine at line
  split at line
  next time other rest unread =>
    split at line
    · simp only [Prod.mk.injEq, LineEvent.line.injEq] at line
      obtain ⟨rfl, rfl⟩ := line
      exact ⟨by rw [unread, List.map_cons], rfl⟩
    · simp at line
  next unread =>
    split at line <;> simp at line

theorem readLine_closed_spec {handle next : Handle} {timeout : Nat}
    (closed : handle.readLine timeout = (.closed, next)) :
    handle.unread = [] ∧ next.unread = [] ∧ next.released = handle.released := by
  unfold readLine at closed
  split at closed
  next time other rest unread =>
    split at closed <;> simp at closed
  next unread =>
    split at closed
    · simp only [Prod.mk.injEq, true_and] at closed
      subst closed
      exact ⟨unread, unread, rfl⟩
    · simp at closed

/-- After the teardown it is known how the leader ended. -/
theorem isSome_status_terminate {handle : Handle} (unreleased : handle.released = false) :
    handle.terminate.status.isSome = true := by
  have collected (other : Handle) : other.collect.status.isSome = true := by
    unfold collect
    split
    next => rfl
    next known => simpa [Option.isSome_iff_ne_none] using known
  rw [terminate, if_neg (by simp [unreleased])]
  exact collected _

/-- A leader whose end is known is not waited for. -/
theorem await_of_status {handle : Handle} {status : Status} (known : handle.status = some status)
    (timeout : Nat) : handle.await timeout = (some status, handle) := by
  have reaped : handle.reap = handle := by
    rw [reap, if_neg (by simp [known])]
  rw [await, awaitUntil, reaped, known]

theorem await_of_isSome {handle : Handle} (known : handle.status.isSome = true) (timeout : Nat) :
    ∃ status, handle.await timeout = (some status, handle) := by
  obtain ⟨status, same⟩ := Option.isSome_iff_exists.mp known
  exact ⟨status, await_of_status same timeout⟩

end Handle

/-! ### The read loop -/

/-- The window that the recorded lines leave, which an unmonitored command never opens. -/
def Request.windowOf (request : Request) (transcript : List String) : Window :=
  if request.monitored then ({} : Window).feedAll transcript else {}

namespace Session

variable {request : Request} {texts : List String} {session : Session}

/-- The invariant of the read loop, where `texts` are the lines of the whole stream. -/
structure IsReading (request : Request) (texts : List String) (session : Session) : Prop where
  shown : session.seen = session.transcript
  window : session.window = request.windowOf session.transcript
  whole : texts = session.transcript ++ session.handle.unread.map Prod.snd
  unclosed : session.window.isFinished = false
  unreleased : session.handle.released = false

/-- How the read loop stops. -/
inductive HasRead (request : Request) (texts : List String) : Stop → Session → Prop
  | interrupted {session : Session} : HasRead request texts .interrupted session
  | cutOff {session : Session} : request.deadline.isSome = true →
    session.IsReading request texts → HasRead request texts .deadline session
  | exhausted {session : Session} : session.IsReading request texts →
    session.transcript = texts → HasRead request texts .ended session
  | closed {session : Session} (before : List String) (last : String) (after : List String) :
    request.monitored = true → session.seen = session.transcript →
    session.transcript = before ++ [last] → texts = session.transcript ++ after →
    (({} : Window).feedAll before).isFinished = false →
    session.window = ({} : Window).feedAll session.transcript → session.window.isFinished = true →
    session.handle.status.isSome = true → HasRead request texts .ended session

theorem IsReading.launch (request : Request) (child : Child) (grace : Nat) (flag : Bool) :
    IsReading request (lines child.output) { handle := Handle.launch child grace, flag } where
  shown := rfl
  window := by simp [Request.windowOf, Window.feedAll]
  whole := (map_arrivals child).symm
  unclosed := rfl
  unreleased := rfl

/-- A line that does not close the window keeps the invariant. -/
theorem IsReading.observe (reading : session.IsReading request texts) {raisesOn : Nat → Bool}
    {text : String} {next : Handle}
    (read : session.handle.readLine pollInterval = (.line text, next))
    (unclosing : (session.observe request.monitored raisesOn text next).1 ≠ .closed) :
    (session.observe request.monitored raisesOn text next).2.IsReading request texts := by
  obtain ⟨unread, released⟩ := Handle.readLine_line_spec read
  have window := reading.window
  constructor
  · simp [Session.observe, reading.shown]
  · by_cases monitored : request.monitored = true
    · simp only [Session.observe, monitored, if_true, Request.windowOf] at window ⊢
      rw [Window.feedAll_append, ← window]
      rfl
    · simpa [Session.observe, monitored, Request.windowOf] using window
  · rw [reading.whole, unread]
    simp [Session.observe]
  · by_cases monitored : request.monitored = true
    · simp only [Session.observe, monitored, if_true] at unclosing ⊢
      rw [← Bool.not_eq_true]
      intro finished
      exact unclosing ((Window.closed_iff _ _).mpr ⟨reading.unclosed, finished⟩)
    · simpa [Session.observe, monitored] using reading.unclosed
  · simpa [Session.observe, released] using reading.unreleased

/-- A line that closes the window ends the stream's part in the record. -/
theorem IsReading.observe_closed (reading : session.IsReading request texts)
    {raisesOn : Nat → Bool} {text : String} {next : Handle}
    (read : session.handle.readLine pollInterval = (.line text, next))
    (closing : (session.observe request.monitored raisesOn text next).1 = .closed) :
    HasRead request texts .ended
      (session.observe request.monitored raisesOn text next).2.terminate := by
  obtain ⟨unread, released⟩ := Handle.readLine_line_spec read
  -- An unmonitored line is never reported as closing.
  have monitored : request.monitored = true := by
    by_contra unmonitored
    simp [Session.observe, unmonitored] at closing
  have window := reading.window
  have unclosed := reading.unclosed
  simp only [Request.windowOf, monitored, if_true] at window
  simp only [Session.observe, monitored, if_true] at closing ⊢
  have finished := ((Window.closed_iff _ _).mp closing).2
  -- What is still unread comes after the closing line.
  refine .closed session.transcript text (next.unread.map Prod.snd) monitored ?_ rfl ?_ ?_ ?_
    finished (Handle.isSome_status_terminate (released.trans reading.unreleased))
  · simp [terminate, reading.shown]
  · rw [reading.whole, unread]
    simp [terminate]
  · rw [← window]
    exact unclosed
  · change (session.window.feed text).2 = ({} : Window).feedAll (session.transcript ++ [text])
    rw [Window.feedAll_append, ← window]
    rfl

theorem IsReading.readLoop (reading : session.IsReading request texts) (raisesOn : Nat → Bool) :
    HasRead request texts (readLoop request raisesOn session).1
      (readLoop request raisesOn session).2 := by
  fun_induction Supervision.readLoop request raisesOn session with
  | case1 => exact .interrupted
  | case2 session running late =>
    refine .cutOff ?_ reading
    cases deadline : request.deadline with
    | none => simp [deadline] at late
    | some limit => rfl
  | case3 session running early text handle read observed closed =>
    exact reading.observe_closed read closed
  | case4 session running early text handle read observed unclosed ih =>
    exact ih (reading.observe read unclosed)
  | case5 session running early handle read ih =>
    -- Waiting takes time and nothing else.
    obtain ⟨rfl, -⟩ := Handle.readLine_idle read
    exact ih ⟨reading.shown, reading.window, reading.whole, reading.unclosed, reading.unreleased⟩
  | case6 session running early handle read =>
    -- Nothing is unread, so the record is the whole stream.
    obtain ⟨unread, none, released⟩ := Handle.readLine_closed_spec read
    have whole := reading.whole
    rw [unread, List.map_nil, List.append_nil] at whole
    refine .exhausted ⟨reading.shown, reading.window, ?_, reading.unclosed, ?_⟩ whole.symm
    · simp [none, whole]
    · exact released.trans reading.unreleased

end Session

/-! ### The exit -/

/-- Waiting for the exit changes nothing but the handle. -/
theorem exitLoop_keeps (deadline : Nat) (session : Session) :
    (exitLoop deadline session).2 =
      { session with handle := (exitLoop deadline session).2.handle } := by
  fun_induction exitLoop deadline session with
  | case1 => rfl
  | case2 => rfl
  | case3 => rfl
  | case4 session running handle waited early ih => exact ih

theorem exitLoop_ne_timedOut (deadline : Nat) {session : Session}
    (known : session.handle.status.isSome = true) :
    (exitLoop deadline session).1 ≠ some .timedOut := by
  obtain ⟨status, waited⟩ := Handle.await_of_isSome known pollInterval
  rw [exitLoop]
  split
  next => simp
  next =>
    split
    next => simp
    next other =>
      rw [waited] at other
      cases other

theorem exitAfter_keeps (patience : Patience) (stopped : Stop × Session) :
    (exitAfter patience stopped).2 =
      { stopped.2 with handle := (exitAfter patience stopped).2.handle } := by
  obtain ⟨stop, session⟩ := stopped
  cases stop with
  | interrupted => rfl
  | deadline => rfl
  | ended => exact exitLoop_keeps _ session

/-! ### The outcome -/

/-- How an outcome comes about, where `texts` are the lines of the whole stream. -/
inductive Outcome.Concludes (request : Request) (texts : List String) (outcome : Outcome) : Prop
  | cutOff : request.deadline.isSome = true → outcome.exit = .timedOut →
    (request.windowOf outcome.transcript).isFinished = false → outcome.rows = [] →
    Concludes request texts outcome
  | exhausted : outcome.transcript = texts →
    (request.windowOf outcome.transcript).isFinished = false → outcome.rows = [] →
    Concludes request texts outcome
  | closed (before : List String) (last : String) (after : List String) :
    request.monitored = true → outcome.exit ≠ .timedOut → outcome.transcript = before ++ [last] →
    texts = outcome.transcript ++ after → (({} : Window).feedAll before).isFinished = false →
    (({} : Window).feedAll outcome.transcript).isFinished = true →
    outcome.rows = (({} : Window).feedAll outcome.transcript).rows →
    Concludes request texts outcome

theorem rowsOf_of_unclosed (request : Request) (exit : Exit) {window : Window}
    (unclosed : window.isFinished = false) : rowsOf request exit window = [] := by
  rw [rowsOf, Window.rows, unclosed]
  simp

variable {patience : Patience} {request : Request} {raisesOn : Nat → Bool} {flag : Bool}
  {child : Child} {outcome : Outcome}

/-- An execution that yields an outcome showed the observer the transcript, and no other lines. -/
theorem execute_ok
    (finished : (execute patience request raisesOn flag child).result = .ok outcome) :
    (execute patience request raisesOn flag child).session.seen = outcome.transcript ∧
      outcome.Concludes request (lines child.output) := by
  have read := (Session.IsReading.launch request child patience.grace flag).readLoop raisesOn
  simp only [execute] at finished ⊢
  generalize readLoop request raisesOn { handle := Handle.launch child patience.grace, flag } =
    stopped at read finished ⊢
  obtain ⟨stop, session⟩ := stopped
  cases ends : exitAfter patience (stop, session) with
  | mk exit? final =>
    rw [ends] at finished
    cases exit? with
    | none => simp at finished
    | some exit =>
      simp only [Except.ok.injEq] at finished
      -- From the end of reading on only the handle changes.
      have keeps : final = { session with handle := final.handle } := by
        simpa [ends] using exitAfter_keeps patience (stop, session)
      have shown : final.seen = session.seen := by rw [keeps]
      have recorded : final.transcript = session.transcript := by rw [keeps]
      have scanned : final.window = session.window := by rw [keeps]
      have outcome_eq : outcome =
          { exit
            transcript := session.transcript
            rows := rowsOf request exit session.window } := by
        rw [← finished, ← recorded, ← scanned]
        rfl
      subst outcome_eq
      change final.seen = session.transcript ∧ _
      rw [shown]
      cases read with
      | interrupted => simp [exitAfter] at ends
      | cutOff dated reading =>
        have late : exit = .timedOut := by simpa [exitAfter] using (congrArg Prod.fst ends).symm
        have unclosed := reading.unclosed
        exact ⟨reading.shown, .cutOff dated late (reading.window ▸ unclosed)
          (rowsOf_of_unclosed request exit unclosed)⟩
      | exhausted reading whole =>
        have unclosed := reading.unclosed
        exact ⟨reading.shown, .exhausted whole (reading.window ▸ unclosed)
          (rowsOf_of_unclosed request exit unclosed)⟩
      | closed before last after monitored seen split whole unclosed window closed known =>
        -- The teardown has reaped the leader, so its exit is there without a wait.
        have inTime : exit ≠ .timedOut := by
          have ended := exitLoop_ne_timedOut (session.handle.clock + patience.exitWait) known
          rw [exitAfter] at ends
          rw [ends] at ended
          simpa using ended
        have rows : rowsOf request exit session.window = session.window.rows := by
          simp [rowsOf, monitored, inTime]
        refine ⟨seen, .closed before last after monitored inTime split whole unclosed ?_ ?_⟩
        · exact window ▸ closed
        · exact rows.trans (congrArg Window.rows window)

/-- An execution that did not run out of time has recorded the lines of the stream up to the one
that closes the window. -/
theorem transcript_eq_untilClosed {texts : List String}
    (concludes : outcome.Concludes request texts) (monitored : request.monitored = true)
    (inTime : outcome.exit ≠ .timedOut) :
    outcome.transcript = ({} : Window).untilClosed texts := by
  cases concludes with
  | cutOff dated late => exact absurd late inTime
  | exhausted whole unclosed =>
    rw [Request.windowOf, if_pos monitored, whole] at unclosed
    have all := Window.untilClosed_unfinished unclosed []
    rw [List.append_nil, Window.untilClosed, List.append_nil] at all
    rw [whole, all]
  | closed before last after _ _ split whole unclosed closed =>
    -- The lines after the closing one go first, then those before it are read one by one.
    rw [whole, Window.untilClosed_append rfl closed, split, Window.untilClosed_unfinished unclosed,
      Window.untilClosed_singleton]

/-- Without a deadline a window that is printed to its end is read to its end. -/
theorem exit_ne_timedOut_of_closed {texts : List String}
    (concludes : outcome.Concludes request texts) (monitored : request.monitored = true)
    (undated : request.deadline = none)
    (closes : (({} : Window).feedAll texts).isFinished = true) : outcome.exit ≠ .timedOut := by
  cases concludes with
  | cutOff dated => simp [undated] at dated
  | exhausted whole unclosed =>
    rw [Request.windowOf, if_pos monitored, whole, closes] at unclosed
    cases unclosed
  | closed _ _ _ _ inTime => exact inTime

end BoardBench.Supervision
