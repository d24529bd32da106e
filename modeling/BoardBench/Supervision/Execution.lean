import BoardBench.Supervision.Handle
import BoardBench.Console.Window
import BoardBench.Fault

/-!
# Executions

Runs one launched command to its end. The output is read line by line until the stream closes, the
benchmark window closes, time is up, or the shutdown flag is raised. After reading, the leader has
a while to exit. However it ends, the process group is torn down before the answer is given. An
interrupt is a fault; any other ending is an outcome.
-/
namespace BoardBench.Supervision

open Console (Window)

/-- How long one wait for a line or an exit lasts before the flag is looked at again. -/
def pollInterval : Nat := 100

/-- The time windows of an execution, in milliseconds. -/
structure Patience where
  grace : Nat := 2000
  exitWait : Nat := 30000
  deriving Repr, DecidableEq

/-- An execution under way. -/
structure Session where
  handle : Handle
  /-- The shutdown flag, as it was at the launch or as an observer has raised it. -/
  flag : Bool
  window : Window := {}
  /-- The lines shown to the observer. -/
  seen : List String := []
  /-- The lines recorded for the outcome. -/
  transcript : List String := []

namespace Session

def isInterrupted (session : Session) : Bool :=
  session.flag || session.handle.child.hasRaised session.handle.clock

def terminate (session : Session) : Session :=
  { session with handle := session.handle.terminate }

/-- Takes a line in. `raisesOn n` tells that the flag is raised while line `n` is observed. -/
def observe (session : Session) (monitored : Bool) (raisesOn : Nat → Bool) (text : String)
    (handle : Handle) : Console.Scan × Session :=
  let (scan, window) := if monitored then session.window.feed text else (.outside, session.window)
  let seen := session.seen ++ [text]
  let transcript := session.transcript ++ [text]
  (scan, { handle, flag := session.flag || raisesOn seen.length, window, seen, transcript })

theorem handle_observe (session : Session) (monitored : Bool) (raisesOn : Nat → Bool)
    (text : String) (handle : Handle) :
    (session.observe monitored raisesOn text handle).2.handle = handle := by
  unfold observe
  split
  rfl

end Session

/-- Why reading stopped. -/
inductive Stop where
  | interrupted
  | deadline
  | ended
  deriving Repr, DecidableEq

/-- Reads lines until there is a reason to stop. -/
def readLoop (request : Request) (raisesOn : Nat → Bool) (session : Session) : Stop × Session :=
  if session.isInterrupted then (.interrupted, session.terminate)
  else if request.deadline.any (· ≤ session.handle.clock) then (.deadline, session)
  else
    match _event : session.handle.readLine pollInterval with
    | (.line text, handle) =>
      let observed := session.observe request.monitored raisesOn text handle
      if observed.1 = .closed then (.ended, observed.2.terminate)
      else readLoop request raisesOn observed.2
    | (.idle, handle) => readLoop request raisesOn { session with handle }
    | (.closed, handle) => (.ended, { session with handle })
termination_by (session.handle.unread.length, session.handle.horizon - session.handle.clock)
decreasing_by
  · refine Prod.Lex.left _ _ ?_
    rw [Session.handle_observe]
    exact Handle.readLine_line _event
  · obtain ⟨rfl, early⟩ := Handle.readLine_idle _event
    refine Prod.Lex.right _ ?_
    simp only [Handle.horizon, pollInterval] at early ⊢
    omega

/-- Waits for the leader until `deadline`; `none` is an interrupt. -/
def exitLoop (deadline : Nat) (session : Session) : Option Exit × Session :=
  if session.isInterrupted then (none, session.terminate)
  else
    match _waited : session.handle.await pollInterval with
    | (some status, handle) => (some (.ended status), { session with handle })
    | (none, handle) =>
      if deadline ≤ handle.clock then
        (some .timedOut, { session with handle := handle.terminate })
      else exitLoop deadline { session with handle }
termination_by deadline - session.handle.clock
decreasing_by
  have later := Handle.awaitUntil_none _waited
  simp only [pollInterval] at later
  omega

/-- What a finished execution leaves behind. -/
structure Run where
  result : Except Fault Outcome
  session : Session

/-- The exit after reading has stopped. -/
def exitAfter (patience : Patience) : Stop × Session → Option Exit × Session
  | (.interrupted, session) => (none, session)
  | (.deadline, session) => (some .timedOut, session.terminate)
  | (.ended, session) => exitLoop (session.handle.clock + patience.exitWait) session

/-- Rows count only if the command was monitored and did not run out of time. -/
def rowsOf (request : Request) (exit : Exit) (window : Window) : List Telemetry.Row :=
  if request.monitored && exit != .timedOut then window.rows else []

/-- Runs a launched command to its end. -/
def execute (patience : Patience) (request : Request) (raisesOn : Nat → Bool) (flag : Bool)
    (child : Child) : Run :=
  let start : Session := { handle := Handle.launch child patience.grace, flag }
  match exitAfter patience (readLoop request raisesOn start) with
  | (none, session) => { result := .error .interrupted, session }
  | (some exit, session) =>
    let session := session.terminate
    { result := .ok
        { exit, transcript := session.transcript, rows := rowsOf request exit session.window }
      session }

theorem execute_unconfigured (patience : Patience) (request : Request) (raisesOn : Nat → Bool)
    (flag : Bool) (child : Child) (cause : ConfigError) :
    (execute patience request raisesOn flag child).result ≠ .error (.config cause) := by
  simp only [execute]
  split <;> simp

end BoardBench.Supervision
