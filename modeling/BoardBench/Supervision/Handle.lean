import BoardBench.Supervision.Child

/-!
# Handles

The owner's end of a launched process group. It reads lines, waits for the leader, and tears the
group down: SIGTERM to all, a grace window in which the group may drain, SIGKILL to what is left,
and the leader is reaped. Teardown happens once; a second one changes nothing.
-/
namespace BoardBench.Supervision

inductive LineEvent where
  | line (text : String)
  /-- Nothing arrived in time and the stream is open. -/
  | idle
  | closed
  deriving Repr, DecidableEq

structure Handle where
  child : Child
  clock : Nat := 0
  /-- The lines that were not read yet, with their times. -/
  unread : List (Nat × String)
  /-- How many lines were read. -/
  taken : Nat := 0
  status : Option Status := none
  released : Bool := false
  grace : Nat
  deriving Repr, DecidableEq

/-- How often a handle looks whether a process has ended. -/
def reapPoll : Nat := 50

namespace Handle

def launch (child : Child) (grace : Nat) : Handle :=
  { child, grace, unread := child.arrivals }

/-- A time by which the stream has nothing more to tell. -/
def horizon (handle : Handle) : Nat :=
  handle.unread.foldr (fun arrival latest => max arrival.1 latest) handle.child.closesAt

/-- The next line, waited for at most `timeout`. -/
def readLine (handle : Handle) (timeout : Nat) : LineEvent × Handle :=
  match handle.unread with
  | (time, text) :: rest =>
    if time ≤ handle.clock + timeout then
      (.line text,
        { handle with
          clock := max handle.clock time, unread := rest, taken := handle.taken + 1 })
    else (.idle, { handle with clock := handle.clock + timeout })
  | [] =>
    if handle.child.closesAt ≤ handle.clock + timeout then
      (.closed, { handle with clock := max handle.clock handle.child.closesAt })
    else (.idle, { handle with clock := handle.clock + timeout })

theorem readLine_idle {handle next : Handle} {timeout : Nat}
    (idle : handle.readLine timeout = (.idle, next)) :
    next = { handle with clock := handle.clock + timeout } ∧
      handle.clock + timeout < handle.horizon := by
  unfold readLine at idle
  unfold horizon
  split at idle
  next time text rest unread =>
    split at idle
    · simp at idle
    · simp only [Prod.mk.injEq, true_and] at idle
      refine ⟨idle.symm, ?_⟩
      simp only [unread, List.foldr_cons]
      omega
  next unread =>
    split at idle
    · simp at idle
    · simp only [Prod.mk.injEq, true_and] at idle
      refine ⟨idle.symm, ?_⟩
      simp only [unread, List.foldr_nil]
      omega

theorem readLine_line {handle next : Handle} {timeout : Nat} {text : String}
    (line : handle.readLine timeout = (.line text, next)) :
    next.unread.length < handle.unread.length := by
  unfold readLine at line
  split at line
  next time other rest unread =>
    split at line
    · simp only [Prod.mk.injEq] at line
      simp [← line.2, unread]
    · simp at line
  next unread =>
    split at line <;> simp at line

/-- Takes note of the leader's end, if it has come. -/
def reap (handle : Handle) : Handle :=
  if handle.status.isNone && handle.child.leader.ends ≤ handle.clock then
    { handle with status := some handle.child.leader.status }
  else handle

/-- Looks for the leader's end until `deadline`. -/
def awaitUntil (deadline : Nat) (handle : Handle) : Option Status × Handle :=
  match handle.reap.status with
  | some status => (some status, handle.reap)
  | none =>
    if deadline ≤ handle.clock then (none, handle.reap)
    else awaitUntil deadline { handle.reap with clock := handle.clock + reapPoll }
termination_by deadline - handle.clock
decreasing_by
  simp only [reapPoll]
  omega

/-- Waits for the leader's end for at most `timeout`, rounded up to a look. -/
def await (handle : Handle) (timeout : Nat) : Option Status × Handle :=
  handle.awaitUntil (handle.clock + timeout)

theorem clock_reap (handle : Handle) : handle.reap.clock = handle.clock := by
  unfold reap
  split <;> rfl

theorem awaitUntil_none {deadline : Nat} {handle next : Handle}
    (waited : handle.awaitUntil deadline = (none, next)) : deadline ≤ next.clock := by
  fun_induction awaitUntil deadline handle with
  | case1 => simp at waited
  | case2 handle _ reached =>
    simp only [Prod.mk.injEq, true_and] at waited
    rw [← waited, clock_reap]
    exact reached
  | case3 _ _ _ ih => exact ih waited

/-- Lets the group drain until `deadline`. -/
def drain (deadline : Nat) (handle : Handle) : Handle :=
  if !handle.child.isAlive handle.clock || deadline ≤ handle.clock then handle.reap
  else drain deadline { handle.reap with clock := handle.clock + reapPoll }
termination_by deadline - handle.clock
decreasing_by
  simp only [reapPoll]
  simp_all only [Bool.or_eq_true, not_or, decide_eq_true_eq]
  omega

/-- Waits for the leader as long as it takes. -/
def collect (handle : Handle) : Handle :=
  if handle.status.isNone then
    { handle with
      clock := max handle.clock handle.child.leader.ends
      status := some handle.child.leader.status }
  else handle

/-- SIGTERM, the grace window, and SIGKILL for what is left. -/
def stopGroup (handle : Handle) : Handle :=
  let asked := { handle with child := handle.child.terminated handle.clock }
  let drained := asked.drain (handle.clock + handle.grace)
  { drained with child := drained.child.killed drained.clock }

/-- Ends the group and reaps the leader; lines that the end cut off will not arrive. -/
def terminate (handle : Handle) : Handle :=
  if handle.released then handle
  else
    let latched := { handle with released := true }.reap
    let stopped := if latched.child.isAlive latched.clock then latched.stopGroup else latched
    let collected := stopped.collect
    let child := collected.child.settled collected.clock
    { collected with child, unread := child.arrivals.drop collected.taken }

/-- Some descendant is alive. -/
def hasSurvivors (handle : Handle) : Bool :=
  handle.child.descendants.any fun descendant => descendant.member.isAlive handle.clock

end Handle

end BoardBench.Supervision
