import BoardBench.Proofs.Supervision.Teardown

/-!
# Executions on the clock

Reading takes no time of its own: a line is read when it has arrived, and the stream is found closed
when it closes. So it is known from the command alone when so many lines have been read. The wait
for the exit goes in rounds of one interval each, so it is known when it is given up.
-/
namespace BoardBench.Supervision

/-! ### When lines are read -/

namespace Child

/-- When the first lines have been read, that is, when the latest of them has arrived. -/
def readAt (child : Child) (count : Nat) : Nat :=
  (child.arrivals.take count).foldl (fun latest arrival => max latest arrival.1) 0

/-- When the stream is found closed, after its last line. -/
def drainedAt (child : Child) : Nat :=
  max (child.readAt child.arrivals.length) child.closesAt

theorem readAt_succ {child : Child} {count time : Nat} {text : String}
    (next : child.arrivals[count]? = some (time, text)) :
    child.readAt (count + 1) = max (child.readAt count) time := by
  rw [readAt, List.take_add_one, next, Option.toList_some, List.foldl_append]
  rfl

end Child

namespace Handle

/-- When the handle has something to tell: the next line, or that the stream is closed. -/
def pending (handle : Handle) : Nat :=
  match handle.unread with
  | (time, _) :: _ => time
  | [] => handle.child.closesAt

end Handle

/-- So many lines have been read, and no time was lost on the way: the clock shows when the last of
them came, or the handle has waited since and there was nothing to tell. -/
structure Handle.IsPunctual (child : Child) (count : Nat) (handle : Handle) : Prop where
  left : handle.unread = child.arrivals.drop count
  reached : child.readAt count ≤ handle.clock
  waited : handle.clock = child.readAt count ∨ handle.clock ≤ handle.pending

namespace Handle.IsPunctual

variable {child : Child} {count : Nat} {handle next : Handle}

theorem launch (child : Child) (grace : Nat) : (Handle.launch child grace).IsPunctual child 0 where
  left := rfl
  reached := Nat.le_refl 0
  waited := .inl rfl

theorem idle (punctual : handle.IsPunctual child count)
    (read : handle.readLine pollInterval = (.idle, next)) : next.IsPunctual child count := by
  obtain ⟨left, reached, -⟩ := punctual
  unfold Handle.readLine at read
  split at read
  next time text rest unread =>
    split at read
    · cases read
    next early =>
      cases read
      refine ⟨left, Nat.le_add_right_of_le reached, .inr ?_⟩
      simp only [pending, unread]
      omega
  next unread =>
    split at read
    · cases read
    next early =>
      cases read
      refine ⟨left, Nat.le_add_right_of_le reached, .inr ?_⟩
      simp only [pending, unread]
      omega

theorem line (punctual : handle.IsPunctual child count) {text : String}
    (read : handle.readLine pollInterval = (.line text, next)) :
    next.IsPunctual child (count + 1) ∧ next.clock = child.readAt (count + 1) := by
  obtain ⟨left, reached, waited⟩ := punctual
  unfold Handle.readLine at read
  split at read
  next time other rest unread =>
    split at read
    next =>
      cases read
      have here : child.arrivals[count]? = some (time, text) := by
        rw [← List.head?_drop, ← left, unread, List.head?_cons]
      have behind : rest = child.arrivals.drop (count + 1) := by
        rw [← List.tail_drop, ← left, unread, List.tail_cons]
      have clock : max handle.clock time = child.readAt (count + 1) := by
        rw [Child.readAt_succ here]
        simp only [pending, unread] at waited
        omega
      exact ⟨⟨behind, clock.ge, .inl clock⟩, clock⟩
    next => cases read
  next =>
    split at read <;> cases read

theorem closed (punctual : handle.IsPunctual child count) (same : handle.child = child)
    (read : handle.readLine pollInterval = (.closed, next)) : next.clock = child.drainedAt := by
  obtain ⟨left, reached, waited⟩ := punctual
  unfold Handle.readLine at read
  split at read
  next => split at read <;> cases read
  next unread =>
    split at read
    next =>
      cases read
      -- All lines have been read, so the clock shows when the last of them came.
      have all : child.readAt child.arrivals.length = child.readAt count := by
        rw [unread, eq_comm, List.drop_eq_nil_iff] at left
        rw [Child.readAt, Child.readAt, List.take_of_length_le left, List.take_length]
      simp only [pending, unread, same] at waited
      rw [Child.drainedAt, all, same]
      simp only
      omega
    next => cases read

end Handle.IsPunctual

/-! ### The wait for the exit -/

/-- When a wait for the exit is given up that began then. It is looked for in whole intervals, and
for one at least. -/
def Patience.givesUp (patience : Patience) (start : Nat) : Nat :=
  start + pollInterval * max 1 ((patience.exitWait + pollInterval - 1) / pollInterval)

theorem Patience.givesUp_eq {patience : Patience} {intervals : Nat} (start : Nat)
    (early : intervals = 0 ∨ pollInterval * intervals < patience.exitWait)
    (late : patience.exitWait ≤ pollInterval * (intervals + 1)) :
    patience.givesUp start = start + pollInterval * (intervals + 1) := by
  have rounds : max 1 ((patience.exitWait + pollInterval - 1) / pollInterval) = intervals + 1 := by
    simp only [pollInterval] at early late ⊢
    omega
  rw [givesUp, rounds]

theorem Patience.le_givesUp {patience : Patience} {intervals : Nat} (start : Nat)
    (early : intervals = 0 ∨ pollInterval * intervals < patience.exitWait) :
    start + pollInterval * (intervals + 1) ≤ patience.givesUp start := by
  simp only [givesUp, pollInterval] at early ⊢
  omega

namespace Handle

variable {child : Child} {grace : Nat} {handle next : Handle}

theorem IsWatching.status_reap (watching : handle.IsWatching child grace) :
    handle.reap.status =
      if child.leader.ends ≤ handle.clock then some child.leader.status else none := by
  obtain ⟨rfl, -, -, noted⟩ := watching
  cases known : handle.status with
  | none =>
    by_cases ended : handle.child.leader.ends ≤ handle.clock <;> simp [Handle.reap, known, ended]
  | some status =>
    obtain ⟨right, ended⟩ := noted status known
    simp [Handle.reap, known, right, ended]

/-- So many looks for the end of the leader find it, or the leader ends later. -/
theorem IsWatching.awaitUntil_looks (watching : handle.IsWatching child grace) {deadline : Nat}
    {looks : Nat} (due : deadline = handle.clock + reapPoll * looks) :
    (child.leader.ends ≤ deadline ∧
      (handle.awaitUntil deadline).1 = some child.leader.status) ∨
    (deadline < child.leader.ends ∧ (handle.awaitUntil deadline).1 = none ∧
      (handle.awaitUntil deadline).2.clock = deadline) := by
  have reaped := watching.status_reap
  -- Every look but the last one is followed by another, at a handle that watches on.
  fun_induction Handle.awaitUntil deadline handle generalizing looks with
  | case1 handle status found =>
    rw [found] at reaped
    split at reaped
    next ended => exact .inl ⟨by omega, reaped⟩
    next => cases reaped
  | case2 handle unfound spent =>
    rw [unfound] at reaped
    split at reaped
    next => cases reaped
    next going =>
      have here : handle.clock = deadline := by omega
      refine .inr ⟨?_, rfl, (clock_reap handle).trans here⟩
      omega
  | case3 handle unfound early ih =>
    cases looks with
    | zero => exact absurd due.le early
    | succ looks =>
      have left : deadline = handle.clock + reapPoll + reapPoll * looks := by
        rw [due, Nat.mul_succ]
        omega
      exact ih watching.look left watching.look.status_reap

/-- One interval holds two looks. -/
theorem IsWatching.await_pollInterval (watching : handle.IsWatching child grace) :
    (child.leader.ends ≤ handle.clock + pollInterval ∧
      (handle.await pollInterval).1 = some child.leader.status) ∨
    (handle.clock + pollInterval < child.leader.ends ∧ (handle.await pollInterval).1 = none ∧
      (handle.await pollInterval).2.clock = handle.clock + pollInterval) :=
  watching.awaitUntil_looks (show _ = handle.clock + reapPoll * 2 from rfl)

end Handle

/-- The wait for the exit of a leader whose end is known is over at once. -/
theorem exitLoop_of_status (deadline : Nat) {session : Session} {status : Status}
    (known : session.handle.status = some status) :
    (exitLoop deadline session).1 = none ∨
    (exitLoop deadline session).1 = some (.ended status) := by
  have found := Handle.await_of_status known pollInterval
  rw [exitLoop]
  split
  next => exact .inl rfl
  next =>
    split
    next other handle waited =>
      rw [found] at waited
      cases waited
      exact .inr rfl
    next handle waited =>
      rw [found] at waited
      cases waited

/-- While the group is watched, the wait for the exit is over when the leader ends or when it is
given up, unless it is interrupted. -/
theorem exitLoop_of_isWatching (patience : Patience) {child : Child} {grace start intervals : Nat}
    {session : Session} (watching : session.handle.IsWatching child grace)
    (clock : session.handle.clock = start + pollInterval * intervals)
    (early : intervals = 0 ∨ pollInterval * intervals < patience.exitWait) :
    (exitLoop (start + patience.exitWait) session).1 = none ∨
    (exitLoop (start + patience.exitWait) session).1 =
      some (if child.leader.isAlive (patience.givesUp start) then .timedOut
        else .ended child.leader.status) := by
  have born := child.leads
  -- Each round takes one interval, so the clock shows how many have passed.
  fun_induction exitLoop (start + patience.exitWait) session generalizing intervals with
  | case1 => exact .inl rfl
  | case2 session running status handle waited =>
    have looked := watching.await_pollInterval
    rw [waited] at looked
    obtain ⟨ended, same⟩ | ⟨-, unfound, -⟩ := looked
    · -- The last look came before the wait is given up.
      have inTime := patience.le_givesUp start early
      have gone : child.leader.isAlive (patience.givesUp start) = false := by
        apply Member.not_isAlive_of_ends_le
        rw [Nat.mul_succ] at inTime
        omega
      cases same
      simp [gone]
    · cases unfound
  | case3 session running handle waited late =>
    have looked := watching.await_pollInterval
    rw [waited] at looked
    obtain ⟨-, found⟩ | ⟨going, -, now⟩ := looked
    · cases found
    · -- The leader was not found at the look at which the wait is given up.
      simp only at now
      have spent : patience.exitWait ≤ pollInterval * (intervals + 1) := by
        rw [Nat.mul_succ]
        omega
      have alive : child.leader.isAlive (patience.givesUp start) = true := by
        rw [patience.givesUp_eq start early spent, Nat.mul_succ]
        simp only [Member.isAlive, Bool.and_eq_true, decide_eq_true_eq]
        omega
      simp [alive]
  | case4 session running handle waited going ih =>
    have looked := watching.await_pollInterval
    have watched := watching.awaitUntil (session.handle.clock + pollInterval)
    rw [Handle.await] at waited looked
    rw [waited] at looked watched
    obtain ⟨-, found⟩ | ⟨-, -, now⟩ := looked
    · cases found
    · simp only at now
      have next : handle.clock = start + pollInterval * (intervals + 1) := by
        rw [Nat.mul_succ]
        omega
      exact ih watched next (.inr (by omega))

end BoardBench.Supervision
