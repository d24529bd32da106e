import BoardBench.Proofs.Supervision.Undisturbed

/-!
# Teardown

Main result: when an execution has ended, in whatever way, no process of its group is alive any more
and the leader has been reaped. The group was torn down once. If it was not gone already, SIGTERM
went to all of it, and SIGKILL reached nobody before the grace window was over.

Proof strategy: until it is torn down a handle watches a group that nothing was done to. Reading and
waiting keep it so, a teardown ends it, and after a teardown nothing changes any more. Both loops
only read, wait and tear down.
-/
namespace BoardBench.Supervision

/-! ### Signals to a group -/

namespace Member

variable {member : Member} {now : Nat}

theorem ends_le_of_not_isAlive (born : member.born ≤ now) (dead : member.isAlive now = false) :
    member.ends ≤ now := by
  simp only [isAlive, Bool.and_eq_false_iff, decide_eq_false_iff_not] at dead
  omega

theorem not_isAlive_of_ends_le (ended : member.ends ≤ now) : member.isAlive now = false := by
  simp only [isAlive, Bool.and_eq_false_iff, decide_eq_false_iff_not]
  omega

theorem terminated_of_ends_le (ended : member.ends ≤ now) : member.terminated now = member := by
  rw [terminated, if_neg (by simp [not_isAlive_of_ends_le ended])]

theorem killed_of_ends_le (ended : member.ends ≤ now) : member.killed now = member := by
  rw [killed, if_neg (by simp [not_isAlive_of_ends_le ended])]

end Member

namespace Child

variable {child : Child} {now : Nat}

theorem isAlive_eq_false_iff : child.isAlive now = false ↔ child.leader.isAlive now = false ∧
    ∀ descendant ∈ child.descendants, descendant.member.isAlive now = false := by
  simp [isAlive]

theorem leader_ends_le (dead : child.isAlive now = false) : child.leader.ends ≤ now := by
  have present : child.leader.born ≤ now := by
    rw [child.leads]
    exact Nat.zero_le now
  exact Member.ends_le_of_not_isAlive present (isAlive_eq_false_iff.mp dead).1

theorem not_isAlive_killed (child : Child) (now : Nat) :
    (child.killed now).isAlive now = false := by
  refine isAlive_eq_false_iff.mpr ⟨Member.not_isAlive_killed now child.leader, ?_⟩
  intro descendant among
  obtain ⟨before, -, rfl⟩ := List.mem_map.mp among
  exact Member.not_isAlive_killed now before.member

/-- A group of which nobody is alive, and that starts nobody any more, stays so. -/
theorem not_isAlive_settled (dead : child.isAlive now = false) {time : Nat} (later : now ≤ time) :
    (child.settled now).isAlive time = false := by
  have ended := leader_ends_le dead
  refine isAlive_eq_false_iff.mpr ⟨Member.not_isAlive_of_ends_le (Nat.le_trans ended later), ?_⟩
  intro descendant among
  obtain ⟨member, born⟩ := List.mem_filter.mp among
  have gone := Member.ends_le_of_not_isAlive (by simpa using born)
    ((isAlive_eq_false_iff.mp dead).2 descendant member)
  exact Member.not_isAlive_of_ends_le (Nat.le_trans gone later)

end Child

/-- How a group is torn down by a given time, and what is left of it then. -/
inductive Stops (child : Child) (grace : Nat) : Nat → Child → Prop
  | gone {now : Nat} : child.isAlive now = false → Stops child grace now (child.settled now)
  | stopped {start stop : Nat} : child.isAlive start = true → start ≤ stop →
    stop < start + grace + reapPoll →
    ((child.terminated start).isAlive stop = true → start + grace ≤ stop) →
    Stops child grace stop (((child.terminated start).killed stop).settled stop)

/-- Whoever is in the group, a teardown leaves nobody alive. -/
theorem Stops.not_isAlive {child left : Child} {grace now : Nat}
    (stops : Stops child grace now left) {time : Nat} (later : now ≤ time) :
    left.isAlive time = false := by
  cases stops with
  | gone dead => exact Child.not_isAlive_settled dead later
  -- Nobody outlives SIGKILL, and the leader is there no more to start others.
  | stopped => exact Child.not_isAlive_settled (Child.not_isAlive_killed _ _) later

/-! ### The teardown -/

namespace Handle

variable {child : Child} {grace : Nat} {handle next : Handle}

/-- What is noted of the leader's end is right. -/
def NotesEnd (handle : Handle) : Prop :=
  ∀ status, handle.status = some status →
    status = handle.child.leader.status ∧ handle.child.leader.ends ≤ handle.clock

theorem NotesEnd.reap (noted : handle.NotesEnd) : handle.reap.NotesEnd := by
  unfold Handle.reap
  split
  next ended =>
    rw [Bool.and_eq_true] at ended
    intro status same
    cases same
    exact ⟨rfl, by simpa using ended.2⟩
  next => exact noted

/-- A signal does not change how a leader has ended that is not there any more. -/
theorem NotesEnd.terminated (noted : handle.NotesEnd) :
    { handle with child := handle.child.terminated handle.clock }.NotesEnd := by
  intro status same
  obtain ⟨right, ended⟩ := noted status same
  have leader : (handle.child.terminated handle.clock).leader = handle.child.leader :=
    Member.terminated_of_ends_le ended
  simp only [leader]
  exact ⟨right, ended⟩

theorem NotesEnd.killed (noted : handle.NotesEnd) :
    { handle with child := handle.child.killed handle.clock }.NotesEnd := by
  intro status same
  obtain ⟨right, ended⟩ := noted status same
  have leader : (handle.child.killed handle.clock).leader = handle.child.leader :=
    Member.killed_of_ends_le ended
  simp only [leader]
  exact ⟨right, ended⟩

theorem NotesEnd.later (noted : handle.NotesEnd) {time : Nat} (later : handle.clock ≤ time) :
    { handle with clock := time }.NotesEnd := by
  intro status same
  obtain ⟨right, ended⟩ := noted status same
  exact ⟨right, Nat.le_trans ended later⟩

theorem released_reap (handle : Handle) : handle.reap.released = handle.released := by
  unfold Handle.reap
  split <;> rfl

theorem grace_reap (handle : Handle) : handle.reap.grace = handle.grace := by
  unfold Handle.reap
  split <;> rfl

theorem released_drain (deadline : Nat) (handle : Handle) :
    (handle.drain deadline).released = handle.released := by
  fun_induction drain deadline handle with
  | case1 handle ended => exact released_reap handle
  | case2 handle going ih => exact ih.trans (released_reap handle)

theorem NotesEnd.drain (noted : handle.NotesEnd) (deadline : Nat) :
    (handle.drain deadline).NotesEnd := by
  fun_induction Handle.drain deadline handle with
  | case1 handle ended => exact noted.reap
  | case2 handle going ih =>
    refine ih (noted.reap.later ?_)
    rw [clock_reap]
    exact Nat.le_add_right _ _

/-- A group drains until nobody is alive or the deadline has passed, which is looked at now and
then. -/
theorem clock_drain (deadline : Nat) (handle : Handle) :
    handle.clock ≤ (handle.drain deadline).clock ∧
      ((handle.drain deadline).clock = handle.clock ∨
        (handle.drain deadline).clock < deadline + reapPoll) ∧
      (handle.child.isAlive (handle.drain deadline).clock = true →
        deadline ≤ (handle.drain deadline).clock) := by
  fun_induction drain deadline handle with
  | case1 handle ended =>
    rw [clock_reap]
    refine ⟨Nat.le_refl _, .inl rfl, ?_⟩
    intro alive
    simpa [alive] using ended
  | case2 handle going ih =>
    -- Looked at before the deadline, so the next look is less than one interval after it.
    simp only [Bool.or_eq_true, not_or, decide_eq_true_eq] at going
    simp only [child_reap] at ih ⊢
    obtain ⟨later, bound, spent⟩ := ih
    refine ⟨by omega, .inr ?_, spent⟩
    rcases bound with same | below
    · rw [same]
      omega
    · exact below

theorem collect_spec (noted : handle.NotesEnd) (ended : handle.child.leader.ends ≤ handle.clock) :
    handle.collect = { handle with status := some handle.child.leader.status } := by
  unfold collect
  split
  -- The leader has ended before, so waiting for it takes no time.
  next unknown => rw [Nat.max_eq_left ended]
  next known =>
    obtain ⟨status, same⟩ : ∃ status, handle.status = some status := by
      simpa [Option.isNone_iff_eq_none, Option.ne_none_iff_exists'] using known
    rw [← (noted status same).1, ← same]

/-- Nothing was done to the group so far. -/
structure IsWatching (child : Child) (grace : Nat) (handle : Handle) : Prop where
  untouched : handle.child = child
  patient : handle.grace = grace
  unreleased : handle.released = false
  noted : handle.NotesEnd

/-- The group was torn down and the leader reaped. -/
structure IsTornDown (child : Child) (grace : Nat) (handle : Handle) : Prop where
  released : handle.released = true
  reaped : handle.status = some handle.child.leader.status
  stops : Stops child grace handle.clock handle.child

theorem IsTornDown.terminate (torn : handle.IsTornDown child grace) :
    handle.terminate = handle := by
  rw [Handle.terminate, if_pos torn.released]

/-- Of a group of which nobody is alive, the leader is reaped and nobody new is started. -/
theorem isTornDown_of_dead (released : handle.released = true) (noted : handle.NotesEnd)
    (dead : handle.child.isAlive handle.clock = false)
    (stops : Stops child grace handle.clock (handle.child.settled handle.clock))
    (unread : List (Nat × String)) :
    { handle.collect with
      child := handle.collect.child.settled handle.collect.clock
      unread }.IsTornDown child grace := by
  rw [collect_spec noted (Child.leader_ends_le dead)]
  exact ⟨released, rfl, stops⟩

/-- SIGTERM, then SIGKILL for whoever is left when the grace window is over. -/
theorem stopGroup_spec (noted : handle.NotesEnd)
    (alive : handle.child.isAlive handle.clock = true) :
    handle.stopGroup.NotesEnd ∧ handle.stopGroup.released = handle.released ∧
      handle.stopGroup.child.isAlive handle.stopGroup.clock = false ∧
      Stops handle.child handle.grace handle.stopGroup.clock
        (handle.stopGroup.child.settled handle.stopGroup.clock) := by
  have drained := noted.terminated.drain (handle.clock + handle.grace)
  obtain ⟨later, bound, spent⟩ := clock_drain (handle.clock + handle.grace)
    { handle with child := handle.child.terminated handle.clock }
  simp only at later bound spent
  unfold stopGroup
  refine ⟨drained.killed, released_drain _ _, Child.not_isAlive_killed _ _, ?_⟩
  simp only [child_drain]
  refine .stopped alive later ?_ spent
  rcases bound with same | below
  · rw [same, reapPoll]
    omega
  · exact below

theorem IsWatching.terminate (watching : handle.IsWatching child grace) :
    handle.terminate.IsTornDown child grace := by
  obtain ⟨rfl, rfl, unreleased, noted⟩ := watching
  rw [Handle.terminate, if_neg (by simp [unreleased])]
  -- The handle is latched first; what it watches and notes stays the same.
  have latched : ({ handle with released := true }.reap).NotesEnd := NotesEnd.reap noted
  have released := released_reap { handle with released := true }
  have same := child_reap { handle with released := true }
  have patient : ({ handle with released := true }.reap).grace = handle.grace :=
    grace_reap { handle with released := true }
  generalize ({ handle with released := true }.reap) = latch at latched released same patient
  simp only at released same
  by_cases alive : latch.child.isAlive latch.clock = true
  · simp only [alive, if_true]
    obtain ⟨noted, still, dead, stops⟩ := stopGroup_spec latched alive
    refine isTornDown_of_dead (still.trans released) noted dead ?_ _
    rw [← same, ← patient]
    exact stops
  · rw [Bool.not_eq_true] at alive
    simp only [alive, Bool.false_eq_true, if_false]
    refine isTornDown_of_dead released latched alive ?_ _
    rw [← same]
    exact .gone alive

/-! ### Reading and waiting -/

/-- Time passes, lines are read and the leader is reaped: the handle watches on. -/
theorem IsWatching.on (watching : handle.IsWatching child grace) (same : next.child = handle.child)
    (patient : next.grace = handle.grace) (released : next.released = handle.released)
    (noted : next.NotesEnd) : next.IsWatching child grace where
  untouched := same.trans watching.untouched
  patient := patient.trans watching.patient
  unreleased := released.trans watching.unreleased
  noted := noted

theorem IsWatching.reap (watching : handle.IsWatching child grace) :
    handle.reap.IsWatching child grace :=
  watching.on (child_reap handle) (grace_reap handle) (released_reap handle) watching.noted.reap

theorem IsWatching.look (watching : handle.IsWatching child grace) :
    Handle.IsWatching child grace { handle.reap with clock := handle.clock + reapPoll } := by
  have reaping := watching.reap
  have later : handle.reap.clock ≤ handle.clock + reapPoll := by
    rw [clock_reap]
    exact Nat.le_add_right _ _
  exact reaping.on rfl rfl rfl (reaping.noted.later later)

theorem IsWatching.readLine (watching : handle.IsWatching child grace) {timeout : Nat}
    {event : LineEvent} (read : handle.readLine timeout = (event, next)) :
    next.IsWatching child grace := by
  have noted := watching.noted
  unfold Handle.readLine at read
  split at read
  all_goals
    split at read
    all_goals
      cases read
      refine watching.on rfl rfl rfl (noted.later ?_)
      omega

theorem IsWatching.awaitUntil (watching : handle.IsWatching child grace) (deadline : Nat) :
    (handle.awaitUntil deadline).2.IsWatching child grace := by
  fun_induction Handle.awaitUntil deadline handle with
  | case1 handle status reaped => exact watching.reap
  | case2 handle reaped ended => exact watching.reap
  | case3 handle reaped going ih => exact ih watching.look

/-- Nothing was done to the group so far, or it was torn down. -/
def IsHeld (child : Child) (grace : Nat) (handle : Handle) : Prop :=
  handle.IsWatching child grace ∨ handle.IsTornDown child grace

theorem IsHeld.terminate (held : handle.IsHeld child grace) :
    handle.terminate.IsTornDown child grace := by
  rcases held with watching | torn
  · exact watching.terminate
  · rw [torn.terminate]
    exact torn

theorem IsHeld.await (held : handle.IsHeld child grace) {timeout : Nat} {status? : Option Status}
    (waited : handle.await timeout = (status?, next)) : next.IsHeld child grace := by
  rcases held with watching | torn
  · have watched := watching.awaitUntil (handle.clock + timeout)
    rw [Handle.await] at waited
    rw [waited] at watched
    exact .inl watched
  · -- The end of the leader is known, so there is nothing to wait for.
    have known : handle.status.isSome = true := by
      rw [torn.reaped]
      rfl
    obtain ⟨status, same⟩ := await_of_isSome known timeout
    rw [same] at waited
    cases waited
    exact .inr torn

end Handle

/-! ### The loops -/

section Loops

variable {child : Child} {grace : Nat} {session : Session}

theorem readLoop_holds (request : Request) (raisesOn : Nat → Bool)
    (watching : session.handle.IsWatching child grace) :
    (readLoop request raisesOn session).2.handle.IsHeld child grace ∧
      ((readLoop request raisesOn session).1 = .interrupted →
        (readLoop request raisesOn session).2.handle.IsTornDown child grace) := by
  fun_induction readLoop request raisesOn session with
  | case1 session interrupted => exact ⟨.inr watching.terminate, fun _ => watching.terminate⟩
  | case2 session running late => exact ⟨.inl watching, by simp⟩
  | case3 session running early text handle read observed closed =>
    -- The window has closed; observing its last line leaves the handle alone.
    have torn : observed.2.handle.terminate.IsTornDown child grace := by
      rw [Session.handle_observe]
      exact (watching.readLine read).terminate
    exact ⟨.inr torn, by simp⟩
  | case4 session running early text handle read observed unclosed ih =>
    refine ih ?_
    rw [Session.handle_observe]
    exact watching.readLine read
  | case5 session running early handle read ih => exact ih (watching.readLine read)
  | case6 session running early handle read => exact ⟨.inl (watching.readLine read), by simp⟩

theorem exitLoop_holds (deadline : Nat) (held : session.handle.IsHeld child grace) :
    (exitLoop deadline session).2.handle.IsHeld child grace ∧
      ((exitLoop deadline session).1 = none →
        (exitLoop deadline session).2.handle.IsTornDown child grace) := by
  fun_induction exitLoop deadline session with
  | case1 session interrupted => exact ⟨.inr held.terminate, fun _ => held.terminate⟩
  | case2 session running status handle waited => exact ⟨held.await waited, by simp⟩
  | case3 session running handle waited late =>
    exact ⟨.inr (held.await waited).terminate, by simp⟩
  | case4 session running handle waited early ih => exact ih (held.await waited)

end Loops

theorem isTornDown_execute (patience : Patience) (request : Request) (raisesOn : Nat → Bool)
    (flag : Bool) (child : Child) :
    (execute patience request raisesOn flag child).session.handle.IsTornDown child
      patience.grace := by
  have start : Handle.IsWatching child patience.grace
      (Session.handle { handle := Handle.launch child patience.grace, flag }) :=
    ⟨rfl, rfl, rfl, fun status same => by cases same⟩
  have read := readLoop_holds request raisesOn start
  simp only [execute]
  generalize readLoop request raisesOn { handle := Handle.launch child patience.grace, flag } =
    stopped at read
  obtain ⟨stop, session⟩ := stopped
  obtain ⟨held, interrupted⟩ := read
  cases stop with
  | interrupted => exact interrupted rfl
  -- The group is torn down for being late, and the second teardown changes nothing.
  | deadline => exact Handle.IsHeld.terminate (.inr held.terminate)
  | ended =>
    have waited := exitLoop_holds (session.handle.clock + patience.exitWait) held
    simp only [exitAfter]
    generalize exitLoop (session.handle.clock + patience.exitWait) session = ending at waited
    obtain ⟨exit?, final⟩ := ending
    obtain ⟨held, interrupted⟩ := waited
    cases exit? with
    | none => exact interrupted rfl
    | some exit => exact held.terminate

/-- However an execution ends, from then on no process of its group is alive, its leader has been
reaped, and to tear it down again changes nothing. The group was torn down once: it was gone
already, or all of it was sent SIGTERM, and nobody SIGKILL before the grace window was over. -/
theorem execute_tears_down (patience : Patience) (request : Request) (raisesOn : Nat → Bool)
    (flag : Bool) (child : Child) :
    let handle := (execute patience request raisesOn flag child).session.handle
    (∀ time, handle.clock ≤ time → handle.child.isAlive time = false) ∧
      handle.hasSurvivors = false ∧ handle.status = some handle.child.leader.status ∧
      handle.terminate = handle ∧ Stops child patience.grace handle.clock handle.child := by
  intro handle
  have torn : handle.IsTornDown child patience.grace :=
    isTornDown_execute patience request raisesOn flag child
  have dead := torn.stops.not_isAlive (Nat.le_refl _)
  refine ⟨fun time later => torn.stops.not_isAlive later, ?_, torn.reaped, torn.terminate,
    torn.stops⟩
  rw [Handle.hasSurvivors, List.any_eq_false]
  intro descendant among
  simpa using (Child.isAlive_eq_false_iff.mp dead).2 descendant among

end BoardBench.Supervision
