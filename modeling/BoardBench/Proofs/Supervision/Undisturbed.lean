import BoardBench.Proofs.Supervision.Reading

/-!
# Executions that nobody disturbs

An execution fails only by an interrupt. As long as neither the command nor anyone else raises the
shutdown flag, it yields an outcome.
-/
namespace BoardBench.Supervision

namespace Handle

theorem child_reap (handle : Handle) : handle.reap.child = handle.child := by
  unfold reap
  split <;> rfl

theorem child_drain (deadline : Nat) (handle : Handle) :
    (handle.drain deadline).child = handle.child := by
  fun_induction drain deadline handle with
  | case1 handle ended => exact child_reap handle
  | case2 handle going ih => exact ih.trans (child_reap handle)

theorem child_awaitUntil (deadline : Nat) (handle : Handle) :
    (handle.awaitUntil deadline).2.child = handle.child := by
  fun_induction awaitUntil deadline handle with
  | case1 handle status reaped => exact child_reap handle
  | case2 handle reaped ended => exact child_reap handle
  | case3 handle reaped going ih => exact ih.trans (child_reap handle)

theorem child_collect (handle : Handle) : handle.collect.child = handle.child := by
  unfold collect
  split <;> rfl

theorem child_readLine {handle next : Handle} {timeout : Nat} {event : LineEvent}
    (read : handle.readLine timeout = (event, next)) : next.child = handle.child := by
  have same : (handle.readLine timeout).2.child = handle.child := by
    unfold readLine
    split <;> split <;> rfl
  rw [read] at same
  exact same

/-- A teardown does not change when the leader raises the flag. -/
theorem raises_terminate (handle : Handle) :
    handle.terminate.child.raises = handle.child.raises := by
  -- Signals change how members end, not what the leader does before.
  have stopped (other : Handle) : other.stopGroup.child.raises = other.child.raises := by
    simp [stopGroup, child_drain, Child.killed, Child.terminated, Child.map]
  unfold terminate
  split
  next => rfl
  next =>
    simp only [Child.settled, child_collect]
    split
    next => rw [stopped, child_reap]
    next => rw [child_reap]

end Handle

/-- Neither the command nor anyone else raises the shutdown flag. -/
structure Session.IsUndisturbed (session : Session) : Prop where
  lowered : session.flag = false
  quiet : session.handle.child.raises = []

namespace Session.IsUndisturbed

variable {session : Session} (undisturbed : session.IsUndisturbed)
include undisturbed

theorem isInterrupted_eq_false : session.isInterrupted = false := by
  simp [isInterrupted, Child.hasRaised, undisturbed.lowered, undisturbed.quiet]

theorem terminate : session.terminate.IsUndisturbed where
  lowered := undisturbed.lowered
  quiet := (Handle.raises_terminate session.handle).trans undisturbed.quiet

theorem observe (monitored : Bool) (text : String) {handle : Handle}
    (same : handle.child = session.handle.child) :
    (session.observe monitored (fun _ => false) text handle).2.IsUndisturbed := by
  constructor
  · simp [Session.observe, undisturbed.lowered]
  · simp [Session.observe, same, undisturbed.quiet]

theorem readLoop (request : Request) :
    (readLoop request (fun _ => false) session).1 ≠ .interrupted ∧
      (readLoop request (fun _ => false) session).2.IsUndisturbed := by
  fun_induction Supervision.readLoop request (fun _ => false) session with
  | case1 session interrupted =>
    rw [undisturbed.isInterrupted_eq_false] at interrupted
    cases interrupted
  | case2 session running late => exact ⟨by simp, undisturbed⟩
  | case3 session running early text handle read observed closed =>
    have observed := undisturbed.observe request.monitored text (Handle.child_readLine read)
    exact ⟨by simp, observed.terminate⟩
  | case4 session running early text handle read observed unclosed ih =>
    exact ih (undisturbed.observe request.monitored text (Handle.child_readLine read))
  | case5 session running early handle read ih =>
    have quiet : handle.child.raises = [] := Handle.child_readLine read ▸ undisturbed.quiet
    exact ih ⟨undisturbed.lowered, quiet⟩
  | case6 session running early handle read =>
    have quiet : handle.child.raises = [] := Handle.child_readLine read ▸ undisturbed.quiet
    exact ⟨by simp, undisturbed.lowered, quiet⟩

theorem exitLoop (deadline : Nat) : (exitLoop deadline session).1 ≠ none := by
  fun_induction Supervision.exitLoop deadline session with
  | case1 session interrupted =>
    rw [undisturbed.isInterrupted_eq_false] at interrupted
    cases interrupted
  | case2 => simp
  | case3 => simp
  | case4 session running handle waited early ih =>
    have same := session.handle.child_awaitUntil (session.handle.clock + pollInterval)
    rw [Handle.await] at waited
    rw [waited] at same
    exact ih ⟨undisturbed.lowered, same ▸ undisturbed.quiet⟩

end Session.IsUndisturbed

/-- Nothing else than an interrupt keeps an execution from its outcome. -/
theorem execute_undisturbed (patience : Patience) (request : Request) (child : Child)
    (quiet : child.raises = []) :
    ∃ outcome, (execute patience request (fun _ => false) false child).result = .ok outcome := by
  have undisturbed : Session.IsUndisturbed
      { handle := Handle.launch child patience.grace, flag := false } := ⟨rfl, quiet⟩
  obtain ⟨running, after⟩ := undisturbed.readLoop request
  simp only [execute]
  generalize readLoop request (fun _ => false)
    { handle := Handle.launch child patience.grace, flag := false } = stopped at running after ⊢
  obtain ⟨stop, session⟩ := stopped
  cases stop with
  | interrupted => exact absurd rfl running
  | deadline => exact ⟨_, rfl⟩
  | ended =>
    have ends := after.exitLoop (session.handle.clock + patience.exitWait)
    simp only [exitAfter]
    cases waited : exitLoop (session.handle.clock + patience.exitWait) session with
    | mk exit? final =>
      cases exit? with
      | none => simp [waited] at ends
      | some exit => exact ⟨_, rfl⟩

end BoardBench.Supervision
