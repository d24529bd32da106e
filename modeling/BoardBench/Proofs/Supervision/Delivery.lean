import BoardBench.Proofs.Supervision.Telemetry
import BoardBench.Proofs.Supervision.Teardown

/-!
# Interrupts while the output is shown

Main result: if the shutdown flag is raised while the observer is shown a line, the execution is
interrupted, and that line is the last one shown. It makes no difference that the line closes the
window, that the stream closes behind it, or that it came after the deadline. The other way round,
an execution is interrupted only if the flag was raised.

Proof strategy: one invariant ties the flag to the lines shown. Before each look at the flag, only
the last line shown can have raised it. Every way on from a line leads to such a look, so a raised
flag is found before another line is shown.
-/
namespace BoardBench.Supervision

open Console (lines)

/-! ### The flag and the lines shown -/

namespace Session

variable {request : Request} {raisesOn : Nat → Bool} {texts : List String} {flag : Bool}
  {session : Session}

theorem seen_observe (session : Session) (monitored : Bool) (raisesOn : Nat → Bool) (text : String)
    (handle : Handle) :
    (session.observe monitored raisesOn text handle).2.seen = session.seen ++ [text] := by
  unfold observe
  split
  rfl

theorem flag_observe (session : Session) (monitored : Bool) (raisesOn : Nat → Bool) (text : String)
    (handle : Handle) :
    (session.observe monitored raisesOn text handle).2.flag =
      (session.flag || raisesOn (session.seen.length + 1)) := by
  unfold observe
  split
  simp

/-- What the scanner makes of a line does not depend on the flag. -/
theorem scan_observe (session : Session) (monitored : Bool) (raisesOn other : Nat → Bool)
    (text : String) (handle : Handle) :
    (session.observe monitored raisesOn text handle).1 =
      (session.observe monitored other text handle).1 := by
  rfl

/-- Only whether the next line raises the flag counts when a line is shown. -/
theorem observe_congr (session : Session) (monitored : Bool) (raisesOn other : Nat → Bool)
    (same : raisesOn (session.seen.length + 1) = other (session.seen.length + 1)) (text : String)
    (handle : Handle) :
    session.observe monitored raisesOn text handle =
      session.observe monitored other text handle := by
  simp [observe, same]

/-- Only the last one of the lines shown can have raised the flag, which was at `flag` before. -/
structure TellsRaises (raisesOn : Nat → Bool) (flag : Bool) (session : Session) : Prop where
  quiet : ∀ number, 0 < number → number < session.seen.length → raisesOn number = false
  flag_iff : session.flag = true ↔
    flag = true ∨ 0 < session.seen.length ∧ raisesOn session.seen.length = true

theorem TellsRaises.launch (raisesOn : Nat → Bool) (flag : Bool) (handle : Handle) :
    TellsRaises raisesOn flag { handle, flag } where
  quiet number _ early := absurd early (Nat.not_lt_zero number)
  flag_iff := by simp

/-- A line is shown only while the flag is down, so no line before it has raised the flag. -/
theorem TellsRaises.observe (tells : session.TellsRaises raisesOn flag)
    (running : ¬session.isInterrupted = true) (monitored : Bool) (text : String) (handle : Handle) :
    (session.observe monitored raisesOn text handle).2.TellsRaises raisesOn flag := by
  have lowered : session.flag = false := by
    simp only [isInterrupted, Bool.or_eq_true, not_or, Bool.not_eq_true] at running
    exact running.1
  have before := tells.flag_iff
  simp only [lowered, Bool.false_eq_true, false_iff, not_or, not_and, Bool.not_eq_true] at before
  have count : (session.seen ++ [text]).length = session.seen.length + 1 := by simp
  constructor
  · intro number positive early
    rw [seen_observe, count] at early
    rcases Nat.lt_succ_iff_lt_or_eq.mp early with earlier | rfl
    · exact tells.quiet number positive earlier
    · exact before.2 positive
  · rw [flag_observe, seen_observe, count, lowered]
    simp [before.1]

/-! ### The read loop -/

/-- What is shown at a time is a beginning of the stream. -/
theorem IsReading.seen_prefix (reading : session.IsReading request texts) :
    session.seen <+: texts := by
  rw [reading.shown, reading.whole]
  exact List.prefix_append _ _

theorem IsReading.seen_concat_prefix (reading : session.IsReading request texts) {text : String}
    {next : Handle} (read : session.handle.readLine pollInterval = (.line text, next)) :
    session.seen ++ [text] <+: texts := by
  rw [reading.shown, reading.whole, (Handle.readLine_line_spec read).1]
  exact (List.prefix_append_right_inj _).mpr ⟨next.unread.map Prod.snd, rfl⟩

end Session

section Reading

variable {request : Request} {raisesOn : Nat → Bool} {texts : List String} {flag : Bool}
  {session : Session}

/-- Reading that is cut off by the deadline was not interrupted. -/
theorem readLoop_tells (reading : session.IsReading request texts)
    (tells : session.TellsRaises raisesOn flag) :
    (readLoop request raisesOn session).2.seen <+: texts ∧
      (readLoop request raisesOn session).2.TellsRaises raisesOn flag ∧
      ((readLoop request raisesOn session).1 = .deadline →
        (readLoop request raisesOn session).2.flag = false) := by
  fun_induction readLoop request raisesOn session with
  | case1 session interrupted =>
    exact ⟨reading.seen_prefix, ⟨tells.quiet, tells.flag_iff⟩, by simp⟩
  | case2 session running late =>
    simp only [Session.isInterrupted, Bool.or_eq_true, not_or, Bool.not_eq_true] at running
    exact ⟨reading.seen_prefix, tells, fun _ => running.1⟩
  | case3 session running early text handle read observed closed =>
    have told := tells.observe running request.monitored text handle
    have shown : observed.2.terminate.seen = session.seen ++ [text] := Session.seen_observe ..
    refine ⟨?_, ⟨told.quiet, told.flag_iff⟩, by simp⟩
    rw [shown]
    exact reading.seen_concat_prefix read
  | case4 session running early text handle read observed unclosed ih =>
    exact ih (reading.observe read unclosed) (tells.observe running request.monitored text handle)
  | case5 session running early handle read ih =>
    obtain ⟨rfl, -⟩ := Handle.readLine_idle read
    exact ih ⟨reading.shown, reading.window, reading.whole, reading.unclosed, reading.unreleased⟩
      ⟨tells.quiet, tells.flag_iff⟩
  | case6 session running early handle read =>
    exact ⟨reading.seen_prefix, ⟨tells.quiet, tells.flag_iff⟩, by simp⟩

theorem seen_prefix_readLoop (request : Request) (raisesOn : Nat → Bool) (session : Session) :
    session.seen <+: (readLoop request raisesOn session).2.seen := by
  fun_induction readLoop request raisesOn session with
  | case1 | case2 | case6 => exact List.prefix_refl _
  | case3 session running early text handle read observed closed =>
    have shown : observed.2.terminate.seen = session.seen ++ [text] := Session.seen_observe ..
    rw [shown]
    exact List.prefix_append _ _
  | case4 session running early text handle read observed unclosed ih =>
    have shown : observed.2.seen = session.seen ++ [text] := Session.seen_observe ..
    rw [shown] at ih
    exact (List.prefix_append _ _).trans ih
  | case5 session running early handle read ih => exact ih

section Step

variable (running : ¬session.isInterrupted = true)
  (early : ¬request.deadline.any (· ≤ session.handle.clock) = true)
include running early

theorem readLoop_line {text : String} {handle : Handle}
    (read : session.handle.readLine pollInterval = (.line text, handle)) :
    readLoop request raisesOn session =
      if (session.observe request.monitored raisesOn text handle).1 = .closed then
        (.ended, (session.observe request.monitored raisesOn text handle).2.terminate)
      else
        readLoop request raisesOn (session.observe request.monitored raisesOn text handle).2 := by
  rw [readLoop, if_neg running, if_neg early]
  split
  next other next event =>
    cases read.symm.trans event
    rfl
  next next event => cases read.symm.trans event
  next next event => cases read.symm.trans event

theorem readLoop_idle {handle : Handle}
    (read : session.handle.readLine pollInterval = (.idle, handle)) :
    readLoop request raisesOn session = readLoop request raisesOn { session with handle } := by
  rw [readLoop, if_neg running, if_neg early]
  split
  next other next event => cases read.symm.trans event
  next next event =>
    cases read.symm.trans event
    rfl
  next next event => cases read.symm.trans event

end Step

/-- As long as no line raises the flag, reading gets as far as it does when none raises it at
all. -/
theorem readLoop_reaches (request : Request) (raisesOn : Nat → Bool) (session : Session)
    {number : Nat} (reached : number ≤ (readLoop request (fun _ => false) session).2.seen.length)
    (quiet : ∀ earlier, session.seen.length < earlier → earlier < number →
      raisesOn earlier = false) :
    number ≤ (readLoop request raisesOn session).2.seen.length := by
  -- Both runs take the same steps as long as the sessions are the same.
  fun_induction readLoop request (fun _ => false) session with
  | case1 session | case2 session | case6 session =>
    exact Nat.le_trans reached (seen_prefix_readLoop request raisesOn session).length_le
  | case3 session running early text handle read observed closed =>
    rw [Session.scan_observe _ _ _ raisesOn] at closed
    rw [readLoop_line running early read, if_pos closed]
    exact reached
  | case4 session running early text handle read observed unclosed ih =>
    rw [Session.scan_observe _ _ _ raisesOn] at unclosed
    rw [readLoop_line running early read, if_neg unclosed]
    by_cases here : number ≤ session.seen.length + 1
    · have shown := (seen_prefix_readLoop request raisesOn
        (session.observe request.monitored raisesOn text handle).2).length_le
      rw [Session.seen_observe, List.length_append, List.length_singleton] at shown
      exact Nat.le_trans here shown
    · -- A later line is asked for, so this one does not raise the flag.
      have silent := quiet (session.seen.length + 1) (Nat.lt_succ_self _) (Nat.not_le.mp here)
      rw [session.observe_congr request.monitored raisesOn (fun _ => false) silent]
      apply ih reached
      intro earlier behind
      rw [Session.seen_observe, List.length_append, List.length_singleton] at behind
      exact quiet earlier (Nat.lt_of_succ_lt behind)
  | case5 session running early handle read ih =>
    rw [readLoop_idle running early read]
    exact ih reached quiet

end Reading

/-! ### Whoever else raises the flag -/

namespace Member

theorem ends_terminated_le (now : Nat) (member : Member) :
    (member.terminated now).ends ≤ member.ends := by
  unfold terminated
  split
  next alive =>
    simp only [isAlive, Bool.and_eq_true, decide_eq_true_eq] at alive
    split
    next => exact Nat.le_of_lt alive.2
    next => exact Nat.le_refl _
    next =>
      split
      next early => exact Nat.le_of_lt early
      next => exact Nat.le_refl _
  next => exact Nat.le_refl _

theorem ends_killed_le (now : Nat) (member : Member) : (member.killed now).ends ≤ member.ends := by
  unfold killed
  split
  next alive =>
    simp only [isAlive, Bool.and_eq_true, decide_eq_true_eq] at alive
    exact Nat.le_of_lt alive.2
  next => exact Nat.le_refl _

end Member

theorem Child.hasRaised_mono {one other : Child} {now time : Nat}
    (raised : one.hasRaised now = true) (same : one.raises = other.raises)
    (longer : one.leader.ends ≤ other.leader.ends) (later : now ≤ time) :
    other.hasRaised time = true := by
  simp only [hasRaised, List.any_eq_true, Bool.and_eq_true, Bool.or_eq_true, Bool.not_eq_true',
    decide_eq_true_eq] at raised ⊢
  obtain ⟨moment, among, past, present⟩ := raised
  exact ⟨moment, same ▸ among, Nat.le_trans past later,
    present.imp_right fun there => Nat.le_trans there longer⟩

/-- A teardown raises no flag. -/
theorem Stops.hasRaised {child left : Child} {grace now time : Nat}
    (stops : Stops child grace now left) (raised : left.hasRaised time = true) :
    child.hasRaised time = true := by
  cases stops with
  | gone => exact raised
  | @stopped start =>
    have shorter : (((child.terminated start).killed now).settled now).leader.ends ≤
        child.leader.ends :=
      Nat.le_trans (Member.ends_killed_le _ _) (Member.ends_terminated_le _ _)
    exact Child.hasRaised_mono raised rfl shorter (Nat.le_refl time)

namespace Handle

variable {child : Child} {grace : Nat} {handle : Handle}

theorem clock_terminate (handle : Handle) : handle.clock ≤ handle.terminate.clock := by
  have stopped (other : Handle) : other.clock ≤ other.stopGroup.clock :=
    (clock_drain (other.clock + other.grace)
      { other with child := other.child.terminated other.clock }).1
  have collected (other : Handle) : other.clock ≤ other.collect.clock := by
    unfold collect
    split
    next => exact Nat.le_max_left _ _
    next => exact Nat.le_refl _
  have latched := clock_reap { handle with released := true }
  unfold terminate
  split
  next => exact Nat.le_refl _
  next =>
    refine Nat.le_trans (Nat.le_of_eq latched.symm) ?_
    dsimp only
    split
    next => exact Nat.le_trans (stopped _) (collected _)
    next => exact collected _

theorem IsHeld.hasRaised (held : handle.IsHeld child grace) {time : Nat}
    (raised : handle.child.hasRaised time = true) : child.hasRaised time = true := by
  rcases held with watching | torn
  · exact watching.untouched ▸ raised
  · exact torn.stops.hasRaised raised

end Handle

/-- The flag is up, or someone has raised it by now. -/
def Session.HasRaised (child : Child) (session : Session) : Prop :=
  session.flag = true ∨ child.hasRaised session.handle.clock = true

section Interrupted

variable {request : Request} {raisesOn : Nat → Bool} {child : Child} {grace : Nat}
  {session : Session}

theorem Session.HasRaised.terminate (held : session.handle.IsHeld child grace)
    (interrupted : session.isInterrupted = true) : session.terminate.HasRaised child := by
  rw [isInterrupted, Bool.or_eq_true] at interrupted
  refine interrupted.imp_right fun raised => ?_
  exact Child.hasRaised_mono (held.hasRaised raised) rfl (Nat.le_refl _)
    session.handle.clock_terminate

theorem readLoop_interrupted (watching : session.handle.IsWatching child grace)
    (interrupted : (readLoop request raisesOn session).1 = .interrupted) :
    (readLoop request raisesOn session).2.HasRaised child := by
  fun_induction readLoop request raisesOn session with
  | case1 session raised => exact .terminate (.inl watching) raised
  | case2 | case3 | case6 => cases interrupted
  | case4 session running early text handle read observed unclosed ih =>
    refine ih ?_ interrupted
    rw [Session.handle_observe]
    exact watching.readLine read
  | case5 session running early handle read ih => exact ih (watching.readLine read) interrupted

theorem exitLoop_interrupted {deadline : Nat} (held : session.handle.IsHeld child grace)
    (interrupted : (exitLoop deadline session).1 = none) :
    (exitLoop deadline session).2.HasRaised child := by
  fun_induction exitLoop deadline session with
  | case1 session raised => exact .terminate held raised
  | case2 | case3 => cases interrupted
  | case4 session running handle waited early ih => exact ih (held.await waited) interrupted

end Interrupted

/-! ### The whole execution -/

section Execution

variable {patience : Patience} {request : Request} {raisesOn : Nat → Bool} {flag : Bool}
  {child : Child}

/-- A raised flag is found after the reading, unless it was looked for and not found at its end. -/
theorem exitAfter_of_flag (patience : Patience) {stop : Stop} {session : Session}
    (raised : session.flag = true) (running : stop ≠ .deadline) :
    (exitAfter patience (stop, session)).1 = none := by
  cases stop with
  | interrupted => rfl
  | deadline => exact absurd rfl running
  | ended =>
    rw [exitAfter, exitLoop, if_pos]
    rw [Session.isInterrupted, raised, Bool.true_or]

theorem exitAfter_interrupted {stop : Stop} {session : Session}
    (held : session.handle.IsHeld child patience.grace)
    (raised : stop = .interrupted → session.HasRaised child)
    (interrupted : (exitAfter patience (stop, session)).1 = none) :
    (exitAfter patience (stop, session)).2.HasRaised child := by
  cases stop with
  | interrupted => exact raised rfl
  | deadline => cases interrupted
  | ended => exact exitLoop_interrupted held interrupted

/-- An execution is interrupted exactly if no exit comes after the reading. -/
theorem execute_interrupted_iff :
    (execute patience request raisesOn flag child).result = .error .interrupted ↔
      (exitAfter patience (readLoop request raisesOn
        { handle := Handle.launch child patience.grace, flag })).1 = none := by
  simp only [execute]
  split
  next session ends => simp [ends]
  next exit session ends => simp [ends]

theorem seen_execute :
    (execute patience request raisesOn flag child).session.seen =
      (readLoop request raisesOn
        { handle := Handle.launch child patience.grace, flag }).2.seen := by
  -- From the end of reading on only the handle changes.
  have keeps := congrArg Session.seen (exitAfter_keeps patience
    (readLoop request raisesOn { handle := Handle.launch child patience.grace, flag }))
  simp only [execute]
  split
  next session ends =>
    rw [ends] at keeps
    exact keeps
  next exit session ends =>
    rw [ends] at keeps
    exact keeps

/-- An interrupted execution stands as the interrupt has left it. -/
theorem execute_of_interrupted
    (interrupted : (execute patience request raisesOn flag child).result = .error .interrupted) :
    (exitAfter patience (readLoop request raisesOn
        { handle := Handle.launch child patience.grace, flag })).1 = none ∧
      (execute patience request raisesOn flag child).session =
        (exitAfter patience (readLoop request raisesOn
          { handle := Handle.launch child patience.grace, flag })).2 := by
  simp only [execute] at interrupted ⊢
  split at interrupted
  next session ends => simp [ends]
  next => cases interrupted

/-- If the flag is raised while a line is shown, the execution is interrupted, and the lines shown
are those of the output up to this one. Every line is shown that would be shown if none of them
raised the flag, unless one before it does. An execution is interrupted only if the flag was up from
the start, or the last line shown raised it, or it was raised in between. -/
theorem interrupt_stops_delivery (patience : Patience) (request : Request) (raisesOn : Nat → Bool)
    (flag : Bool) (child : Child) :
    let run := execute patience request raisesOn flag child
    let calm := execute patience request (fun _ => false) flag child
    (∀ number, 0 < number → number ≤ run.session.seen.length → raisesOn number = true →
      run.result = .error .interrupted ∧ run.session.seen.length = number ∧
        run.session.seen = (lines child.output).take number) ∧
    (∀ number ≤ calm.session.seen.length,
      (∀ earlier, 0 < earlier → earlier < number → raisesOn earlier = false) →
        number ≤ run.session.seen.length) ∧
    (run.result = .error .interrupted → flag = true ∨
      (0 < run.session.seen.length ∧ raisesOn run.session.seen.length = true) ∨
      child.hasRaised run.session.handle.clock = true) := by
  intro run calm
  have reading := Session.IsReading.launch request child patience.grace flag
  have watching : Handle.IsWatching child patience.grace
      (Session.handle { handle := Handle.launch child patience.grace, flag }) :=
    ⟨rfl, rfl, rfl, fun status same => by cases same⟩
  obtain ⟨whole, tells, undated⟩ :=
    readLoop_tells reading (Session.TellsRaises.launch raisesOn flag _)
  have held := (readLoop_holds request raisesOn watching).1
  have shown : run.session.seen = _ := seen_execute
  refine ⟨?_, ?_, ?_⟩
  · intro number positive reached raises
    rw [shown] at reached ⊢
    -- A line before the last one would have raised the flag before a look at it.
    have last : (readLoop request raisesOn
        { handle := Handle.launch child patience.grace, flag }).2.seen.length = number := by
      refine Nat.le_antisymm (Nat.not_lt.mp fun more => ?_) reached
      rw [tells.quiet number positive more] at raises
      cases raises
    have up := tells.flag_iff.mpr (.inr (by rw [last]; exact ⟨positive, raises⟩))
    refine ⟨execute_interrupted_iff.mpr (exitAfter_of_flag patience up ?_), last, ?_⟩
    · intro late
      rw [undated late] at up
      cases up
    · rw [← last]
      exact List.prefix_iff_eq_take.mp whole
  · intro number reached quiet
    rw [seen_execute] at reached
    rw [shown]
    exact readLoop_reaches request raisesOn _ reached quiet
  · intro interrupted
    obtain ⟨ends, left⟩ := execute_of_interrupted interrupted
    have raised := exitAfter_interrupted held (readLoop_interrupted watching) ends
    rw [← left] at raised
    rw [or_assoc.symm]
    refine raised.imp_left fun up => ?_
    rw [left, exitAfter_keeps] at up
    rw [shown]
    exact tells.flag_iff.mp up

end Execution

/-- The flag is raised while the line is shown that closes the window. -/
theorem interrupted_at_closing_line :
    let run := execute {} terminalRequest (· == 4) false terminal
    run.result = .error .interrupted ∧ run.session.seen =
      ["=== Benchmark Begins ===", "iteration;time", "1;2", "=== Benchmark End ==="] := by
  intro run
  obtain ⟨outcome, finished⟩ := execute_undisturbed {} terminalRequest terminal rfl
  obtain ⟨shown, concludes⟩ := execute_ok finished
  have inTime := exit_ne_timedOut_of_closed concludes rfl rfl (by decide +kernel)
  rw [transcript_eq_untilClosed concludes rfl inTime] at shown
  obtain ⟨wins, reaches, -⟩ := interrupt_stops_delivery {} terminalRequest (· == 4) false terminal
  have reached : 4 ≤ run.session.seen.length := by
    apply reaches
    · rw [shown]
      decide +kernel
    · intro earlier positive before
      exact beq_false_of_ne (Nat.ne_of_lt before)
  obtain ⟨interrupted, -, delivered⟩ := wins 4 (by decide) reached rfl
  refine ⟨interrupted, delivered.trans ?_⟩
  decide +kernel

end BoardBench.Supervision
