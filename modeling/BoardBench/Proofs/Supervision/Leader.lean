import BoardBench.Proofs.Supervision.Teardown

/-!
# What becomes of a leader that is asked to end

A teardown sends SIGTERM when it starts and SIGKILL when the group has drained or the grace window
is over. What the leader's end looks like then depends on what it does on SIGTERM, and on when it
would have ended by itself.
-/
namespace BoardBench.Supervision

/-! ### One process -/

/-- What a process makes of SIGTERM when SIGKILL follows, at the earliest after the grace window. -/
inductive Member.EndsAsked (member : Member) (grace asked kill : Nat) : Status → Prop
  | died : member.responseAt asked = .die → EndsAsked member grace asked kill (.signal sigterm)
  | trapped {delay : Nat} {code : Int} : member.responseAt asked = .finish delay code →
    asked + delay < member.ends → asked + delay ≤ kill →
    EndsAsked member grace asked kill (.code code)
  | unmoved : member.responseAt asked ≠ .die →
    (∀ delay code, member.responseAt asked = .finish delay code → member.ends ≤ asked + delay) →
    member.ends ≤ kill → EndsAsked member grace asked kill member.status
  | outlived : member.responseAt asked ≠ .die →
    (∀ delay code, member.responseAt asked = .finish delay code → kill < asked + delay) →
    kill < member.ends → asked + grace ≤ kill →
    EndsAsked member grace asked kill (.signal sigkill)

namespace Member

variable {member : Member} {grace asked kill : Nat}

theorem status_killed (born : member.born ≤ kill) :
    (member.ends ≤ kill ∧ (member.killed kill).status = member.status) ∨
    (kill < member.ends ∧ (member.killed kill).status = .signal sigkill ∧
      member.isAlive kill = true) := by
  by_cases ended : member.ends ≤ kill
  · exact .inl ⟨ended, congrArg status (killed_of_ends_le ended)⟩
  · have alive : member.isAlive kill = true := by
      simp only [isAlive, Bool.and_eq_true, decide_eq_true_eq]
      omega
    refine .inr ⟨by omega, ?_, alive⟩
    simp [killed, alive]

/-- A process that is there dies of SIGTERM, or its trap ends it, or it goes on as it would have. -/
theorem terminated_cases (alive : member.isAlive asked = true) :
    (member.responseAt asked = .die ∧
      member.terminated asked = { member with ends := asked, status := .signal sigterm }) ∨
    (∃ delay code, member.responseAt asked = .finish delay code ∧ asked + delay < member.ends ∧
      member.terminated asked = { member with ends := asked + delay, status := .code code }) ∨
    (member.responseAt asked ≠ .die ∧
      (∀ delay code, member.responseAt asked = .finish delay code → member.ends ≤ asked + delay) ∧
      member.terminated asked = member) := by
  cases response : member.responseAt asked with
  | die => simp [terminated, alive, response]
  | ignore => simp [terminated, alive, response]
  | finish delay code =>
    by_cases early : asked + delay < member.ends
    · simp [terminated, alive, response, early]
    · simp [terminated, alive, response, early, Nat.not_lt.mp early]

/-- What is left of a process that was asked to end at one time, and killed at another if it was
still there. -/
structure IsStopped (member : Member) (grace asked kill : Nat) (left : Member) : Prop where
  later : asked ≤ kill
  soon : kill < asked + grace + reapPoll
  spent : (member.terminated asked).isAlive kill = true → asked + grace ≤ kill
  killed : left = (member.terminated asked).killed kill

theorem isStopped_of_ends_le (ended : member.ends ≤ asked) :
    member.IsStopped grace asked asked member where
  later := Nat.le_refl asked
  soon := by
    rw [reapPoll]
    omega
  spent alive := by
    rw [terminated_of_ends_le ended, not_isAlive_of_ends_le ended] at alive
    cases alive
  killed := by rw [terminated_of_ends_le ended, killed_of_ends_le ended]

namespace IsStopped

variable {left : Member} (stopped : member.IsStopped grace asked kill left)
include stopped

/-- What had ended before is not touched. -/
theorem eq_of_ends_le (ended : member.ends ≤ asked) : left = member := by
  rw [stopped.killed, terminated_of_ends_le ended,
    killed_of_ends_le (Nat.le_trans ended stopped.later)]

theorem endsAsked (alive : member.isAlive asked = true) :
    member.EndsAsked grace asked kill left.status := by
  obtain ⟨later, -, spent, rfl⟩ := stopped
  have born : (member.terminated asked).born ≤ kill := by
    rw [born_terminated]
    simp only [isAlive, Bool.and_eq_true, decide_eq_true_eq] at alive
    omega
  have killed := status_killed born
  obtain ⟨response, same⟩ | ⟨delay, code, response, early, same⟩ | ⟨dull, slow, same⟩ :=
    terminated_cases alive
  · -- It is gone when SIGKILL comes.
    rw [same, killed_of_ends_le later]
    exact .died response
  -- Its trap ends it, unless SIGKILL comes first.
  · obtain ⟨ended, status⟩ | ⟨going, status, still⟩ := killed
    · rw [status]
      rw [same] at ended ⊢
      exact .trapped response early ended
    · rw [status]
      rw [same] at going
      refine .outlived (by simp [response]) ?_ (Nat.lt_trans going early) (spent still)
      rintro other _ set
      cases response.symm.trans set
      exact going
  -- It ends by itself, unless SIGKILL comes first.
  · obtain ⟨ended, status⟩ | ⟨going, status, still⟩ := killed
    · rw [status]
      rw [same] at ended ⊢
      exact .unmoved dull slow ended
    · rw [status]
      rw [same] at going
      refine .outlived dull ?_ going (spent still)
      intro delay code set
      exact Nat.lt_of_lt_of_le going (slow delay code set)

end IsStopped

end Member

/-! ### The leader of a group -/

namespace Handle

theorem leader_stopGroup (handle : Handle) :
    ∃ kill, handle.child.leader.IsStopped handle.grace handle.clock kill
      handle.stopGroup.child.leader := by
  obtain ⟨later, bound, spent⟩ := clock_drain (handle.clock + handle.grace)
    { handle with child := handle.child.terminated handle.clock }
  simp only at later bound spent
  refine ⟨_, later, ?_, ?_, ?_⟩
  · rcases bound with same | below
    · rw [same, reapPoll]
      omega
    · exact below
  · intro alive
    apply spent
    rw [Child.isAlive, Bool.or_eq_true]
    exact .inl alive
  · simp only [stopGroup, child_drain]
    rfl

theorem leader_terminate {handle : Handle} (unreleased : handle.released = false) :
    ∃ kill, handle.child.leader.IsStopped handle.grace handle.clock kill
      handle.terminate.child.leader := by
  -- The handle is latched first; what it watches stays the same.
  have same := child_reap { handle with released := true }
  have patient := grace_reap { handle with released := true }
  have here := clock_reap { handle with released := true }
  rw [terminate, if_neg (by simp [unreleased])]
  generalize ({ handle with released := true }.reap) = latch at same patient here ⊢
  simp only at same patient here
  simp only [child_collect, Child.settled]
  rw [← same, ← patient, ← here]
  by_cases alive : latch.child.isAlive latch.clock = true
  · simp only [alive, if_true]
    exact leader_stopGroup latch
  · rw [Bool.not_eq_true] at alive
    simp only [alive, Bool.false_eq_true, if_false]
    exact ⟨latch.clock, Member.isStopped_of_ends_le (Child.leader_ends_le alive)⟩

end Handle

end BoardBench.Supervision
