import BoardBench.Proofs.Sweep.Truncation
import BoardBench.Host.Station

/-!
# The commands of a sweep

Main result: a sweep executes what its pairs plan and nothing else, each command in the world that
the events before it have led to. A station refuses no command as empty but the empty one, so a
sweep whose phases all have commands never meets this refusal.

Proof strategy: a pair does not notice if its workbench passes over all that it does not plan. A
record kept behind such a workbench shows what was planned only. That a record leads from the first
world to the present one is an invariant of the workbench that keeps it.
-/
namespace BoardBench

def PhaseCommands.all (commands : PhaseCommands) : List (List String) :=
  [commands.build, commands.flash, commands.run]

namespace Sweep

open Supervision (Request Outcome)

variable {σ : Type}

/-- What comes of a command that is passed over. -/
def Execution.passed : Execution where
  seen := []
  result := .error .emptyCommand
  unconfigured _ := nofun

/-- The workbench that passes over all other commands. -/
def Workbench.only (workbench : Workbench σ) (planned : List Request) : Workbench σ where
  isDirectory := workbench.isDirectory
  execute request world :=
    if planned.contains request then workbench.execute request world else (.passed, world)
  decide := workbench.decide

/-! ### Passing over other commands -/

section Only

variable (settings : Settings) (workbench : Workbench σ)

theorem runPhase_only {planned : List Request} {request : Request} (own : request ∈ planned)
    (journal : Journal σ) :
    settings.runPhase (workbench.only planned) request journal =
      settings.runPhase workbench request journal := by
  simp only [Settings.runPhase, Workbench.only, if_pos (List.contains_iff_mem.mpr own)]

variable (pair : Pair)

theorem collect_only {planned : List Request}
    (own : settings.runRequest pair.1 pair.2 ∈ planned) (journal : Journal σ) :
    settings.collect (workbench.only planned) pair.1 pair.2 journal =
      settings.collect workbench pair.1 pair.2 journal := by
  have actions : settings.retryActions (workbench.only planned) pair.1 pair.2 =
      settings.retryActions workbench pair.1 pair.2 := by
    unfold Settings.retryActions
    congr 1
    funext _ journal
    exact runPhase_only settings workbench own journal
  rw [Settings.collect, Settings.collect, actions]

theorem runPair_only (journal : Journal σ) :
    settings.runPair (workbench.only (settings.plan pair)) pair.1 pair.2 journal =
      settings.runPair workbench pair.1 pair.2 journal := by
  have build : settings.buildRequest pair ∈ settings.plan pair := mem_plan_iff.mpr (.inl rfl)
  have run : settings.runRequest pair.1 pair.2 ∈ settings.plan pair :=
    mem_plan_iff.mpr (.inr (.inr rfl))
  have flashes (journal : Journal σ) :
      settings.flashAndCollect (workbench.only (settings.plan pair)) pair.1 pair.2 journal =
        settings.flashAndCollect workbench pair.1 pair.2 journal := by
    unfold Settings.flashAndCollect
    split
    next => exact collect_only settings workbench pair run journal
    next foreign =>
      have flash : settings.flashRequest pair ∈ settings.plan pair :=
        mem_plan_iff.mpr (.inr (.inl ⟨foreign, rfl⟩))
      simp only [collect_only settings workbench pair run]
      rw [← Settings.flashRequest, runPhase_only settings workbench flash]
  unfold Settings.runPair Settings.buildAndCollect
  simp only [flashes]
  rw [← Settings.buildRequest, runPhase_only settings workbench build]
  rfl

theorem runIn_only (world : σ) :
    settings.runIn (workbench.only (settings.plan pair)) pair world =
      settings.runIn workbench pair world := by
  rw [Settings.runIn, runPair_only, Settings.runIn]

end Only

/-! ### Where events lead -/

/-- The events are what is executed and asked on the way from one world to another, in order, each
with what comes of it in the world that the ones before it lead to. -/
inductive Workbench.Leads (workbench : Workbench σ) (start : σ) : List Event → σ → Prop
  | refl : Leads workbench start [] start
  | execute {events : List Event} {now : σ} (leads : Leads workbench start events now)
      (request : Request) :
    Leads workbench start (events ++ [.ran request (workbench.execute request now).1.result])
      (workbench.execute request now).2
  | decide {events : List Event} {now : σ} (leads : Leads workbench start events now)
      (attempt maxAttempts : UInt32) :
    Leads workbench start
      (events ++ [.answered (workbench.decide attempt maxAttempts now).1.answer])
      (workbench.decide attempt maxAttempts now).2

namespace Workbench.Leads

variable {workbench : Workbench σ} {start middle now : σ} {events more : List Event}

theorem append (first : workbench.Leads start events middle)
    (last : workbench.Leads middle more now) : workbench.Leads start (events ++ more) now := by
  induction last with
  | refl =>
    rw [List.append_nil]
    exact first
  | execute _ request ih =>
    rw [← List.append_assoc]
    exact ih.execute request
  | decide _ attempt maxAttempts ih =>
    rw [← List.append_assoc]
    exact ih.decide attempt maxAttempts

theorem keeps {invariant : σ → Prop} (keeps : workbench.Keeps invariant) (holds : invariant start)
    (leads : workbench.Leads start events now) : invariant now := by
  induction leads with
  | refl => exact holds
  | execute _ request ih => exact keeps.execute request _ ih
  | decide _ attempt maxAttempts ih => exact keeps.decide attempt maxAttempts _ ih

/-- An execution among the events takes place in the world that the events before it lead to. -/
theorem exists_execute (leads : workbench.Leads start events now) {earlier : List Event}
    {request : Request} {result : Except Fault Outcome}
    (begins : earlier ++ [.ran request result] <+: events) :
    ∃ world, workbench.Leads start earlier world ∧
      (workbench.execute request world).1.result = result := by
  -- The last event is the one in question, or it is of no concern.
  induction leads with
  | refl => simp at begins
  | execute leads other ih =>
    rcases List.prefix_concat_iff.mp begins with whole | before
    · obtain ⟨rfl, same⟩ := List.append_inj' whole rfl
      cases same
      exact ⟨_, leads, rfl⟩
    · exact ih before
  | decide leads attempt maxAttempts ih =>
    rcases List.prefix_concat_iff.mp begins with whole | before
    · cases (List.append_inj' whole rfl).2
    · exact ih before

end Workbench.Leads

section Led

variable {settings : Settings} {workbench : Workbench σ}

theorem keeps_leads (workbench : Workbench σ) (start : σ) :
    workbench.recorded.Keeps fun state => workbench.Leads start state.2 state.1 where
  execute request _ leads := leads.execute request
  decide attempt maxAttempts _ leads := leads.decide attempt maxAttempts

theorem leads_events (pair : Pair) (world : σ) :
    workbench.Leads world (settings.events workbench pair world)
      (settings.runIn workbench pair world).2 := by
  have start : workbench.Leads world (world, ([] : List Event)).2 (world, ([] : List Event)).1 :=
    .refl
  have leads := (keeps_leads workbench world).runIn settings pair start
  rwa [runIn_recorded] at leads

/-- The events of the pairs before one lead to the world in which it starts. -/
theorem leads_logs {pairs : List Pair} {world : σ} {index : Nat} {log : List Event}
    (found : (settings.logs workbench world pairs)[index]? = some log) :
    workbench.Leads world ((settings.logs workbench world pairs).take index).flatten
      (settings.worldAfter workbench (pairs.take index) world) := by
  induction pairs generalizing world index with
  | nil => simp [Settings.logs] at found
  | cons pair rest ih =>
    cases index with
    | zero => exact .refl
    | succ index =>
      rw [Settings.logs, List.getElem?_cons_succ] at found
      rw [Settings.logs, List.take_succ_cons, List.flatten_cons]
      split at found
      next ended =>
        rw [if_pos ended]
        exact (leads_events pair world).append (ih found)
      next => simp at found

end Led

/-! ### What is executed -/

section Executed

variable {settings : Settings} {workbench : Workbench σ}

theorem keeps_planned (workbench : Workbench σ) (planned : List Request) :
    (workbench.recorded.only planned).Keeps fun state =>
      ∀ request result, .ran request result ∈ state.2 → request ∈ planned where
  execute request state executed := by
    simp only [Workbench.only]
    split
    next own =>
      intro other result logged
      rcases List.mem_append.mp logged with before | last
      · exact executed other result before
      · cases List.mem_singleton.mp last
        exact List.contains_iff_mem.mp own
    next => exact executed
  decide attempt maxAttempts state executed := by
    intro request result logged
    rcases List.mem_append.mp logged with before | last
    · exact executed request result before
    · cases List.mem_singleton.mp last

/-- A pair executes what it plans, also if it is interrupted. -/
theorem mem_plan_of_mem_events {pair : Pair} {world : σ} {request : Request}
    {result : Except Fault Outcome}
    (logged : .ran request result ∈ settings.events workbench pair world) :
    request ∈ settings.plan pair := by
  have start (request : Request) (result : Except Fault Outcome)
      (logged : .ran request result ∈ (world, ([] : List Event)).2) :
      request ∈ settings.plan pair :=
    absurd logged List.not_mem_nil
  have kept := (keeps_planned workbench (settings.plan pair)).runIn settings pair start
  rw [runIn_only] at kept
  exact kept request result logged

/-- In a sweep each pair executes what it plans, each command in the world that all events before it
have led to. -/
theorem executed_of_mem_logs {pairs : List Pair} {world : σ} {index : Nat} {log : List Event}
    (found : (settings.logs workbench world pairs)[index]? = some log) :
    ∃ pair, pairs[index]? = some pair ∧ ∀ earlier request result,
      earlier ++ [.ran request result] <+: log → request ∈ settings.plan pair ∧
        ∃ now,
          workbench.Leads world
            (((settings.logs workbench world pairs).take index).flatten ++ earlier) now ∧
          (workbench.execute request now).1.result = result := by
  have before := leads_logs found
  obtain ⟨pair, among, rfl⟩ := getElem?_logs found
  refine ⟨pair, among, fun earlier request result begins => ⟨?_, ?_⟩⟩
  · exact mem_plan_of_mem_events (begins.subset (List.mem_append_right _ List.mem_cons_self))
  · obtain ⟨now, leads, comes⟩ := (leads_events pair _).exists_execute begins
    exact ⟨now, before.append leads, comes⟩

end Executed

/-- An event of a log has events before it. -/
theorem exists_prefix_of_mem {event : Event} {log : List Event} (member : event ∈ log) :
    ∃ earlier, earlier ++ [event] <+: log := by
  obtain ⟨earlier, later, rfl⟩ := List.append_of_mem member
  exact ⟨earlier, later, by simp⟩

theorem command_of_mem_plan {settings : Settings} {pair : Pair} {request : Request}
    (planned : request ∈ settings.plan pair) : request.command ∈ settings.commands.all := by
  rcases mem_plan_iff.mp planned with rfl | ⟨-, rfl⟩ | rfl <;>
    simp [Settings.buildRequest, Settings.flashRequest, Settings.runRequest, Settings.request,
      PhaseCommands.all]

/-- In a sweep the commands of the phases are executed and no others. -/
theorem command_of_mem_record {settings : Settings} {workbench : Workbench σ} {config : Config}
    {world : σ} {request : Request} {result : Except Fault Outcome}
    (logged : .ran request result ∈ settings.record workbench config world) :
    request.command ∈ settings.commands.all ∧
      ∃ now, (workbench.execute request now).1.result = result := by
  rw [record_eq_flatten] at logged
  obtain ⟨log, part, member⟩ := List.mem_flatten.mp logged
  obtain ⟨index, found⟩ := List.getElem?_of_mem part
  obtain ⟨pair, -, executed⟩ := executed_of_mem_logs found
  obtain ⟨earlier, begins⟩ := exists_prefix_of_mem member
  obtain ⟨planned, now, -, comes⟩ := executed earlier request result begins
  exact ⟨command_of_mem_plan planned, now, comes⟩

/-! ### The first command -/

section First

variable {settings : Settings} {workbench : Workbench σ} {pair : Pair} {world : σ}
  (on : pair.2.disabled = false)
  (present : workbench.isDirectory (settings.target.directory pair.2) world = true)
include on present

/-- An enabled pair whose directory is there is built. -/
theorem exists_build_mem_events :
    ∃ result, .ran (settings.buildRequest pair) result ∈ settings.events workbench pair world := by
  have grows (journal : Journal (σ × List Event)) : journal.world.2 <+:
      (settings.flashAndCollect workbench.recorded pair.1 pair.2 journal).2.world.2 :=
    prefix_of_records (records_flashAndCollect settings workbench pair.1 pair.2 journal)
  have there :
      workbench.recorded.isDirectory (settings.target.directory pair.2) (world, []) = true :=
    present
  simp only [Settings.events, Settings.runIn, Settings.runPair, on, there, if_true,
    Bool.false_eq_true, if_false, buildAndCollect_eq_prepare]
  generalize Journal.print { world := (world, []) } _ = journal
  obtain ⟨more, whole⟩ := prefix_prepare settings Failure.build grows
    (rfl : settings.runPhase workbench.recorded (settings.buildRequest pair) journal = _)
  rw [← whole, record_of_runPhase rfl]
  exact ⟨_, List.mem_append_left _ (List.mem_append_right _ (List.mem_singleton.mpr rfl))⟩

theorem exists_build_mem_record {config : Config} {rest : List Pair}
    (first : settings.pairs config = pair :: rest) :
    ∃ result,
      .ran (settings.buildRequest pair) result ∈ settings.record workbench config world := by
  obtain ⟨result, member⟩ := exists_build_mem_events on present
  refine ⟨result, ?_⟩
  rw [record_eq_flatten, first, Settings.logs, List.flatten_cons]
  exact List.mem_append_left _ member

end First

end Sweep

/-! ### Stations -/

namespace Host

theorem Machine.command_of_launch {machine : Machine} {request : Supervision.Request}
    (refused : (machine.launch request).1 = .error .emptyCommand) : request.command = [] := by
  unfold launch at refused
  split at refused
  next empty => exact empty
  next =>
    split at refused
    · split at refused <;> cases refused
    · cases refused

theorem execute_filled (patience : Supervision.Patience) (request : Supervision.Request)
    (raisesOn : Nat → Bool) (flag : Bool) (child : Supervision.Child) :
    (Supervision.execute patience request raisesOn flag child).result ≠ .error .emptyCommand := by
  simp only [Supervision.execute]
  split <;> simp

/-- Only the empty command is refused as empty. -/
theorem Station.command_of_execute {raisesOn : Nat → Bool} {request : Supervision.Request}
    {station : Station}
    (refused : ((workbench raisesOn).execute request station).1.result = .error .emptyCommand) :
    request.command = [] := by
  simp only [workbench, run] at refused
  split at refused
  next fault machine launched =>
    cases refused
    exact Machine.command_of_launch (congrArg Prod.fst launched)
  next child machine launched => exact absurd refused (execute_filled _ _ _ _ _)

/-- A sweep on a station whose phases all have commands meets no empty command. -/
theorem Station.never_empty {settings : Sweep.Settings} (filled : [] ∉ settings.commands.all)
    (raisesOn : Nat → Bool) (config : Config) (station : Station) (request : Supervision.Request) :
    .ran request (.error .emptyCommand) ∉
      settings.record (workbench raisesOn) config station := by
  intro logged
  obtain ⟨own, world, refused⟩ := Sweep.command_of_mem_record logged
  rw [command_of_execute refused] at own
  exact filled own

end Host

end BoardBench
