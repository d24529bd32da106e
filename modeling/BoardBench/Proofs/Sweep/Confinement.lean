import BoardBench.Proofs.Sweep.Invariant

/-!
# One directory at a time

All commands of a pair are executed in the directory of its environment.

Main results: a pair ends alike in two worlds in which commands behave alike in its directory, and
as long as commands leave other directories alone, so does a pair.

Proof strategy: a pair notices no difference if its workbench is confined to its directory. What is
shown of a confined workbench has to be shown for commands in that directory only.
-/
namespace BoardBench.Sweep

open Supervision (Request Outcome)

variable {σ τ υ : Type}

/-- Every question is answered with yes, and asking changes nothing. -/
def Workbench.AlwaysRetries (workbench : Workbench σ) : Prop :=
  ∀ attempt maxAttempts world,
    workbench.decide attempt maxAttempts world = ({ answer := true }, world)

/-! ### How commands behave in a directory -/

/-- The world after commands, one after the other. -/
def Workbench.after (workbench : Workbench σ) (requests : List Request) (world : σ) : σ :=
  requests.foldl (fun world request => (workbench.execute request world).2) world

def AllIn (directory : String) (requests : List Request) : Prop :=
  ∀ request ∈ requests, request.cwd = directory

/-- In the two worlds commands behave alike in the directory: after the same commands there, it is
there in both or in none, and the same comes of the next command. -/
structure AgreeIn (directory : String) (left : Workbench σ) (world : σ) (right : Workbench τ)
    (other : τ) : Prop where
  isDirectory : ∀ requests, AllIn directory requests →
    left.isDirectory directory (left.after requests world) =
      right.isDirectory directory (right.after requests other)
  result : ∀ requests request, AllIn directory requests → request.cwd = directory →
    (left.execute request (left.after requests world)).1.result =
      (right.execute request (right.after requests other)).1.result

namespace AgreeIn

variable {directory : String} {left : Workbench σ} {world : σ} {right : Workbench τ} {other : τ}

theorem refl (directory : String) (workbench : Workbench σ) (world : σ) :
    AgreeIn directory workbench world workbench world where
  isDirectory _ _ := rfl
  result _ _ _ _ := rfl

theorem symm (agree : AgreeIn directory left world right other) :
    AgreeIn directory right other left world where
  isDirectory requests within := (agree.isDirectory requests within).symm
  result requests request within inside := (agree.result requests request within inside).symm

theorem trans {middle : Workbench τ} {between : τ} {right : Workbench υ} {other : υ}
    (first : AgreeIn directory left world middle between)
    (second : AgreeIn directory middle between right other) :
    AgreeIn directory left world right other where
  isDirectory requests within :=
    (first.isDirectory requests within).trans (second.isDirectory requests within)
  result requests request within inside :=
    (first.result requests request within inside).trans
      (second.result requests request within inside)

/-- The same command in the directory leaves worlds that agree again. -/
theorem execute (agree : AgreeIn directory left world right other) {request : Request}
    (inside : request.cwd = directory) :
    AgreeIn directory left (left.execute request world).2 right
      (right.execute request other).2 := by
  have within {requests : List Request} (rest : AllIn directory requests) :
      AllIn directory (request :: requests) := List.forall_mem_cons.mpr ⟨inside, rest⟩
  constructor
  · intro requests rest
    exact agree.isDirectory (request :: requests) (within rest)
  · intro requests next rest inside
    exact agree.result (request :: requests) next (within rest) inside

end AgreeIn

/-! ### Confined workbenches -/

/-- The workbench that knows one directory only and refuses commands for any other one. -/
def Workbench.confined (workbench : Workbench σ) (directory : String) : Workbench σ where
  isDirectory path world := path == directory && workbench.isDirectory path world
  execute request world :=
    if request.cwd = directory then workbench.execute request world
    else ({ seen := [], result := .error .emptyCommand, unconfigured := by simp }, world)
  decide := workbench.decide

section Confined

variable (settings : Settings) (workbench : Workbench σ)

theorem runPhase_confined (request : Request) (journal : Journal σ) :
    settings.runPhase (workbench.confined request.cwd) request journal =
      settings.runPhase workbench request journal := by
  simp only [Settings.runPhase, Workbench.confined, if_true]

variable (benchmark : Benchmark) (environment : Environment)

theorem retryActions_confined :
    settings.retryActions (workbench.confined (settings.target.directory environment)) benchmark
        environment =
      settings.retryActions workbench benchmark environment := by
  have attempt (journal : Journal σ) :=
    runPhase_confined settings workbench (settings.runRequest benchmark environment) journal
  unfold Settings.retryActions
  congr 1
  funext _ journal
  exact attempt journal

/-- A pair does not notice that its workbench is confined to its directory. -/
theorem runPair_confined (journal : Journal σ) :
    settings.runPair (workbench.confined (settings.target.directory environment)) benchmark
        environment journal =
      settings.runPair workbench benchmark environment journal := by
  have phase (command : List String) (journal : Journal σ) :=
    runPhase_confined settings workbench (settings.request benchmark environment command) journal
  have there : (workbench.confined (settings.target.directory environment)).isDirectory
      (settings.target.directory environment) journal.world =
        workbench.isDirectory (settings.target.directory environment) journal.world := by
    simp [Workbench.confined]
  simp only [Settings.request] at phase
  simp only [Settings.runPair, Settings.buildAndCollect, Settings.flashAndCollect,
    Settings.collect, Settings.request, there, phase, retryActions_confined]

theorem runIn_confined (pair : Pair) (world : σ) :
    settings.runIn (workbench.confined (settings.target.directory pair.2)) pair world =
      settings.runIn workbench pair world := by
  rw [Settings.runIn, Settings.runIn, runPair_confined]

end Confined

/-! ### Two worlds -/

section Two

variable {left : Workbench σ} {right : Workbench τ} {directory : String}

theorem simulates_confined (leftAlways : left.AlwaysRetries) (rightAlways : right.AlwaysRetries) :
    Simulates (left.confined directory) (right.confined directory)
      (fun world other => AgreeIn directory left world right other)
      (fun world other => AgreeIn directory left world right other) where
  isDirectory path world other agree := by
    simp only [Workbench.confined]
    by_cases own : path = directory
    · rw [own]
      congr 1
      exact agree.isDirectory [] (by simp [AllIn])
    · rw [beq_false_of_ne own, Bool.false_and, Bool.false_and]
  execute request world other agree := by
    simp only [Workbench.confined]
    split
    next inside =>
      have next := agree.execute inside
      exact ⟨agree.result [] request (by simp [AllIn]) inside, fun _ => next, fun _ => next⟩
    next => exact ⟨rfl, fun _ => agree, fun _ => agree⟩
  decide attempt maxAttempts world other agree := by
    simp only [Workbench.confined, leftAlways attempt, rightAlways attempt]
    exact ⟨trivial, agree⟩

/-- If commands behave alike in the directory of a pair, then the pair ends alike, and they behave
alike there afterwards. -/
theorem runIn_of_agreeIn (leftAlways : left.AlwaysRetries) (rightAlways : right.AlwaysRetries)
    (settings : Settings) (pair : Pair) {world : σ} {other : τ}
    (agree : AgreeIn (settings.target.directory pair.2) left world right other) :
    (settings.runIn left pair world).1 = (settings.runIn right pair other).1 ∧
      AgreeIn (settings.target.directory pair.2) left (settings.runIn left pair world).2 right
        (settings.runIn right pair other).2 := by
  have start : OnWorlds (fun world other =>
      AgreeIn (settings.target.directory pair.2) left world right other)
      { world } { world := other } := agree
  have ended := (simulates_confined leftAlways rightAlways).runPair settings pair.1 pair.2 start
  rw [runPair_confined, runPair_confined] at ended
  exact ⟨ended.result, ended.related⟩

end Two

/-! ### Other directories -/

/-- A command changes nothing for the commands in other directories. -/
def Workbench.KeepsApart (workbench : Workbench σ) : Prop :=
  ∀ request world directory, directory ≠ request.cwd →
    AgreeIn directory workbench (workbench.execute request world).2 workbench world

/-- Then neither does a pair. -/
theorem agreeIn_runIn {workbench : Workbench σ} (always : workbench.AlwaysRetries)
    (apart : workbench.KeepsApart) (settings : Settings) (pair : Pair) (world : σ)
    {directory : String} (elsewhere : directory ≠ settings.target.directory pair.2) :
    AgreeIn directory workbench (settings.runIn workbench pair world).2 workbench world := by
  have keeps : (workbench.confined (settings.target.directory pair.2)).Keeps
      fun now => AgreeIn directory workbench now workbench world := by
    constructor
    · intro request now agree
      simp only [Workbench.confined]
      split
      next inside => exact (apart request now directory (inside ▸ elsewhere)).trans agree
      next => exact agree
    · intro attempt maxAttempts now agree
      simp only [Workbench.confined, always attempt]
      exact agree
  have kept := keeps.runIn settings pair (.refl directory workbench world)
  rw [runIn_confined] at kept
  exact kept

end BoardBench.Sweep
