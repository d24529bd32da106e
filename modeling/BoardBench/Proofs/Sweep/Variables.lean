import BoardBench.Proofs.Host.Bindings
import BoardBench.Proofs.Sweep.Commands

/-!
# The variables of the commands of a pair

Main result: in all commands of a pair a name has the value that the environment gives to it last;
if it gives none, that of the harness; if there is none either, the one of the station. This is what
a command reads, unless some name goes on after this one with an equals sign.

Proof strategy: the three layers stand one behind the other in what a command is given, and no event
of a sweep changes what the station gives.
-/
namespace BoardBench.Sweep

open Host (Bindings Machine Station)
open Host.Bindings (Mimics readings_eq_toList find?_of_get?)

/-! ### The layers -/

/-- The value that the harness gives to a name. -/
def Target.ownValue? (target : Target) (benchmark : Benchmark) (name : String) : Option String :=
  if name = "BOARD" then some target.board
  else if name = "BENCHMARK" then some benchmark.filename
  else if name = "SCALE_FACTOR" then some (toString benchmark.scaleFactor.toNat)
  else if name = "ITERATIONS" then some (toString benchmark.iterations.toNat)
  else if name = "PORT" then target.port?
  else none

/-- The value of the uppermost layer that gives one to a name. -/
def Target.layered? (target : Target) (inherited : Bindings) (pair : Pair) (name : String) :
    Option String :=
  ((Bindings.get? pair.2.bindings name).or (target.ownValue? pair.1 name)).or (inherited.get? name)

/-- The variables of the harness. -/
def Target.ownBindings (target : Target) (benchmark : Benchmark) : Bindings :=
  target.bindings benchmark { name := "" }

theorem Target.bindings_eq (target : Target) (pair : Pair) :
    target.bindings pair.1 pair.2 = target.ownBindings pair.1 ++ pair.2.bindings := by
  simp [Target.ownBindings, Target.bindings]

theorem Target.get?_ownBindings (target : Target) (benchmark : Benchmark) (name : String) :
    Bindings.get? (target.ownBindings benchmark) name = target.ownValue? benchmark name := by
  obtain ⟨board, port?, workdir⟩ := target
  by_cases own : name ∈ ["BOARD", "BENCHMARK", "SCALE_FACTOR", "ITERATIONS", "PORT"]
  · simp only [List.mem_cons, List.not_mem_nil, or_false] at own
    rcases own with rfl | rfl | rfl | rfl | rfl <;> cases port? <;> rfl
  · simp only [List.mem_cons, List.not_mem_nil, or_false, not_or] at own
    obtain ⟨board, benchmark, scaleFactor, iterations, port⟩ := own
    cases port? <;>
      simp [ownBindings, bindings, ownValue?, Bindings.get?, *, Ne.symm board, Ne.symm benchmark,
        Ne.symm scaleFactor, Ne.symm iterations, Ne.symm port]

/-- The names of the harness have no equals sign, so none of them is read as another one. -/
theorem Target.not_mimics_ownBindings (target : Target) (benchmark : Benchmark) (name : String) :
    ∀ entry ∈ target.ownBindings benchmark, ¬Mimics entry.1 name := by
  have plain : ∀ entry ∈ target.ownBindings benchmark, '=' ∉ entry.1.toList := by
    obtain ⟨board, port?, workdir⟩ := target
    cases port? <;> simp [ownBindings, bindings]
  rintro entry member ⟨rest, mimics⟩
  have sign := plain entry member
  rw [← mimics] at sign
  simp at sign

/-! ### What a command is given -/

section Given

variable {settings : Settings} {pair : Pair} {request : Supervision.Request}
  (planned : request ∈ settings.plan pair)
include planned

theorem get?_given (machine : Machine) (name : String) :
    (machine.given request).get? name =
      settings.target.layered? machine.inherited pair name := by
  rw [Machine.given, (mem_plan planned).2, Target.bindings_eq, Bindings.get?_append,
    Bindings.get?_append, Target.get?_ownBindings, Target.layered?]

theorem not_mimics_given {machine : Machine} {name : String}
    (unmimicked : ∀ entry ∈ machine.inherited ++ pair.2.bindings, ¬Mimics entry.1 name) :
    ∀ entry ∈ machine.given request, ¬Mimics entry.1 name := by
  obtain ⟨inherited, listed⟩ := List.forall_mem_append.mp unmimicked
  rw [Machine.given, (mem_plan planned).2, Target.bindings_eq]
  exact List.forall_mem_append.mpr ⟨inherited, List.forall_mem_append.mpr
    ⟨settings.target.not_mimics_ownBindings pair.1 name, listed⟩⟩

end Given

/-! ### What a sweep keeps -/

theorem inherited_launch (machine : Machine) (request : Supervision.Request) :
    (machine.launch request).2.inherited = machine.inherited := by
  unfold Machine.launch Machine.start
  grind

theorem keeps_inherited (raisesOn : Nat → Bool) (inherited : Bindings) :
    (Station.workbench raisesOn).Keeps fun station =>
      station.machine.inherited = inherited where
  execute request station same := by
    have kept := inherited_launch station.machine request
    simp only [Station.workbench, Station.run]
    split
    next fault machine launched =>
      rw [launched] at kept
      exact kept.trans same
    next child machine launched =>
      rw [launched] at kept
      exact kept.trans same
  decide attempt maxAttempts station same := same

/-- An environment that gives two values to one name, and one to a name with an equals sign. -/
def overlaidEnvironment : Environment where
  name := "wamr"
  bindings := [("ITERATIONS", "9"), ("A=B", "c"), ("ITERATIONS", "10")]

def overlaidConfig : Config where
  benchmarks :=
    [{ name := "sum", filename := "sum.c", scaleFactor := 3, iterations := 4, board := "native"
       environments := [overlaidEnvironment] }]
  commands := { build := ["true"], flash := ["true"], run := ["false"] }

def overlaidSettings : Settings where
  commands := overlaidConfig.commands
  target := { board := "native", workdir := "/work" }

def overlaidPair : Pair :=
  (overlaidConfig.benchmarks[0], overlaidEnvironment)

/-- A station with a port, on which a build shows the variable `A`. -/
def showingStation : Station where
  machine :=
    { files :=
        { entries :=
            [("/work", .directory), ("/work/wamr", .directory), ("/bin", .directory),
              ("/bin/true", .file [] true), ("/bin/false", .file [] true)] }
      inherited := [("PORT", "usb0"), ("BOARD", "other")]
      described := [(["true"], { phase := "build", steps := [.showVariable "A"] })] }
  desk := { decider := .always }

theorem exists_build_showingStation : ∃ result,
    .ran (overlaidSettings.buildRequest overlaidPair) result ∈
      overlaidSettings.record (Station.workbench fun _ => false) overlaidConfig showingStation :=
  exists_build_mem_record rfl (by decide +kernel) rfl

end BoardBench.Sweep
