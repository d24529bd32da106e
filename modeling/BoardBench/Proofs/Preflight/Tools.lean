import BoardBench.Host.Machine
import BoardBench.Proofs.Files.Joining
import BoardBench.Proofs.Preflight.Listing
import BoardBench.Proofs.Text.Sorted

/-!
# What a passed check promises

A check looks for a program that is named by a path in all environment directories together, while a
sweep starts it in each of them.

Main result: once a check has passed, each enabled pair has its directory, and each program that is
named by a path can be executed from there, or it is a relative one that was found in another
directory only. A pair of the second kind is refused every command with that program.
-/
namespace BoardBench.Preflight

open Sweep

/-! ### What passing means -/

theorem any_isMissing (findings : Findings) :
    findings.listing.any Listing.isMissing =
      findings.pairs.any fun entry => entry.2 == .missingDirectory := by
  rw [Findings.pairs, List.any_filterMap]
  congr 1
  funext listing
  cases listing with
  | noEnvironments => rfl
  | pair benchmark environment state => cases state <;> rfl

theorem isSome_resolveIn_iff {files : Files} {program : String} {directories : List String} :
    (resolveIn files program directories).isSome = true ↔
      ∃ directory ∈ directories, files.isExecutable (Path.join directory program) = true := by
  rw [resolveIn, List.find?_isSome]
  simp only [List.mem_map, exists_exists_and_eq_and]

theorem mem_programsOf_iff {commands : PhaseCommands} {program : String} :
    program ∈ programsOf commands ↔
      ∃ command ∈ [commands.build, commands.flash, commands.run],
        command.head? = some program := by
  rw [programsOf, mem_sortedMembers_iff isOrder_textBefore, List.mem_filterMap]

/-- A directory in which programs are looked for: that of an enabled pair, if it is there, or the
working directory. -/
def IsSearched (settings : Settings) (config : Config) (directory : String) : Prop :=
  directory = settings.target.workdir ∨ ∃ pair ∈ settings.pairs config,
    pair.2.disabled = false ∧ directory = settings.target.directory pair.2

theorem isSearched_of_mem {settings : Settings} {config : Config} {files : Files}
    {directory : String}
    (member : directory ∈ directoriesOf files (checkTarget settings)
      (config.forBoard settings.target.board) ++ [settings.target.workdir]) :
    IsSearched settings config directory := by
  rcases List.mem_append.mp member with among | last
  · obtain ⟨among, -⟩ := List.mem_filter.mp among
    obtain ⟨environment, enabled, rfl⟩ := List.mem_map.mp among
    obtain ⟨supported, on⟩ := List.mem_filter.mp enabled
    obtain ⟨benchmark, entry, within⟩ := List.mem_flatMap.mp supported
    have paired : (benchmark, environment) ∈ settings.pairs config :=
      List.mem_flatMap.mpr ⟨benchmark, entry, List.mem_map.mpr ⟨environment, within, rfl⟩⟩
    exact .inr ⟨_, paired, by simpa using on, rfl⟩
  · exact .inl (List.mem_singleton.mp last)

section Passed

variable {settings : Settings} {config : Config} {files : Files} {search? : Option String}
  (passed : (inspect files search? config (checkTarget settings)).passed = true)
include passed

theorem isDirectory_of_passed {pair : Pair} (among : pair ∈ settings.pairs config)
    (on : pair.2.disabled = false) :
    files.isDirectory (settings.target.directory pair.2) = true := by
  rw [Findings.passed, Bool.and_eq_true, Bool.and_eq_true, Bool.not_eq_true', any_isMissing,
    pairs_inspect] at passed
  have complete := List.any_eq_false.mp passed.1.2 _ (List.mem_map.mpr ⟨pair, among, rfl⟩)
  by_contra absent
  rw [Bool.not_eq_true] at absent
  have missing : stateOf files settings.target pair.2 = .missingDirectory := by
    simp [stateOf, on, absent]
  -- The pair would be listed without its directory, and the check would not have passed.
  rw [missing] at complete
  exact complete rfl

theorem exists_isExecutable_of_passed {program : String}
    (phase : program ∈ programsOf config.commands) (pathed : Path.isBare program = false) :
    ∃ directory, IsSearched settings config directory ∧
      files.isExecutable (Path.join directory program) = true := by
  rw [Findings.passed, Bool.and_eq_true, Bool.and_eq_true] at passed
  have found := List.all_eq_true.mp passed.1.1 _ (List.mem_map.mpr ⟨program, phase, rfl⟩)
  rw [toolOf, if_neg (by simp [pathed])] at found
  obtain ⟨directory, member, executable⟩ := isSome_resolveIn_iff.mp found
  exact ⟨directory, isSearched_of_mem member, executable⟩

end Passed

/-! ### What a missing program means -/

theorem loadOrScript_of_not_isExecutable {files : Files} {path : String}
    (unfit : files.isExecutable path = false) (name : String) (arguments : List String) :
    ∃ cause, Host.loadOrScript files path name arguments = .error cause := by
  have refused : ∃ cause, cause ≠ .unknownFormat ∧
      Host.load files Host.nestingLimit path name arguments = .error cause := by
    rw [Host.nestingLimit, Host.load]
    have known := files.lookup_ne_unknownFormat path
    unfold Files.isExecutable at unfit
    cases looked : files.lookup path with
    | error cause =>
      rw [looked] at known
      exact ⟨cause, by simpa using known, rfl⟩
    | ok entry =>
      rw [looked] at unfit
      cases entry with
      | directory => exact ⟨.accessDenied, by decide, rfl⟩
      | device => exact ⟨.accessDenied, by decide, rfl⟩
      | file content executable =>
        -- The file is there, but it may not be executed.
        simp only at unfit
        subst unfit
        exact ⟨.accessDenied, by decide, rfl⟩
  obtain ⟨cause, known, refused⟩ := refused
  refine ⟨cause, ?_⟩
  rw [Host.loadOrScript, refused]
  exact if_neg known

theorem start_refused {machine : Host.Machine} {program : String} {place : List String}
    (pathed : Path.isBare program = false)
    (unfit : (machine.files.seenFrom place).isExecutable program = false)
    (request : Supervision.Request) (arguments : List String) :
    ∃ cause, (machine.start request program arguments place).1 = .error cause := by
  unfold Host.Machine.start
  simp only
  split
  · exact ⟨_, rfl⟩
  -- The machine looks for the program from the place of the command.
  · obtain ⟨cause, missing⟩ := loadOrScript_of_not_isExecutable unfit program arguments
    have filled : program.isEmpty = false := by simpa using Path.ne_empty_of_not_isBare pathed
    have found : Host.findImage (machine.filesIn place) (machine.given request) program
        arguments = .error cause := by
      rw [Host.findImage, filled, pathed]
      exact missing
    rw [found]
    exact ⟨cause, rfl⟩

/-- A command whose program is named by a path and cannot be executed from its directory is
refused. -/
theorem launch_refused {machine : Host.Machine} {request : Supervision.Request} {program : String}
    (named : request.command.head? = some program) (pathed : Path.isBare program = false)
    (there : machine.files.isDirectory request.cwd = true)
    (unfit : machine.files.isExecutableFrom request.cwd program = false) :
    ∃ cause, (machine.launch request).1 = .error (.spawn program cause) := by
  obtain ⟨arguments, command⟩ := List.head?_eq_some_iff.mp named
  obtain ⟨place, located, -⟩ := Files.isDirectory_iff.mp there
  simp only [Files.isExecutableFrom, located] at unfit
  obtain ⟨cause, refused⟩ := start_refused pathed unfit request arguments
  refine ⟨cause, ?_⟩
  simp only [Host.Machine.launch, command, located, there]
  split
  next actions after started =>
    rw [started] at refused
    cases refused
  next other after started =>
    rw [started] at refused
    cases refused
    rfl

/-! ### The promise -/

/-- Once a check has passed, each enabled pair has its directory, and each program of a phase that
is named by a path can be executed from there. The one exception is a relative program that was
found in another directory instead, of a pair or the working directory: the check lets it pass, and
every command with it is refused in the directory of the pair. -/
theorem starts_or_refused_of_passed {settings : Settings} {config : Config} {files : Files}
    {search? : Option String}
    (passed : (inspect files search? config (checkTarget settings)).passed = true) :
    ∀ pair ∈ settings.pairs config, pair.2.disabled = false →
      let directory := settings.target.directory pair.2
      files.isDirectory directory = true ∧
      ∀ command ∈ [config.commands.build, config.commands.flash, config.commands.run],
        ∀ program, command.head? = some program → Path.isBare program = false →
          files.isExecutableFrom directory program = true ∨
          (files.isExecutableFrom directory program = false ∧
            Path.isAbsolute program = false ∧
            (∃ other, IsSearched settings config other ∧ other ≠ directory ∧
              files.isExecutable (Path.join other program) = true) ∧
            ∀ (machine : Host.Machine) (request : Supervision.Request), machine.files = files →
              request.cwd = directory → request.command.head? = some program →
                ∃ cause, (machine.launch request).1 = .error (.spawn program cause)) := by
  intro pair among on directory
  have there := isDirectory_of_passed passed among on
  refine ⟨there, ?_⟩
  intro command phase program named pathed
  have filled := Path.ne_empty_of_not_isBare pathed
  obtain ⟨found, searched, executable⟩ :=
    exists_isExecutable_of_passed passed (mem_programsOf_iff.mpr ⟨command, phase, named⟩) pathed
  by_cases starts : files.isExecutableFrom directory program = true
  · exact .inl starts
  rw [Bool.not_eq_true] at starts
  -- Found in the directory of the pair, or by an absolute path, the program would start there.
  have elsewhere : files.isExecutable (Path.join directory program) ≠ true := by
    intro here
    rw [Files.isExecutableFrom_of_join filled there here] at starts
    cases starts
  refine .inr ⟨starts, ?_, ⟨found, searched, ?_, executable⟩, ?_⟩
  · by_contra absolute
    rw [Bool.not_eq_false] at absolute
    apply elsewhere
    simpa [Path.join, absolute] using executable
  · rintro rfl
    exact elsewhere executable
  · rintro machine request rfl inside same
    apply launch_refused same pathed
    · rw [inside]
      exact there
    · rw [inside]
      exact starts

/-- A program that stands in one of two environment directories. -/
def lopsidedFiles : Files where
  entries := [("/wasm", .directory), ("/rbpf", .directory),
    ("/wasm/build.sh", .file (encode "exit 0\n") true)]

def lopsidedConfig : Config where
  benchmarks :=
    [{ name := "sum", filename := "sum.c", scaleFactor := 1, iterations := 1, board := "native"
       environments := [{ name := "wasm" }, { name := "rbpf" }] }]
  commands := { build := ["./build.sh"], flash := ["/wasm/build.sh"], run := ["/wasm/build.sh"] }

def lopsidedSettings : Settings where
  commands := lopsidedConfig.commands
  target := counterSettings.target

def lopsidedPair : Pair :=
  (lopsidedConfig.benchmarks[0], { name := "rbpf" })

theorem lopsided_refused :
    ∃ cause, (Host.Machine.launch { files := lopsidedFiles }
      (lopsidedSettings.buildRequest lopsidedPair)).1 = .error (.spawn "./build.sh" cause) := by
  have passed : (inspect lopsidedFiles none lopsidedConfig
      (checkTarget lopsidedSettings)).passed = true := by decide +kernel
  obtain ⟨-, starts⟩ :=
    starts_or_refused_of_passed passed lopsidedPair (by decide +kernel) (by decide +kernel)
  rcases starts ["./build.sh"] (by decide +kernel) "./build.sh" rfl (by decide +kernel) with
    here | ⟨-, -, -, refused⟩
  · exact absurd here (by decide +kernel)
  · exact refused _ _ rfl rfl rfl

/-- A check that passes although a program is missing: the second environment has no program to
build it, and the sweep finds that out. -/
theorem lopsided_passed :
    (inspect lopsidedFiles none lopsidedConfig (checkTarget lopsidedSettings)).passed = true ∧
      lopsidedPair ∈ lopsidedSettings.pairs lopsidedConfig ∧
      lopsidedPair.2.disabled = false ∧
      lopsidedConfig.commands.build.head? = some "./build.sh" ∧
      Path.isBare "./build.sh" = false ∧
      lopsidedFiles.isExecutableFrom (lopsidedSettings.target.directory lopsidedPair.2)
        "./build.sh" = false ∧
      (lopsidedSettings.runIn (Host.Station.workbench fun _ => false) lopsidedPair
        { machine := { files := lopsidedFiles }, desk := { decider := .always } }).1.map
          PairRun.status =
        .ok (.failed (.spawn (Fault.spawn "./build.sh" .notFound).message)) := by
  refine ⟨?_, ?_, ?_, ?_, ?_, ?_, ?_⟩
  all_goals decide +kernel

end BoardBench.Preflight
