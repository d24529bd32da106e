import BoardBench.Proofs.Config.Pruning
import BoardBench.Proofs.Config.Writing
import BoardBench.Proofs.Sweep.Commands
import BoardBench.Proofs.Yaml.Lexing

/-!
# Loading configurations

Main result: the configurations that can be loaded are the well-formed ones, and each of them is
loaded again from the document that it is written to.

Proof strategy: that a loaded configuration is well-formed follows from the description of its
parts. A written configuration is read in two steps, as the text of a tree in flow style and as the
tree of a descriptor that expands to the configuration.
-/
namespace BoardBench

open Yaml

/-! ### Written texts -/

namespace Yaml.Spelling

theorem isFlow_ofCount (count : UInt64) : (quoted.ofCount count).isFlow = true := by
  have letters : (toString count.toNat).toList.all Char.isAlphanum = true := by
    rw [List.all_eq_true]
    intro char among
    rw [Char.isAlphanum, isDigit_of_mem_toString among, Bool.or_true]
  change isWord (toString count.toNat) = true
  rw [isWord, isEmpty_toString, letters]
  rfl

theorem isFlow_ofSwitch (on : Bool) : (ofSwitch on).isFlow = true := by
  cases on <;> decide

theorem isFlow_ofTexts (texts : List String) : (quoted.ofTexts texts).isFlow = true :=
  Node.areFlow_of_forall (List.forall_mem_map.mpr fun _ _ => rfl)

theorem isFlow_ofFields {fields : List (String × Node)}
    (each : ∀ field ∈ fields, field.2.isFlow = true) : (quoted.ofFields fields).isFlow = true :=
  Node.entriesAreFlow_of_forall
    (List.forall_mem_map.mpr fun field among => ⟨rfl, each field among⟩)

theorem isFlow_ofEnvironment (environment : Environment) :
    (quoted.ofEnvironment environment).isFlow = true := by
  have assigned : (quoted.ofBindings environment.bindings).isFlow = true :=
    isFlow_ofFields (List.forall_mem_map.mpr fun _ _ => rfl)
  have switch := isFlow_ofSwitch environment.disabled
  have label : ∀ field ∈ (environment.label?.map fun label =>
      ("label", quoted.ofText label)).toList, field.2.isFlow = true := by
    cases environment.label? with
    | none => exact List.forall_mem_nil _
    | some label => exact List.forall_mem_singleton.mpr rfl
  refine isFlow_ofFields ?_
  simp only [List.forall_mem_append]
  exact ⟨⟨List.forall_mem_singleton.mpr rfl, label⟩, by simp [switch, assigned]⟩

theorem isFlow_ofBoard (benchmark : Benchmark) : (quoted.ofBoard benchmark).isFlow = true := by
  have environments : (Node.sequence none none
      (benchmark.environments.map quoted.ofEnvironment)).isFlow = true :=
    Node.areFlow_of_forall (List.forall_mem_map.mpr fun environment _ =>
      isFlow_ofEnvironment environment)
  have name : (quoted.ofText benchmark.board).isFlow = true := rfl
  exact isFlow_ofFields (by simp [name, environments])

theorem isFlow_ofBenchmark (benchmark : Benchmark) :
    (quoted.ofBenchmark benchmark).isFlow = true := by
  have text (content : String) : (quoted.ofText content).isFlow = true := rfl
  have boards : (Node.sequence none none [quoted.ofBoard benchmark]).isFlow = true :=
    Node.areFlow_of_forall (List.forall_mem_singleton.mpr (isFlow_ofBoard benchmark))
  exact isFlow_ofFields (by simp [text, isFlow_ofCount, boards])

theorem isFlow_ofConfig (config : Config) : (quoted.ofConfig config).isFlow = true := by
  have benchmarks : (Node.sequence none none
      (config.benchmarks.map quoted.ofBenchmark)).isFlow = true :=
    Node.areFlow_of_forall (List.forall_mem_map.mpr fun benchmark _ =>
      isFlow_ofBenchmark benchmark)
  have commands : (quoted.ofCommands config.commands).isFlow = true :=
    isFlow_ofFields (by simp [isFlow_ofTexts])
  exact isFlow_ofFields (by simp [benchmarks, commands])

end Yaml.Spelling

/-- The text that a configuration is written to, with all its texts in double quotes. -/
def Config.written (config : Config) : String :=
  (Spelling.quoted.ofConfig config).written

theorem document?_written_config (config : Config) :
    document? config.written = some (some (Spelling.quoted.ofConfig config)) :=
  document?_written (Spelling.isFlow_ofConfig config)

/-! ### Written configurations -/

theorem ofNode_ofConfig (spelling : Spelling) {config : Config} (formed : config.IsWellFormed) :
    Config.ofNode (spelling.ofConfig config) = .ok config := by
  have read : Descriptor.ofNode? (spelling.ofConfig config) = some (.of config) :=
    congrArg (Option.map Prod.fst)
      (Descriptor.settles_readRoot spelling config (Anchors.of (spelling.ofConfig config)) 0)
  rw [Config.ofNode, read]
  exact Descriptor.expand_of formed

theorem ofYaml_spelled {spelling : Spelling} {config : Config} (formed : config.IsWellFormed)
    {text : String} (spelled : document? text = some (some (spelling.ofConfig config))) :
    Config.ofYaml text = .ok config := by
  rw [ofYaml_of_document spelled, ofNode_ofConfig spelling formed]

theorem isWellFormed_of_ofYaml {config : Config} {text : String}
    (loaded : Config.ofYaml text = .ok config) : config.IsWellFormed := by
  obtain ⟨root, -, loaded⟩ := exists_root_of_ofYaml loaded
  exact isWellFormed_of_ofNode loaded

theorem PhaseCommands.AreFilled.not_mem {commands : PhaseCommands} (filled : commands.AreFilled) :
    [] ∉ commands.all := by
  simp only [all, List.mem_cons, List.not_mem_nil, or_false, not_or]
  exact ⟨filled.build.symm, filled.flash.symm, filled.run.symm⟩

/-- A configuration can be loaded exactly if it is well-formed. No sweep with its commands meets an
empty one. It is loaded from every text that spells it out, such as the one that it is written
to. -/
theorem loads_iff_isWellFormed (config : Config) :
    ((∃ text, Config.ofYaml text = .ok config) ↔ config.IsWellFormed) ∧
    (∀ text, Config.ofYaml text = .ok config →
      ∀ settings : Sweep.Settings, settings.commands = config.commands →
        ∀ raisesOn swept station request, .ran request (.error .emptyCommand) ∉
          settings.record (Host.Station.workbench raisesOn) swept station) ∧
    (config.IsWellFormed →
      (∀ (spelling : Spelling) text,
        document? text = some (some (spelling.ofConfig config)) →
          Config.ofYaml text = .ok config) ∧
      document? config.written = some (some (Spelling.quoted.ofConfig config)) ∧
      Config.ofYaml config.written = .ok config) := by
  have back (formed : config.IsWellFormed) : Config.ofYaml config.written = .ok config :=
    ofYaml_spelled formed (document?_written_config config)
  refine ⟨⟨?_, fun formed => ⟨config.written, back formed⟩⟩, ?_, ?_⟩
  · rintro ⟨text, loaded⟩
    exact isWellFormed_of_ofYaml loaded
  · intro text loaded settings same raisesOn swept station request
    have filled := (isWellFormed_of_ofYaml loaded).commands
    exact Host.Station.never_empty (same ▸ filled.not_mem) raisesOn swept station request
  · intro formed
    exact ⟨fun spelling text => ofYaml_spelled formed, document?_written_config config, back formed⟩

/-- Counts at both ends of their range, texts that look like something else, and marks in texts. -/
def numeralConfig : Config where
  benchmarks :=
    [{ name := "sum: of, \"all\"", filename := "7", scaleFactor := 18446744073709551615
       iterations := 0, board := "null"
       environments :=
        [{ name := "", label? := some " 1.0 ", disabled := true
           bindings := [("", "01"), ("DEPTH", "0x1F"), ("depth", "true")] }] }]
  commands := { build := ["make", ""], flash := ["true"], run := ["echo", "1"] }

theorem numeralConfig_loads :
    numeralConfig.IsWellFormed ∧ Config.ofYaml numeralConfig.written = .ok numeralConfig ∧
    .ran { command := [], cwd := "work" } (.error .emptyCommand) ∉
      ({ commands := numeralConfig.commands
         target := { board := "null", workdir := "work" } } : Sweep.Settings).record
        (Host.Station.workbench fun _ => false) numeralConfig
        { machine := { files := {} }, desk := { decider := .always } } := by
  have formed : numeralConfig.IsWellFormed := by decide
  obtain ⟨loadable, filled, back⟩ := loads_iff_isWellFormed numeralConfig
  obtain ⟨spelled, document, loaded⟩ := back formed
  have again := spelled .quoted numeralConfig.written document
  exact ⟨loadable.mp ⟨_, again⟩, loaded, filled _ loaded _ rfl _ _ _ _⟩

end BoardBench
