import BoardBench.Proofs.Config.Expansion
import BoardBench.Proofs.Text.Blank

/-!
# Well-formed configurations

Main result: a configuration that was read from a document is well-formed. Its names are trimmed and
those of benchmarks, files and boards are not empty, the variables of each environment stand in
ascending order, and every phase has a command.
-/
namespace BoardBench

/-! ### Names -/

/-- The text is not empty, and no blank stands at either end. -/
def IsName (text : String) : Prop :=
  text ≠ "" ∧ IsTrimmed text.toList

instance (text : String) : Decidable (IsName text) :=
  inferInstanceAs (Decidable (_ ∧ _))

theorem isTrimmed_trim (text : String) : IsTrimmed (trim text).toList := by
  rw [trim, String.toList_ofList]
  exact isTrimmed_trimChars text.toList

theorem trim_eq_self {text : String} (trimmed : IsTrimmed text.toList) : trim text = text := by
  rw [trim, trimmed, String.ofList_toList]

theorem Descriptor.isName_of_nonBlank? {text? : Option String} {name : String}
    (found : nonBlank? text? = some name) : IsName name := by
  obtain ⟨trimmed, filled⟩ := Option.filter_eq_some_iff.mp found
  obtain ⟨text, -, rfl⟩ := Option.map_eq_some_iff.mp trimmed
  exact ⟨by simpa using filled, isTrimmed_trim text⟩

theorem Descriptor.nonBlank?_eq_self {name : String} (isName : IsName name) :
    nonBlank? (some name) = some name := by
  rw [nonBlank?, Option.map_some, trim_eq_self isName.2, Option.filter_some,
    if_pos (by simpa using isName.1)]

/-! ### Configurations -/

structure Environment.IsWellFormed (environment : Environment) : Prop where
  name : IsTrimmed environment.name.toList
  bindings : environment.bindings.Pairwise fun one other => one.1 < other.1

structure Benchmark.IsWellFormed (benchmark : Benchmark) : Prop where
  name : IsName benchmark.name
  filename : IsName benchmark.filename
  board : IsName benchmark.board
  environments : ∀ environment ∈ benchmark.environments, environment.IsWellFormed

structure PhaseCommands.AreFilled (commands : PhaseCommands) : Prop where
  build : commands.build ≠ []
  flash : commands.flash ≠ []
  run : commands.run ≠ []

structure Config.IsWellFormed (config : Config) : Prop where
  commands : config.commands.AreFilled
  benchmarks : ∀ benchmark ∈ config.benchmarks, benchmark.IsWellFormed

instance (environment : Environment) : Decidable environment.IsWellFormed :=
  decidable_of_iff
    (IsTrimmed environment.name.toList ∧
      environment.bindings.Pairwise fun one other => one.1 < other.1)
    ⟨fun both => ⟨both.1, both.2⟩, fun formed => ⟨formed.name, formed.bindings⟩⟩

instance (benchmark : Benchmark) : Decidable benchmark.IsWellFormed :=
  decidable_of_iff
    ((IsName benchmark.name ∧ IsName benchmark.filename ∧ IsName benchmark.board) ∧
      ∀ environment ∈ benchmark.environments, environment.IsWellFormed)
    ⟨fun all => ⟨all.1.1, all.1.2.1, all.1.2.2, all.2⟩,
      fun formed => ⟨⟨formed.name, formed.filename, formed.board⟩, formed.environments⟩⟩

instance (commands : PhaseCommands) : Decidable commands.AreFilled :=
  decidable_of_iff (commands.build ≠ [] ∧ commands.flash ≠ [] ∧ commands.run ≠ [])
    ⟨fun all => ⟨all.1, all.2.1, all.2.2⟩, fun filled => ⟨filled.build, filled.flash, filled.run⟩⟩

instance (config : Config) : Decidable config.IsWellFormed :=
  decidable_of_iff
    (config.commands.AreFilled ∧ ∀ benchmark ∈ config.benchmarks, benchmark.IsWellFormed)
    ⟨fun both => ⟨both.1, both.2⟩, fun formed => ⟨formed.commands, formed.benchmarks⟩⟩

namespace Descriptor

theorem areFilled_iff (commands : PhaseCommands) :
    commands.AreFilled ↔ hasEmpty commands = false := by
  simp only [hasEmpty, Bool.or_eq_false_iff, List.isEmpty_eq_false_iff]
  exact ⟨fun filled => ⟨⟨filled.build, filled.flash⟩, filled.run⟩,
    fun all => ⟨all.1.1, all.1.2, all.2⟩⟩

/-- What follows from a relation to some item holds of all that the items are related to. -/
theorem forall_right_of_forall₂ {α β : Type} {related : α → β → Prop} {holds : β → Prop}
    (imply : ∀ item other, related item other → holds other) {items : List α} {others : List β}
    (pairs : List.Forall₂ related items others) : ∀ other ∈ others, holds other := by
  induction pairs with
  | nil => exact List.forall_mem_nil holds
  | cons here _ ih => exact List.forall_mem_cons.mpr ⟨imply _ _ here, ih⟩

theorem IsEnvironment.isWellFormed {value : Yaml.Value} {environment : BoardBench.Environment}
    (isEnvironment : IsEnvironment value environment) : environment.IsWellFormed := by
  cases isEnvironment with
  | name text => exact ⟨isTrimmed_trim text, .nil⟩
  | @entry _ name _ _ _ _ _ _ _ _ bindings => exact ⟨isTrimmed_trim name, bindings.ascending⟩

theorem IsEntryOf.isWellFormed {anchors : Yaml.Anchors} {nodes : Yaml.Node × Yaml.Node}
    {entry : BoardBench.Benchmark} (isEntry : IsEntryOf anchors nodes entry) :
    entry.IsWellFormed := by
  have isName : IsName entry.name := isName_of_nonBlank? isEntry.name
  refine ⟨isName, ?_, isName_of_nonBlank? isEntry.board, ?_⟩
  · rw [isEntry.filename]
    cases filed : anchors.nameAt? "filename" nodes.1 with
    | none => exact isName
    | some filename => exact isName_of_nonBlank? filed
  · refine forall_right_of_forall₂ ?_ isEntry.environments
    rintro node environment ⟨value, -, isEnvironment⟩
    exact isEnvironment.isWellFormed

end Descriptor

theorem isWellFormed_of_ofNode {root : Yaml.Node} {config : Config}
    (loaded : Config.ofNode root = .ok config) : config.IsWellFormed := by
  have formed : ∀ benchmark ∈ config.benchmarks, benchmark.IsWellFormed :=
    Descriptor.forall_right_of_forall₂ (fun _ _ isEntry => isEntry.isWellFormed)
      (forall₂_namedBoards loaded)
  refine ⟨?_, formed⟩
  rw [Config.ofNode] at loaded
  split at loaded
  next => cases loaded
  next descriptor _ =>
    obtain ⟨_, _, _, _, filled⟩ := Descriptor.expand_eq_ok_iff.mp loaded
    exact (Descriptor.areFilled_iff _).mpr filled

end BoardBench
