import BoardBench.Proofs.Config.Unfolding
import BoardBench.Proofs.Config.WellFormed
import BoardBench.Proofs.Yaml.Spelling

/-!
# Writing configurations

A configuration is written with each entry as a benchmark of its own with a single board, with the
commands as lists of arguments and the environments as mappings.

Main result: what is read of a written configuration is a descriptor with exactly its parts, and if
the configuration is well-formed then the descriptor expands to it.
-/
namespace BoardBench

open Yaml

/-! ### The written configuration -/

namespace Yaml.Spelling

variable (spelling : Spelling)

def ofEnvironment (environment : Environment) : Node :=
  spelling.ofFields <|
    [("name", spelling.ofText environment.name)] ++
      (environment.label?.map fun label => ("label", spelling.ofText label)).toList ++
      [("disabled", Spelling.ofSwitch environment.disabled),
        ("env", spelling.ofBindings environment.bindings)]

/-- The board of an entry. -/
def ofBoard (benchmark : Benchmark) : Node :=
  spelling.ofFields
    [("board_name", spelling.ofText benchmark.board),
      ("supported_environments",
        .sequence none none (benchmark.environments.map spelling.ofEnvironment))]

def ofBenchmark (benchmark : Benchmark) : Node :=
  spelling.ofFields
    [("name", spelling.ofText benchmark.name),
      ("filename", spelling.ofText benchmark.filename),
      ("scale_factor", spelling.ofCount benchmark.scaleFactor),
      ("iterations", spelling.ofCount benchmark.iterations),
      ("boards", .sequence none none [spelling.ofBoard benchmark])]

def ofCommands (commands : PhaseCommands) : Node :=
  spelling.ofFields
    [("build", spelling.ofTexts commands.build), ("flash", spelling.ofTexts commands.flash),
      ("run", spelling.ofTexts commands.run)]

def ofConfig (config : Config) : Node :=
  spelling.ofFields
    [("benchmarks", .sequence none none (config.benchmarks.map spelling.ofBenchmark)),
      ("commands", spelling.ofCommands config.commands)]

end Yaml.Spelling

/-! ### The descriptor -/

namespace Descriptor

def Environment.of (environment : BoardBench.Environment) : Environment :=
  .entry environment.name environment.label? environment.disabled
    (environment.bindings.map fun (key, text) => (key, .text text))

def Benchmark.of (benchmark : BoardBench.Benchmark) : Benchmark where
  name? := some benchmark.name
  filename? := some benchmark.filename
  scaleFactor? := some (.number benchmark.scaleFactor)
  iterations? := some (.number benchmark.iterations)
  boards :=
    [some { name? := some benchmark.board
            environments := benchmark.environments.map Environment.of }]

def Commands.of (commands : PhaseCommands) : Commands where
  build? := some (.arguments commands.build)
  flash? := some (.arguments commands.flash)
  run? := some (.arguments commands.run)

end Descriptor

/-- The descriptor that a written configuration spells out. -/
def Descriptor.of (config : Config) : Descriptor where
  benchmarks? := some (config.benchmarks.map Benchmark.of)
  commands := .of config.commands

/-! ### Expanding the descriptor -/

namespace Descriptor

theorem sortedBindings_text {bindings : List (String × String)}
    (ascending : bindings.Pairwise fun one other => one.1 < other.1) :
    sortedBindings (bindings.map fun (name, text) => (name, .text text)) = bindings := by
  have sorted : IsSorted textBefore bindings :=
    List.pairwise_map.mpr (ascending.imp fun before => decide_eq_true before)
  rw [sortedBindings, List.map_map]
  -- A text is rendered as it is, so nothing but the sorting is left.
  exact (congrArg (sortedEntries textBefore) (List.map_id bindings)).trans
    (sortedEntries_eq_self isOrder_textBefore sorted)

theorem Environment.expand_of {environment : BoardBench.Environment}
    (formed : environment.IsWellFormed) : (Environment.of environment).expand = environment := by
  rw [Environment.of, Environment.expand, trim_eq_self formed.name,
    sortedBindings_text formed.bindings]

theorem Benchmark.expand_of {benchmark : BoardBench.Benchmark} (formed : benchmark.IsWellFormed) :
    (Benchmark.of benchmark).expand = .ok [benchmark] := by
  have environments :
      (benchmark.environments.map Environment.of).map Environment.expand =
        benchmark.environments := by
    rw [List.map_map]
    exact (List.map_congr_left fun environment among =>
      Environment.expand_of (formed.environments environment among)).trans (List.map_id' _)
  have board (entry : String → List BoardBench.Environment → BoardBench.Benchmark) :
      Board.expand? entry { name? := some benchmark.board
                            environments := benchmark.environments.map Environment.of } =
        some (entry benchmark.board benchmark.environments) := by
    rw [Board.expand?, nonBlank?_eq_self formed.board, Option.map_some, environments]
  simp only [Benchmark.of, Benchmark.expand, nonBlank?_eq_self formed.name,
    nonBlank?_eq_self formed.filename, Count.resolve, List.filterMap_cons, List.filterMap_nil,
    id_eq, board]
  rfl

theorem expandAll_of {benchmarks : List BoardBench.Benchmark}
    (formed : ∀ benchmark ∈ benchmarks, benchmark.IsWellFormed) :
    expandAll (benchmarks.map Benchmark.of) = .ok benchmarks := by
  induction benchmarks with
  | nil => rfl
  | cons benchmark rest ih =>
    have both := List.forall_mem_cons.mp formed
    rw [List.map_cons, expandAll, Benchmark.expand_of both.1, ih both.2]
    rfl

theorem expand_of {config : Config} (formed : config.IsWellFormed) :
    (Descriptor.of config).expand = .ok config :=
  expand_eq_ok_iff.mpr ⟨_, rfl, expandAll_of formed.benchmarks, rfl,
    (areFilled_iff _).mp formed.commands⟩

end Descriptor

/-! ### Values of written nodes -/

namespace Yaml

open Read

/-- With any anchors a node means a value at some depth of nesting. -/
def Node.HasValue (depth : Nat) (node : Node) (value : Value) : Prop :=
  Settles (fun anchors => anchors.value depth node) value

namespace Node

/-- A scalar that means the value. -/
inductive IsScalar : Node → Value → Prop
  | intro {anchor : Option Nat} {tag : Option Bytes} {style : Style} {text : String}
      {value : Value} : scalarValue? tag style text = some value →
    IsScalar (.scalar anchor tag style text) value

/-- A scalar that is not null, where any scalar is a text. -/
inductive Shows : Node → String → Prop
  | styled {anchor : Option Nat} {tag : Option Bytes} {style : Style} {text : String} :
    style ≠ .plain → Shows (.scalar anchor tag style text) text
  | plain {anchor : Option Nat} {text : String} :
    (text.isEmpty || isNullText text) = false → Shows (.scalar anchor none .plain text) text
  | tagged {anchor : Option Nat} {tag : Bytes} {text : String} :
    tag ≠ standardTag "null" → Shows (.scalar anchor (some tag) .plain text) text

theorem scalarValue?_null (style : Style) (text : String) :
    scalarValue? (some (standardTag "null")) style text =
      if isNullText text then some .null else none := by
  unfold scalarValue?
  simp only
  rw [if_neg (by decide +kernel), if_neg (by decide +kernel), if_neg (by decide +kernel),
    if_neg (by decide +kernel), if_pos trivial]

theorem exists_shows {node : Node} {value : Value} (isScalar : node.IsScalar value)
    (visible : value ≠ .null) : ∃ text, node.Shows text := by
  cases isScalar with
  | @intro anchor tag style text _ means =>
    refine ⟨text, ?_⟩
    by_cases plain : style = .plain
    · subst plain
      cases tag with
      | none =>
        refine .plain (Bool.eq_false_iff.mpr fun null => visible ?_)
        rw [scalarValue?, if_pos rfl, plainValue?, if_pos null] at means
        exact (Option.some.inj means).symm
      | some tag =>
        refine .tagged ?_
        rintro rfl
        rw [scalarValue?_null] at means
        split at means
        next => exact visible (Option.some.inj means).symm
        next => cases means
    · exact .styled plain

variable {anchor : Option Nat} {tag : Option Bytes}

theorem hasValue_scalar {node : Node} {value : Value} (isScalar : node.IsScalar value)
    (depth : Nat) : node.HasValue depth value := by
  cases isScalar with
  | intro means =>
    intro anchors followed
    unfold Anchors.value
    exact settles_lift means anchors followed

theorem hasValue_sequence {depth : Nat} {items : List Node} {values : List Value}
    (standard : tag.any isLocalTag = false) (each : List.Forall₂ (HasValue depth) items values) :
    (sequence anchor tag items).HasValue (depth + 1) (.list values) := by
  have listed : Settles (fun anchors => do
      return Value.list (← items.mapM (anchors.value depth))) (.list values) :=
    (settles_mapM each).bind (settles_pure _)
  intro anchors followed
  unfold Anchors.value
  change (if tag.any isLocalTag then _ else _ : Read Value) followed = _
  rw [if_neg (Bool.eq_false_iff.mp standard)]
  exact listed anchors followed

theorem hasValue_mapping {depth : Nat} {entries : List (Node × Node)}
    {values : List (Value × Value)} (standard : tag.any isLocalTag = false)
    (each : List.Forall₂ (fun entry value =>
      entry.1.HasValue depth value.1 ∧ entry.2.HasValue depth value.2) entries values) :
    (mapping anchor tag entries).HasValue (depth + 1) (.map values) := by
  have pairs : List.Forall₂ (fun entry value => Settles (fun anchors => do
      return (← anchors.value depth entry.1, ← anchors.value depth entry.2)) value)
      entries values :=
    each.imp fun _ _ both => both.1.bind (both.2.bind (settles_pure _))
  have listed : Settles (fun anchors => do
      return Value.map (← entries.mapM fun entry => do
        return (← anchors.value depth entry.1, ← anchors.value depth entry.2))) (.map values) :=
    (settles_mapM pairs).bind (settles_pure _)
  intro anchors followed
  unfold Anchors.value
  change (if tag.any isLocalTag then _ else _ : Read Value) followed = _
  rw [if_neg (Bool.eq_false_iff.mp standard)]
  exact listed anchors followed

end Node

namespace Spelling

variable (spelling : Spelling) (depth : Nat)

theorem isScalar_ofText (text : String) : (spelling.ofText text).IsScalar (.text text) :=
  .intro (spelling.isText text)

theorem isScalar_ofCount (count : UInt64) : (spelling.ofCount count).IsScalar (.natural count) :=
  .intro (spelling.isCount count)

theorem hasValue_ofText (text : String) : (spelling.ofText text).HasValue depth (.text text) :=
  Node.hasValue_scalar (spelling.isScalar_ofText text) depth

theorem hasValue_ofCount (count : UInt64) :
    (spelling.ofCount count).HasValue depth (.natural count) :=
  Node.hasValue_scalar (spelling.isScalar_ofCount count) depth

theorem hasValue_ofSwitch (on : Bool) : (ofSwitch on).HasValue depth (.bool on) := by
  cases on <;> exact Node.hasValue_scalar (.intro rfl) depth

theorem hasValue_ofTexts (texts : List String) :
    (spelling.ofTexts texts).HasValue (depth + 1) (.list (texts.map .text)) := by
  refine Node.hasValue_sequence rfl
    (List.forall₂_map_left_iff.mpr (List.forall₂_map_right_iff.mpr ?_))
  exact List.forall₂_same.mpr fun text _ => spelling.hasValue_ofText depth text

theorem hasValue_ofFields {fields : List (String × Node)} {values : List (String × Value)}
    (each : List.Forall₂ (fun field value => field.1 = value.1 ∧ field.2.HasValue depth value.2)
      fields values) :
    (spelling.ofFields fields).HasValue (depth + 1)
      (.ofFields values) := by
  refine Node.hasValue_mapping rfl
    (List.forall₂_map_left_iff.mpr (List.forall₂_map_right_iff.mpr ?_))
  refine each.imp ?_
  rintro ⟨key, field⟩ ⟨_, value⟩ ⟨rfl, hasValue⟩
  exact ⟨spelling.hasValue_ofText depth key, hasValue⟩

theorem hasValue_ofBindings (bindings : List (String × String)) :
    (spelling.ofBindings bindings).HasValue (depth + 1) (.ofBindings bindings) :=
  spelling.hasValue_ofFields depth (List.forall₂_map_left_iff.mpr (List.forall₂_map_right_iff.mpr
    (List.forall₂_same.mpr fun entry _ => ⟨rfl, spelling.hasValue_ofText depth entry.2⟩)))

end Spelling

end Yaml

/-! ### Reading a written configuration -/

namespace Descriptor

open Read

theorem commandOf?_texts (texts : List String) :
    commandOf? (.list (texts.map .text)) = some (.arguments texts) := by
  refine congrArg (Command.arguments <$> ·) (?_ : List.mapM _ (texts.map Value.text) = some texts)
  exact mapM_of_forall₂ (List.forall₂_map_left_iff.mpr (List.forall₂_same.mpr fun _ _ => rfl))

theorem bindingsOf?_ofBindings (bindings : List (String × String)) :
    bindingsOf? (.ofBindings bindings) = some (bindings.map fun (key, text) => (key, .text text)) :=
  mapM_of_forall₂ (List.forall₂_map_left_iff.mpr (List.forall₂_map_left_iff.mpr
    (List.forall₂_map_right_iff.mpr (List.forall₂_same.mpr fun _ _ => rfl))))

/-- The values of the parts of a written environment. -/
def partsOf (environment : BoardBench.Environment) : List (String × Value) :=
  [("name", .text environment.name)] ++
    (environment.label?.map fun label => ("label", Value.text label)).toList ++
    [("disabled", .bool environment.disabled), ("env", .ofBindings environment.bindings)]

theorem environmentOf?_partsOf (environment : BoardBench.Environment) :
    environmentOf? (.ofFields (partsOf environment)) = some (.of environment) := by
  obtain ⟨name, label?, disabled, bindings⟩ := environment
  have assigned := bindingsOf?_ofBindings bindings
  cases label? <;>
    simp [partsOf, Value.ofFields, environmentOf?, environmentKey?, uniqueValue?, environmentText?,
      environmentLabel?, environmentSwitch?, assigned, Environment.of]

section Readers

variable {α : Type} {field : Anchors → Field α} {result : α}

theorem settles_readFormed {depth : Nat} {form : Value → Option α} {node : Node} {value : Value}
    (hasValue : node.HasValue depth value) (formed : form value = some result) :
    Settles (fun anchors => readFormed anchors depth form node) result :=
  hasValue.bind (settles_lift formed)

theorem settles_present {node : Node}
    (settles : Settles (fun anchors => field anchors node) result) :
    Settles (fun anchors => do return some (← field anchors node)) (some result) :=
  settles.bind (settles_pure _)

theorem readOptional_of_shows {node : Node} {text : String} (shows : node.Shows text)
    (anchors : Anchors)
    (field : Field α) : readOptional anchors field node = do return some (← field node) := by
  cases shows with
  | @styled anchor tag style text styled =>
    cases style with
    | plain => exact absurd rfl styled
    | _ => rfl
  | @plain anchor text visible =>
    change (if text.isEmpty || isNullText text then _ else _ : Read (Option α)) = _
    rw [if_neg (by simp [visible])]
  | @tagged anchor tag text other =>
    change (if tag = standardTag "null" then _ else _ : Read (Option α)) = _
    rw [if_neg other]

theorem settles_readOptional_scalar {node : Node} {value : Value} (isScalar : node.IsScalar value)
    (visible : value ≠ .null) (settles : Settles (fun anchors => field anchors node) result) :
    Settles (fun anchors => readOptional anchors (field anchors) node) (some result) := by
  obtain ⟨text, shows⟩ := Node.exists_shows isScalar visible
  simp only [readOptional_of_shows shows]
  exact settles_present settles

theorem settles_readOptional_sequence {items : List Node}
    (settles : Settles (fun anchors => field anchors (.sequence none none items)) result) :
    Settles (fun anchors => readOptional anchors (field anchors) (.sequence none none items))
      (some result) :=
  settles_present settles

theorem settles_readOptional_fields {spelling : Spelling} {fields : List (String × Node)}
    (settles : Settles (fun anchors => field anchors (spelling.ofFields fields)) result) :
    Settles (fun anchors => readOptional anchors (field anchors) (spelling.ofFields fields))
      (some result) :=
  settles_present settles

theorem settles_readList {items : List Node} {results : List α}
    (each : List.Forall₂ (fun item result => Settles (fun anchors => field anchors item) result)
      items results) :
    Settles (fun anchors => readList anchors (field anchors) (.sequence none none items))
      results :=
  settles_mapM each

theorem settles_readSection (spelling : Spelling) (fields : List (String × Node)) :
    Settles (fun anchors => readSection anchors (spelling.ofFields fields)) fields := by
  exact settles_mapM
    (List.forall₂_map_left_iff.mpr (List.forall₂_same.mpr fun field _ => settles_pure field))

theorem settles_readField {name : String} {fields : List (String × Node)} {child : Node}
    (single : unique name fields = pure (some child))
    (here : Settles (fun anchors => readOptional anchors (field anchors) child) (some result)) :
    Settles (fun anchors => readField anchors name (field anchors) fields) (some result) := by
  intro anchors followed
  unfold readField
  rw [single]
  exact here anchors followed

end Readers

section Fields

variable (spelling : Spelling) {name : String} {fields : List (String × Node)}

theorem settles_textField (text : String)
    (single : unique name fields = pure (some (spelling.ofText text))) :
    Settles (fun anchors => readField anchors name (readText anchors) fields) (some text) := by
  have visible : Value.text text ≠ .null := by simp
  exact settles_readField single
    (settles_readOptional_scalar (spelling.isScalar_ofText text) visible (settles_pure text))

theorem settles_countField {depth : Nat} (count : UInt64)
    (single : unique name fields = pure (some (spelling.ofCount count))) :
    Settles (fun anchors => readField anchors name (readFormed anchors depth countOf?) fields)
      (some (.number count)) := by
  have visible : Value.natural count ≠ .null := by simp
  exact settles_readField single (settles_readOptional_scalar (spelling.isScalar_ofCount count)
    visible (settles_readFormed (spelling.hasValue_ofCount depth count) rfl))

theorem settles_commandField {depth : Nat} (command : List String)
    (single : unique name fields = pure (some (spelling.ofTexts command))) :
    Settles (fun anchors =>
      readField anchors name (readFormed anchors (depth + 1) commandOf?) fields)
      (some (.arguments command)) :=
  settles_readField single (settles_readOptional_sequence
    (settles_readFormed (spelling.hasValue_ofTexts depth command) (commandOf?_texts command)))

/-- The items of a list are written one by one. -/
theorem settles_listField {α β : Type} {field : Anchors → Field α} {written : β → Node}
    {result : β → α} {items : List β}
    (single : unique name fields = pure (some (.sequence none none (items.map written))))
    (each : ∀ item ∈ items, Settles (fun anchors => field anchors (written item)) (result item)) :
    Settles (fun anchors => readField anchors name (readList anchors (field anchors)) fields)
      (some (items.map result)) := by
  have listed := settles_readList (List.forall₂_map_left_iff.mpr
    (List.forall₂_map_right_iff.mpr (List.forall₂_same.mpr each)))
  exact settles_readField single (settles_readOptional_sequence listed)

end Fields

/-! ### Sections -/

section Sections

variable (spelling : Spelling)

theorem settles_readCommands (commands : PhaseCommands) :
    Settles (fun anchors => readCommands anchors (spelling.ofCommands commands))
      (.of commands) := by
  refine (settles_readSection spelling _).bind ?_
  dsimp only
  refine (settles_commandField spelling commands.build (by simp [unique])).bind ?_
  refine (settles_commandField spelling commands.flash (by simp [unique])).bind ?_
  refine (settles_commandField spelling commands.run (by simp [unique])).bind ?_
  exact settles_pure _

theorem hasValue_ofEnvironment (depth : Nat) (environment : BoardBench.Environment) :
    (spelling.ofEnvironment environment).HasValue (depth + 2)
      (.ofFields (partsOf environment)) := by
  have assigned := spelling.hasValue_ofBindings depth environment.bindings
  apply spelling.hasValue_ofFields
  -- All fields but the label are there in any case.
  refine List.rel_append (.cons ⟨rfl, spelling.hasValue_ofText _ _⟩ ?_)
    (.cons ⟨rfl, Spelling.hasValue_ofSwitch _ _⟩ (.cons ⟨rfl, assigned⟩ .nil))
  cases environment.label? with
  | none => exact .nil
  | some label => exact .cons ⟨rfl, spelling.hasValue_ofText _ label⟩ .nil

theorem settles_readBoard (benchmark : BoardBench.Benchmark) :
    Settles (fun anchors => readBoard anchors (spelling.ofBoard benchmark))
      { name? := some benchmark.board
        environments := benchmark.environments.map Environment.of } := by
  refine (settles_readSection spelling _).bind ?_
  refine (settles_textField spelling benchmark.board (by simp [unique])).bind ?_
  refine (settles_listField (by simp [unique]; rfl) fun environment _ => settles_readFormed
    (hasValue_ofEnvironment spelling _ environment) (environmentOf?_partsOf environment)).bind ?_
  exact settles_pure _

theorem settles_readBenchmark (benchmark : BoardBench.Benchmark) :
    Settles (fun anchors => readBenchmark anchors (spelling.ofBenchmark benchmark))
      (.of benchmark) := by
  refine (settles_readSection spelling _).bind ?_
  dsimp only
  refine (settles_textField spelling benchmark.name (by simp [unique])).bind ?_
  refine (settles_textField spelling benchmark.filename (by simp [unique])).bind ?_
  refine (settles_countField spelling benchmark.scaleFactor (by simp [unique])).bind ?_
  refine (settles_countField spelling benchmark.iterations (by simp [unique])).bind ?_
  have board : ∀ entry ∈ [benchmark], Settles (fun anchors =>
      readOptional anchors (readBoard anchors) (spelling.ofBoard entry)) _ :=
    fun entry _ => settles_readOptional_fields (settles_readBoard spelling entry)
  refine (settles_listField (by simp [unique]) board).bind ?_
  exact settles_pure _

/-- What is read of a written configuration is its descriptor. -/
theorem settles_readRoot (config : Config) :
    Settles (fun anchors => readRoot anchors (spelling.ofConfig config)) (.of config) := by
  refine (settles_readSection spelling _).bind ?_
  dsimp only
  refine (settles_listField (by simp [unique]; rfl) fun benchmark _ =>
    settles_readBenchmark spelling benchmark).bind ?_
  intro anchors followed
  have single : unique "commands" [("benchmarks", Node.sequence none none
      (config.benchmarks.map spelling.ofBenchmark)), ("commands", spelling.ofCommands
        config.commands)] = pure (some (spelling.ofCommands config.commands)) := by
    simp [unique]
  rw [single]
  have commands : Settles (fun anchors => do
      return ({ benchmarks? := some (config.benchmarks.map Benchmark.of)
                commands := ← readCommands anchors (spelling.ofCommands config.commands) } :
        Descriptor)) (.of config) :=
    (settles_readCommands spelling config.commands).bind (settles_pure _)
  exact commands anchors followed

end Sections

end Descriptor

end BoardBench
