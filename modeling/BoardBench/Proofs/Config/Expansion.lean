import BoardBench.Proofs.Config.Reading
import BoardBench.Proofs.Text.Sorted

/-!
# What a document lists

Main result: the entries of a configuration are those of the named boards of the document, in the
order in which they are written, and each entry has the parts that are written for its board and for
the benchmark of the board.

Proof strategy: each reader is inverted, so a descriptor has the parts that stand in the document,
null boards and unnamed ones among them. Expanding it leaves those out.
-/
namespace BoardBench

open Yaml

/-! ### What is written -/

/-- The text at a key without the blanks around it, unless nothing is left of it. -/
def Yaml.Anchors.nameAt? (anchors : Anchors) (name : String) (node : Node) : Option String :=
  ((anchors.textAt? name node).map trim).filter fun text => !text.isEmpty

/-- What stands at the key of a phase in the section of the commands. -/
def Yaml.Anchors.phaseAt? (anchors : Anchors) (phase : String) (root : Node) : Option Node :=
  (anchors.part? "commands" root).bind (anchors.part? phase)

namespace Descriptor

open Read

/-- The boards with a name of a benchmark, each next to it. -/
def namedBoardsOf (anchors : Anchors) (benchmark : Node) : List (Node × Node) :=
  ((anchors.itemsAt "boards" benchmark).filter fun board =>
    !anchors.isNull board && (anchors.nameAt? "board_name" board).isSome).map fun board =>
      (benchmark, board)

/-- The boards with a name of all benchmarks with a name. -/
def namedBoards (anchors : Anchors) (root : Node) : List (Node × Node) :=
  ((anchors.itemsAt "benchmarks" root).filter fun benchmark =>
    (anchors.nameAt? "name" benchmark).isSome).flatMap (namedBoardsOf anchors)

/-- A value that is a count, or a text that spells one between blanks. -/
inductive IsCount : Value → UInt64 → Prop
  | natural (count : UInt64) : IsCount (.natural count) count
  | signed {number : Int} : 0 ≤ number → IsCount (.signed number) (.ofNat number.toNat)
  | text {written : String} {count : UInt64} :
    countOfText? (trimChars written.toList) = some count → IsCount (.text written) count

/-- The count at a key, which is 1 when there is none. -/
def IsCountAt (anchors : Anchors) (name : String) (node : Node) (count : UInt64) : Prop :=
  match anchors.part? name node with
  | none => count = 1
  | some child => ∃ value, anchors.Means child value ∧ IsCount value count

/-- The value at the key of a part. -/
def partOf? (name : String) (entries : List (Value × Value)) : Option Value :=
  (entries.find? fun entry => environmentKey? entry.1 == some name).map Prod.snd

inductive IsLabel : Option Value → Option String → Prop
  | absent : IsLabel none none
  | null : IsLabel (some .null) none
  | text (label : String) : IsLabel (some (.text label)) (some label)

/-- The variables as they are written, each with its value as a text. -/
inductive AreVariables : Option Value → List (String × String) → Prop
  | absent : AreVariables none []
  | map {entries : List (Value × Value)} {written : List (String × String)} :
    List.Forall₂ (fun entry pair => entry.1 = .text pair.1 ∧
      (variableOf? entry.2).map Variable.render = some pair.2) entries written →
    AreVariables (some (.map entries)) written

/-- The keys ascend, and of two variables of one name the last one stays. -/
structure AreBindings (written bindings : List (String × String)) : Prop where
  ascending : bindings.Pairwise fun one other => one.1 < other.1
  last : ∀ name text, (name, text) ∈ bindings ↔ written.reverse.lookup name = some text

/-- An environment by its name only, or with its particulars. -/
inductive IsEnvironment : Value → BoardBench.Environment → Prop
  | name (text : String) : IsEnvironment (.text text) { name := trim text }
  | entry {entries : List (Value × Value)} {name : String} {label? : Option String}
      {disabled : Bool} {written bindings : List (String × String)} :
    partOf? "name" entries = some (.text name) →
    IsLabel (partOf? "label" entries) label? →
    (partOf? "disabled" entries).getD (.bool false) = .bool disabled →
    AreVariables (partOf? "env" entries) written → AreBindings written bindings →
    IsEnvironment (.map entries) { name := trim name, label?, disabled, bindings }

/-- The entry says what is written for a board and for its benchmark. -/
structure IsEntryOf (anchors : Anchors) (nodes : Node × Node) (entry : BoardBench.Benchmark) :
    Prop where
  name : anchors.nameAt? "name" nodes.1 = some entry.name
  filename : entry.filename = (anchors.nameAt? "filename" nodes.1).getD entry.name
  scaleFactor : IsCountAt anchors "scale_factor" nodes.1 entry.scaleFactor
  iterations : IsCountAt anchors "iterations" nodes.1 entry.iterations
  board : anchors.nameAt? "board_name" nodes.2 = some entry.board
  environments : List.Forall₂
    (fun node environment => ∃ value, anchors.Means node value ∧ IsEnvironment value environment)
    (anchors.itemsAt "supported_environments" nodes.2) entry.environments

/-! ### Environments -/

theorem forall₂_of_mapM {α β : Type} {read : α → Option β} {items : List α} {results : List β}
    (found : items.mapM read = some results) :
    List.Forall₂ (fun item result => read item = some result) items results := by
  induction items generalizing results with
  | nil =>
    cases found
    exact .nil
  | cons item rest ih =>
    rw [List.mapM_cons] at found
    obtain ⟨first, here, more⟩ := Option.bind_eq_some_iff.mp found
    obtain ⟨others, there, ended⟩ := Option.bind_eq_some_iff.mp more
    cases ended
    exact .cons here (ih there)

theorem mapM_of_forall₂ {α β : Type} {read : α → Option β} {items : List α} {results : List β}
    (each : List.Forall₂ (fun item result => read item = some result) items results) :
    items.mapM read = some results := by
  induction each with
  | nil => rfl
  | cons here _ ih =>
    rw [List.mapM_cons, here, ih]
    rfl

theorem find?_of_uniqueValue? {name : String} {entries : List (String × Value)}
    {found? : Option Value} (unique : uniqueValue? name entries = some found?) :
    found? = (entries.find? fun entry => entry.1 == name).map Prod.snd := by
  unfold uniqueValue? at unique
  rw [← List.head?_filter]
  split at unique
  next none =>
    cases unique
    rw [none]
    rfl
  next entry one =>
    cases unique
    rw [one]
    rfl
  next => cases unique

theorem areVariables_of_bindingsOf? {value : Value} {bindings : List (String × Variable)}
    (found : bindingsOf? value = some bindings) :
    AreVariables (some value) (bindings.map fun (name, value) => (name, value.render)) := by
  cases value with
  | map entries =>
    refine .map (List.forall₂_map_right_iff.mpr ((forall₂_of_mapM found).imp ?_))
    rintro ⟨key, item⟩ ⟨name, value⟩ both
    obtain ⟨text, named, more⟩ := Option.bind_eq_some_iff.mp both
    obtain ⟨result, rendered, ended⟩ := Option.bind_eq_some_iff.mp more
    cases ended
    cases key with
    | text key =>
      cases named
      exact ⟨rfl, by rw [rendered]; rfl⟩
    | _ => cases named
  | _ => cases found

theorem areBindings_sortedBindings (bindings : List (String × Variable)) :
    AreBindings (bindings.map fun (name, value) => (name, value.render))
      (sortedBindings bindings) where
  ascending := by
    have sorted := isSorted_sortedEntries isOrder_textBefore
      (bindings.map fun (name, value) => (name, value.render))
    rw [IsSorted, List.pairwise_map] at sorted
    exact sorted.imp fun before => of_decide_eq_true before
  last name text := mem_sortedEntries_iff isOrder_textBefore _ name text

theorem isLabel_of_environmentLabel? {value? : Option Value} {label? : Option String}
    (found : environmentLabel? value? = some label?) : IsLabel value? label? := by
  unfold environmentLabel? at found
  split at found
  next =>
    cases found
    exact .absent
  next =>
    cases found
    exact .null
  next label =>
    cases found
    exact .text label
  next => cases found

theorem getD_of_environmentSwitch? {value? : Option Value} {switch : Bool}
    (found : environmentSwitch? value? = some switch) :
    value?.getD (.bool false) = .bool switch := by
  unfold environmentSwitch? at found
  split at found
  next =>
    cases found
    rfl
  next =>
    cases found
    rfl
  next => cases found

theorem isEnvironment_expand {value : Value} {environment : Environment}
    (found : environmentOf? value = some environment) : IsEnvironment value environment.expand := by
  cases value with
  | text name =>
    cases found
    exact .name name
  | map entries =>
    simp only [environmentOf?, bind, Option.bind_eq_some_iff] at found
    obtain ⟨read, keyed, _, uniqueName, value, rfl, name, isText, label?, uniqueLabel, label,
      isLabel, switch?, uniqueSwitch, disabled, isSwitch, assigned?, uniqueVariables, ended⟩ :=
      found
    have keys : HaveKeys environmentKey? entries read := by
      refine (forall₂_of_mapM keyed).imp ?_
      rintro ⟨key, item⟩ ⟨text, value⟩ both
      obtain ⟨text, named, ended⟩ := Option.bind_eq_some_iff.mp both
      cases ended
      exact ⟨named, rfl⟩
    have part {part : String} {found? : Option Value}
        (unique : uniqueValue? part read = some found?) : partOf? part entries = found? := by
      rw [find?_of_uniqueValue? unique, partOf?, keys.find?]
    have named : partOf? "name" entries = some (.text name) := by
      rw [part uniqueName]
      cases value with
      | text text =>
        cases isText
        rfl
      | _ => cases isText
    -- Absent variables are none, others are read from a mapping.
    obtain ⟨bindings, assigned, rfl⟩ : ∃ bindings : List (String × Variable),
        AreVariables assigned? (bindings.map fun (name, value) => (name, value.render)) ∧
          environment = .entry name label disabled bindings := by
      cases assigned? with
      | none =>
        cases ended
        exact ⟨[], .absent, rfl⟩
      | some value =>
        obtain ⟨bindings, bound, ended⟩ := Option.bind_eq_some_iff.mp ended
        cases ended
        exact ⟨bindings, areVariables_of_bindingsOf? bound, rfl⟩
    have labelled := isLabel_of_environmentLabel? isLabel
    have switched := getD_of_environmentSwitch? isSwitch
    rw [← part uniqueLabel] at labelled
    rw [← part uniqueSwitch] at switched
    rw [← part uniqueVariables] at assigned
    exact .entry named labelled switched assigned (areBindings_sortedBindings bindings)
  | _ => cases found

/-! ### Boards and benchmarks -/

/-- The descriptor has the parts of a board that stand in a node. -/
structure IsBoard (anchors : Anchors) (node : Node) (board : Board) : Prop where
  name : anchors.textAt? "board_name" node = board.name?
  environments : List.Forall₂
    (fun item environment => ∃ value, anchors.Means item value ∧
      environmentOf? value = some environment)
    (anchors.itemsAt "supported_environments" node) board.environments

/-- The descriptor has the parts of a benchmark that stand in a node. -/
structure IsBenchmark (anchors : Anchors) (node : Node) (benchmark : Benchmark) : Prop where
  name : anchors.textAt? "name" node = benchmark.name?
  filename : anchors.textAt? "filename" node = benchmark.filename?
  scaleFactor : Option.Rel
    (fun child count => ∃ value, anchors.Means child value ∧ countOf? value = some count)
    (anchors.part? "scale_factor" node) benchmark.scaleFactor?
  iterations : Option.Rel
    (fun child count => ∃ value, anchors.Means child value ∧ countOf? value = some count)
    (anchors.part? "iterations" node) benchmark.iterations?
  boards : List.Forall₂
    (fun item board? => anchors.isNull item = true ∧ board? = none ∨
      anchors.isNull item = false ∧ ∃ board, board? = some board ∧ IsBoard anchors item board)
    (anchors.itemsAt "boards" node) benchmark.boards

/-- The descriptor has the phase commands that stand in a document. -/
structure IsCommands (anchors : Anchors) (phase? : String → Option Node) (commands : Commands) :
    Prop where
  build : Option.Rel
    (fun child command => ∃ value, anchors.Means child value ∧ commandOf? value = some command)
    (phase? "build") commands.build?
  flash : Option.Rel
    (fun child command => ∃ value, anchors.Means child value ∧ commandOf? value = some command)
    (phase? "flash") commands.flash?
  run : Option.Rel
    (fun child command => ∃ value, anchors.Means child value ∧ commandOf? value = some command)
    (phase? "run") commands.run?

/-- The descriptor has the parts that stand in a document. -/
structure IsDocument (anchors : Anchors) (root : Node) (descriptor : Descriptor) : Prop where
  benchmarks : Option.Rel
    (fun child benchmarks => List.Forall₂ (IsBenchmark anchors) (anchors.items child) benchmarks)
    (anchors.part? "benchmarks" root) descriptor.benchmarks?
  commands : IsCommands anchors (anchors.phaseAt? · root) descriptor.commands

section Read

variable {anchors : Anchors} (grounded : anchors.IsGrounded) {node : Node}
include grounded

theorem isBoard_of_readBoard {board : Board} (yields : Yields (readBoard anchors node) board) :
    IsBoard anchors node board := by
  obtain ⟨entries, opened, more⟩ := yields.of_bind
  obtain ⟨name?, named, more⟩ := more.of_bind
  obtain ⟨environments?, listed, ended⟩ := more.of_bind
  cases yields_pure.mp ended
  exact ⟨textAt?_of_readField grounded opened named,
    (itemsAt_of_readField grounded opened listed).imp fun _ _ => of_readFormed⟩

theorem IsBoard.of_target {board : Board} (isBoard : IsBoard anchors (anchors.target node) board) :
    IsBoard anchors node board := by
  obtain ⟨name, environments⟩ := isBoard
  rw [Anchors.textAt?, Anchors.part?_target grounded] at name
  rw [Anchors.itemsAt, Anchors.part?_target grounded] at environments
  exact ⟨name, environments⟩

theorem isBenchmark_of_readBenchmark {benchmark : Benchmark}
    (yields : Yields (readBenchmark anchors node) benchmark) :
    IsBenchmark anchors node benchmark := by
  obtain ⟨entries, opened, more⟩ := yields.of_bind
  obtain ⟨name?, named, more⟩ := more.of_bind
  obtain ⟨filename?, filed, more⟩ := more.of_bind
  obtain ⟨scaleFactor?, scaled, more⟩ := more.of_bind
  obtain ⟨iterations?, iterated, more⟩ := more.of_bind
  obtain ⟨boards?, listed, ended⟩ := more.of_bind
  cases yields_pure.mp ended
  refine ⟨textAt?_of_readField grounded opened named, textAt?_of_readField grounded opened filed,
    formed_of_readField grounded opened scaled, formed_of_readField grounded opened iterated,
    (itemsAt_of_readField grounded opened listed).imp ?_⟩
  intro item board? yields
  rcases of_readOptional yields with ⟨null, rfl⟩ | ⟨visible, board, rfl, here⟩
  · exact .inl ⟨null, rfl⟩
  · exact .inr ⟨visible, board, rfl, (isBoard_of_readBoard grounded here).of_target grounded⟩

theorem isCommands_of_readCommands {commands : Commands}
    (yields : Yields (readCommands anchors node) commands) :
    IsCommands anchors (anchors.part? · node) commands := by
  obtain ⟨entries, opened, more⟩ := yields.of_bind
  obtain ⟨build?, built, more⟩ := more.of_bind
  obtain ⟨flash?, flashed, more⟩ := more.of_bind
  obtain ⟨run?, ran, ended⟩ := more.of_bind
  cases yields_pure.mp ended
  exact ⟨formed_of_readField grounded opened built, formed_of_readField grounded opened flashed,
    formed_of_readField grounded opened ran⟩

theorem isDocument_of_readRoot {descriptor : Descriptor}
    (yields : Yields (readRoot anchors node) descriptor) :
    IsDocument anchors node descriptor := by
  obtain ⟨entries, opened, more⟩ := yields.of_bind
  obtain ⟨benchmarks?, listed, more⟩ := more.of_bind
  obtain ⟨commands?, single, more⟩ := more.of_bind
  have benchmarks : Option.Rel
      (fun child benchmarks => List.Forall₂ (IsBenchmark anchors) (anchors.items child) benchmarks)
      (anchors.part? "benchmarks" node) benchmarks? := by
    have related := of_readField opened listed
    generalize anchors.part? "benchmarks" node = part? at related ⊢
    cases related with
    | none => exact .none
    | some here =>
      have items := of_readList here
      rw [Anchors.items_target grounded] at items
      exact .some (items.imp fun _ _ => isBenchmark_of_readBenchmark grounded)
  have found := find?_of_unique single
  rw [(haveKeys_of_readSection opened).find?] at found
  cases commands? with
  | none =>
    cases yields_pure.mp more
    have absent (phase : String) : anchors.phaseAt? phase node = none := by
      rw [Anchors.phaseAt?, Anchors.part?, ← found]
      rfl
    refine ⟨benchmarks, ⟨?_, ?_, ?_⟩⟩ <;> rw [absent] <;> exact .none
  | some child =>
    obtain ⟨commands, here, ended⟩ := more.of_bind
    cases yields_pure.mp ended
    -- A null section has no parts either.
    have phases : (anchors.phaseAt? · node) = (anchors.part? · child) := by
      funext phase
      rw [Anchors.phaseAt?, Anchors.part?, ← found, Option.filter_some]
      split
      next => rfl
      next null => exact (anchors.part?_of_isNull (by simpa using null) phase).symm
    refine ⟨benchmarks, ?_⟩
    rw [phases]
    exact isCommands_of_readCommands grounded here

theorem benchmarks_of_readRoot {descriptor : Descriptor} {benchmarks : List Benchmark}
    (yields : Yields (readRoot anchors node) descriptor)
    (present : descriptor.benchmarks? = some benchmarks) :
    List.Forall₂ (IsBenchmark anchors) (anchors.itemsAt "benchmarks" node) benchmarks := by
  have related := (isDocument_of_readRoot grounded yields).benchmarks
  rw [present] at related
  rw [Anchors.itemsAt]
  generalize anchors.part? "benchmarks" node = part? at related ⊢
  cases related with
  | some items => exact items

end Read

/-! ### Entries -/

theorem isCountAt_of_resolve {anchors : Anchors} {node : Node} {name field : String}
    {count? : Option Count} {count : UInt64}
    (written : Option.Rel
      (fun child count => ∃ value, anchors.Means child value ∧ countOf? value = some count)
      (anchors.part? field node) count?)
    (resolved : Count.resolve name field count? = .ok count) :
    IsCountAt anchors field node count := by
  rw [IsCountAt]
  generalize anchors.part? field node = part? at written
  cases written with
  | none =>
    cases resolved
    rfl
  | some here =>
    obtain ⟨value, means, counted⟩ := here
    refine ⟨value, means, ?_⟩
    cases value with
    | natural value =>
      cases counted
      cases resolved
      exact .natural _
    | signed value =>
      rw [countOf?] at counted
      split at counted
      next natural =>
        cases counted
        cases resolved
        exact .signed natural
      next => cases counted
    | text text =>
      cases counted
      rw [Count.resolve] at resolved
      split at resolved
      next found =>
        cases resolved
        exact .text found
      next => cases resolved
    | _ => cases counted

theorem forall₂_boards {anchors : Anchors} {benchmark : Node} {items : List Node}
    {boards : List (Option Board)}
    {entry : String → List BoardBench.Environment → BoardBench.Benchmark}
    (related : List.Forall₂
      (fun item board? => anchors.isNull item = true ∧ board? = none ∨
        anchors.isNull item = false ∧ ∃ board, board? = some board ∧ IsBoard anchors item board)
      items boards)
    (fits : ∀ board name environments, anchors.nameAt? "board_name" board = some name →
      List.Forall₂
        (fun node environment => ∃ value, anchors.Means node value ∧
          IsEnvironment value environment)
        (anchors.itemsAt "supported_environments" board) environments →
      IsEntryOf anchors (benchmark, board) (entry name environments)) :
    List.Forall₂ (IsEntryOf anchors)
      ((items.filter fun board =>
        !anchors.isNull board && (anchors.nameAt? "board_name" board).isSome).map fun board =>
          (benchmark, board))
      ((boards.filterMap id).filterMap (Board.expand? entry)) := by
  induction related with
  | nil => exact .nil
  | @cons item board? items boards here _ ih =>
    rcases here with ⟨null, rfl⟩ | ⟨visible, board, rfl, isBoard⟩
    · simpa [null] using ih
    · have named : anchors.nameAt? "board_name" item = nonBlank? board.name? :=
        isBoard.name ▸ rfl
      cases name : nonBlank? board.name? with
      | none => simpa [Board.expand?, name, named] using ih
      | some text =>
        have first := fits item text (board.environments.map Environment.expand)
          (named.trans name) (List.forall₂_map_right_iff.mpr (isBoard.environments.imp
            fun _ _ ⟨value, means, found⟩ => ⟨value, means, isEnvironment_expand found⟩))
        have kept : Board.expand? entry board =
            some (entry text (board.environments.map Environment.expand)) := by
          rw [Board.expand?, name, Option.map_some]
        rw [List.filter_cons_of_pos (by simp [visible, named, name]), List.map_cons,
          List.filterMap_cons_some (by rfl), List.filterMap_cons_some kept]
        exact .cons first ih

theorem forall₂_namedBoardsOf {anchors : Anchors} {node : Node} {benchmark : Benchmark}
    (isBenchmark : IsBenchmark anchors node benchmark) {name : String}
    (named : anchors.nameAt? "name" node = some name) {entries : List BoardBench.Benchmark}
    (expanded : benchmark.expand = .ok entries) :
    List.Forall₂ (IsEntryOf anchors) (namedBoardsOf anchors node) entries := by
  have sameName : nonBlank? benchmark.name? = some name := named ▸ isBenchmark.name ▸ rfl
  rw [Benchmark.expand, sameName] at expanded
  simp only at expanded
  cases scaled : Count.resolve name "scale_factor" benchmark.scaleFactor? with
  | error fault =>
    rw [scaled] at expanded
    cases expanded
  | ok scaleFactor =>
    cases iterated : Count.resolve name "iterations" benchmark.iterations? with
    | error fault =>
      rw [scaled, iterated] at expanded
      cases expanded
    | ok iterations =>
      rw [scaled, iterated] at expanded
      cases expanded
      apply forall₂_boards isBenchmark.boards
      intro board boardName environments boardNamed listed
      exact
        { name := named
          filename := by rw [Anchors.nameAt?, isBenchmark.filename]; rfl
          scaleFactor := isCountAt_of_resolve isBenchmark.scaleFactor scaled
          iterations := isCountAt_of_resolve isBenchmark.iterations iterated
          board := boardNamed
          environments := listed }

theorem forall₂_expandAll {anchors : Anchors} {items : List Node} {benchmarks : List Benchmark}
    (related : List.Forall₂ (IsBenchmark anchors) items benchmarks)
    {entries : List BoardBench.Benchmark} (expanded : expandAll benchmarks = .ok entries) :
    List.Forall₂ (IsEntryOf anchors)
      ((items.filter fun benchmark => (anchors.nameAt? "name" benchmark).isSome).flatMap
        (namedBoardsOf anchors)) entries := by
  induction related generalizing entries with
  | nil =>
    cases expanded
    exact .nil
  | @cons item benchmark items benchmarks here _ ih =>
    rw [expandAll] at expanded
    cases first : benchmark.expand with
    | error fault =>
      rw [first] at expanded
      cases expanded
    | ok own =>
      cases rest : expandAll benchmarks with
      | error fault =>
        rw [first, rest] at expanded
        cases expanded
      | ok more =>
        rw [first, rest] at expanded
        cases expanded
        cases name : anchors.nameAt? "name" item with
        | some text =>
          rw [List.filter_cons_of_pos (by simp [name]), List.flatMap_cons]
          exact List.rel_append (forall₂_namedBoardsOf here name first) (ih rest)
        | none =>
          -- A benchmark without a name has no entries, whatever its boards are.
          have unnamed : nonBlank? benchmark.name? = none := name ▸ here.name ▸ rfl
          rw [Benchmark.expand, unnamed] at first
          cases first
          rw [List.filter_cons_of_neg (by simp [name])]
          exact ih rest

theorem expand_eq_ok_iff {descriptor : Descriptor} {config : Config} :
    descriptor.expand = .ok config ↔ ∃ benchmarks, descriptor.benchmarks? = some benchmarks ∧
      expandAll benchmarks = .ok config.benchmarks ∧
      config.commands = descriptor.commands.phases ∧ hasEmpty config.commands = false := by
  unfold Descriptor.expand
  cases descriptor.benchmarks? with
  | none => simp
  | some benchmarks =>
    simp only [Option.some.injEq, exists_eq_left']
    cases empty : hasEmpty descriptor.commands.phases with
    | true =>
      simp only [if_true]
      constructor
      · rintro ⟨⟩
      · rintro ⟨-, same, filled⟩
        rw [same, empty] at filled
        cases filled
    | false =>
      cases expanded : expandAll benchmarks with
      | error fault =>
        constructor
        · rintro ⟨⟩
        · rintro ⟨⟨⟩, -⟩
      | ok entries =>
        constructor
        · rintro ⟨⟩
          exact ⟨rfl, rfl, empty⟩
        · rintro ⟨⟨⟩, same, -⟩
          rw [← same]
          rfl

end Descriptor

/-- The configuration in a document tree. -/
def Config.ofNode (root : Node) : Except ConfigError Config :=
  match Descriptor.ofNode? root with
  | none => .error .invalidDocument
  | some descriptor => descriptor.expand

theorem ofYaml_eq_ofNode {text : String} {root? : Option Node}
    (found : document? text = some root?) :
    Config.ofYaml text = Config.ofNode (root?.getD .missing) := by
  rw [Config.ofYaml, Descriptor.ofYaml?, found]
  cases root? with
  | some root => rfl
  | none => rfl

theorem exists_root_of_ofYaml {text : String} {config : Config}
    (loaded : Config.ofYaml text = .ok config) :
    ∃ root, document? text = some (some root) ∧ Config.ofNode root = .ok config := by
  rw [Config.ofYaml, Descriptor.ofYaml?] at loaded
  cases found : document? text with
  | none =>
    rw [found] at loaded
    cases loaded
  | some root? =>
    rw [found] at loaded
    cases root? with
    | none => cases loaded
    | some root => exact ⟨root, rfl, loaded⟩

theorem forall₂_namedBoards {root : Node} {config : Config}
    (loaded : Config.ofNode root = .ok config) :
    List.Forall₂ (Descriptor.IsEntryOf (Anchors.of root))
      (Descriptor.namedBoards (Anchors.of root) root) config.benchmarks := by
  rw [Config.ofNode] at loaded
  split at loaded
  next => cases loaded
  next descriptor found =>
    obtain ⟨⟨descriptor, followed⟩, yields, rfl⟩ := Option.map_eq_some_iff.mp found
    obtain ⟨benchmarks, present, expanded, -⟩ := Descriptor.expand_eq_ok_iff.mp loaded
    have listed := Descriptor.benchmarks_of_readRoot (Anchors.isGrounded_of root)
      ⟨0, followed, yields⟩ present
    exact Descriptor.forall₂_expandAll listed expanded

end BoardBench
