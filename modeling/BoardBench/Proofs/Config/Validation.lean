import BoardBench.Proofs.Config.Pruning
import BoardBench.Proofs.Text.Digit

/-!
# What is wrong with a document

Main result: a document in which every node has an acceptable type fails for one of three reasons,
which are looked for in a fixed order. It has no benchmarks, or a phase has an empty command, or a
benchmark with a name has a text for a count that does not spell one. Only the first such count is
reported. Without any of these there is a configuration.

Proof strategy: the parts of the descriptor are those of the document, so each check of the
expansion comes down to a property of nodes. The benchmarks are gone through by induction.
-/
namespace BoardBench

open Yaml

/-! ### Counts -/

/-- Without the blanks around it, the text is an optional plus sign and one or more ASCII digits,
which denote a number below `2 ^ 64`. -/
def SpellsCount (written : String) : Prop :=
  ∃ digits, (trimChars written.toList = digits ∨ trimChars written.toList = '+' :: digits) ∧
    digits ≠ [] ∧ (∀ digit ∈ digits, isAsciiDigit digit = true) ∧
    Nat.ofDigits 10 (digits.reverse.map fun digit => digit.toNat - 48) < 2 ^ 64

/-- One or more ASCII digits that denote a number below the bound. -/
def AreDigitsBelow (bound : Nat) (digits : List Char) : Prop :=
  digits ≠ [] ∧ (∀ digit ∈ digits, isAsciiDigit digit = true) ∧ digitsValue digits < bound

theorem isSome_natural?_iff (bound : Nat) (text : List Char) :
    (natural? bound text).isSome = true ↔
      ∃ digits, (text = digits ∨ text = '+' :: digits) ∧ AreDigitsBelow bound digits := by
  simp only [Option.isSome_iff_exists, natural?_eq_some_iff, AreDigitsBelow,
    digitsValue_eq_ofDigits]
  constructor
  · rintro ⟨number, ⟨digits, spelled, filled, ascii, rfl⟩, below⟩
    exact ⟨digits, spelled, filled, ascii, below⟩
  · rintro ⟨digits, spelled, filled, ascii, below⟩
    exact ⟨_, ⟨digits, spelled, filled, ascii, rfl⟩, below⟩

theorem spellsCount_iff (written : String) :
    SpellsCount written ↔ (countOfText? (trimChars written.toList)).isSome = true := by
  rw [countOfText?, Option.isSome_map, isSome_natural?_iff]
  simp only [SpellsCount, AreDigitsBelow, digitsValue_eq_ofDigits, countBound, UInt64.size,
    Nat.reducePow]

theorem not_spellsCount_iff (written : String) :
    ¬SpellsCount written ↔ countOfText? (trimChars written.toList) = none := by
  rw [spellsCount_iff, Option.not_isSome_iff_eq_none]

namespace Descriptor

/-! ### What may be wrong -/

/-- The text at the key of a count does not spell one. -/
def HasBadCount (anchors : Anchors) (field : String) (benchmark : Node) (written : String) : Prop :=
  ∃ child, anchors.part? field benchmark = some child ∧ anchors.Means child (.text written) ∧
    ¬SpellsCount written

/-- What is wrong with the counts of a benchmark, if it has a name. -/
inductive Miscounts (anchors : Anchors) (benchmark : Node) : ConfigError → Prop
  | scaleFactor {name written : String} : anchors.nameAt? "name" benchmark = some name →
    HasBadCount anchors "scale_factor" benchmark written →
    Miscounts anchors benchmark (.badCount name "scale_factor" written)
  | iterations {name written : String} : anchors.nameAt? "name" benchmark = some name →
    (∀ other, ¬HasBadCount anchors "scale_factor" benchmark other) →
    HasBadCount anchors "iterations" benchmark written →
    Miscounts anchors benchmark (.badCount name "iterations" written)

/-- What is wrong with the first benchmark with a wrong count. -/
inductive FirstMiscounts (anchors : Anchors) : List Node → ConfigError → Prop
  | here {benchmark : Node} {rest : List Node} {cause : ConfigError} :
    Miscounts anchors benchmark cause → FirstMiscounts anchors (benchmark :: rest) cause
  | later {benchmark : Node} {rest : List Node} {cause : ConfigError} :
    (∀ other, ¬Miscounts anchors benchmark other) → FirstMiscounts anchors rest cause →
    FirstMiscounts anchors (benchmark :: rest) cause

def countFields : List String :=
  ["scale_factor", "iterations"]

/-- The benchmark has no name, or none of its counts is wrong. -/
def IsSound (anchors : Anchors) (benchmark : Node) : Prop :=
  anchors.nameAt? "name" benchmark ≠ none → ∀ field ∈ countFields, ∀ written,
    ¬HasBadCount anchors field benchmark written

/-- A blank text, or a list without items. -/
inductive IsEmptyCommand : Value → Prop
  | line {text : String} : AllBlank text.toList → IsEmptyCommand (.text text)
  | arguments : IsEmptyCommand (.list [])

def phaseNames : List String :=
  ["build", "flash", "run"]

/-- The command of some phase is written, and empty. -/
def HasEmptyCommand (anchors : Anchors) (root : Node) : Prop :=
  ∃ phase ∈ phaseNames, ∃ child value, anchors.phaseAt? phase root = some child ∧
    anchors.Means child value ∧ IsEmptyCommand value

/-- Why a document has no configuration, if all its nodes have acceptable types. -/
inductive Fails (anchors : Anchors) (root : Node) : ConfigError → Prop
  | missing : anchors.part? "benchmarks" root = none → Fails anchors root .missingBenchmarks
  | empty : anchors.part? "benchmarks" root ≠ none → HasEmptyCommand anchors root →
    Fails anchors root .emptyCommand
  | count {cause : ConfigError} : anchors.part? "benchmarks" root ≠ none →
    ¬HasEmptyCommand anchors root →
    FirstMiscounts anchors (anchors.itemsAt "benchmarks" root) cause → Fails anchors root cause

/-! ### Counts of a benchmark -/

/-- A node that means a text means nothing else. -/
theorem eq_text_of_means {anchors : Anchors} {node : Node} {text : String} {value : Value}
    (means : anchors.Means node (.text text)) (other : anchors.Means node value) :
    value = .text text := by
  cases means with
  | scalar stands found =>
    cases other with
    | scalar stands' found' =>
      rw [stands] at stands'
      cases stands'
      rw [found] at found'
      exact (Option.some.inj found').symm
    | list stands' =>
      rw [stands] at stands'
      cases stands'
    | map stands' =>
      rw [stands] at stands'
      cases stands'

/-- No scalar means a list. -/
theorem scalarValue?_ne_list (tag : Option Bytes) (style : Style) (text : String)
    (items : List Value) : scalarValue? tag style text ≠ some (.list items) := by
  have number : numberValue? text ≠ some (some (.list items)) := by
    unfold numberValue?
    grind
  have plain : plainValue? text ≠ some (.list items) := by
    unfold plainValue?
    cases floatOf? text <;> grind
  unfold scalarValue?
  split
  next =>
    split
    · exact plain
    · simp
  next tag =>
    repeat' split
    all_goals simp [number, plain, Option.join_eq_some_iff]

theorem eq_nil_of_means {anchors : Anchors} {node : Node} {value : Value}
    (means : anchors.Means node (.list [])) (other : anchors.Means node value) :
    value = .list [] := by
  cases means with
  | scalar stands found => exact absurd found (scalarValue?_ne_list _ _ _ _)
  | list stands _ each =>
    cases each
    cases other with
    | scalar stands' =>
      rw [stands] at stands'
      cases stands'
    | list stands' _ each' =>
      rw [stands] at stands'
      cases stands'
      cases each'
      rfl
    | map stands' =>
      rw [stands] at stands'
      cases stands'

section Count

variable {anchors : Anchors} {node : Node} {field : String} {count? : Option Count}
  (written : Option.Rel
    (fun child count => ∃ value, anchors.Means child value ∧ countOf? value = some count)
    (anchors.part? field node) count?)
include written

theorem hasBadCount_iff {text : String} :
    HasBadCount anchors field node text ↔
      count? = some (.text text) ∧ countOfText? (trimChars text.toList) = none := by
  rw [HasBadCount, not_spellsCount_iff]
  generalize anchors.part? field node = part? at written
  cases written with
  | none => simp
  | @some child count here =>
    obtain ⟨value, means, counted⟩ := here
    simp only [Option.some.injEq, exists_eq_left']
    constructor
    · rintro ⟨spelled, bad⟩
      rw [eq_text_of_means spelled means] at counted
      cases counted
      exact ⟨rfl, bad⟩
    · rintro ⟨rfl, bad⟩
      have same : value = .text text := by
        cases value with
        | text other =>
          cases counted
          rfl
        | signed number =>
          rw [countOf?] at counted
          split at counted <;> cases counted
        | _ => cases counted
      exact ⟨same ▸ means, bad⟩

theorem resolve_eq_error_iff (name : String) (cause : ConfigError) :
    Count.resolve name field count? = .error cause ↔
      ∃ text, HasBadCount anchors field node text ∧ cause = .badCount name field text := by
  simp only [hasBadCount_iff written]
  rcases count? with _ | value | text
  · simp [Count.resolve]
  · simp [Count.resolve]
  · rw [Count.resolve]
    cases found : countOfText? (trimChars text.toList) with
    | none =>
      constructor
      · rintro ⟨⟩
        exact ⟨text, ⟨rfl, found⟩, rfl⟩
      · rintro ⟨other, ⟨⟨⟩, -⟩, rfl⟩
        rfl
    | some count =>
      constructor
      · rintro ⟨⟩
      · rintro ⟨other, ⟨⟨⟩, bad⟩, -⟩
        rw [found] at bad
        cases bad

theorem exists_resolve_eq_ok_iff (name : String) :
    (∃ count, Count.resolve name field count? = .ok count) ↔
      ∀ text, ¬HasBadCount anchors field node text := by
  constructor
  · rintro ⟨count, resolved⟩ text bad
    have failed := (resolve_eq_error_iff written name _).mpr ⟨text, bad, rfl⟩
    rw [resolved] at failed
    cases failed
  · intro sound
    cases resolved : Count.resolve name field count? with
    | ok count => exact ⟨count, rfl⟩
    | error cause =>
      obtain ⟨text, bad, -⟩ := (resolve_eq_error_iff written name cause).mp resolved
      exact absurd bad (sound text)

end Count

/-! ### Benchmarks -/

theorem Benchmark.expand_eq_error_iff (benchmark : Benchmark) (cause : ConfigError) :
    benchmark.expand = .error cause ↔
      ∃ name, nonBlank? benchmark.name? = some name ∧
        (Count.resolve name "scale_factor" benchmark.scaleFactor? = .error cause ∨
          (∃ count, Count.resolve name "scale_factor" benchmark.scaleFactor? = .ok count) ∧
            Count.resolve name "iterations" benchmark.iterations? = .error cause) := by
  rw [expand]
  cases nonBlank? benchmark.name? with
  | none => simp
  | some name =>
    simp only [Option.some.injEq, exists_eq_left']
    cases Count.resolve name "scale_factor" benchmark.scaleFactor? with
    | error fault => simp [bind, Except.bind]
    | ok scaleFactor =>
      cases Count.resolve name "iterations" benchmark.iterations? with
      | error fault => simp [bind, Except.bind]
      | ok iterations => simp [bind, Except.bind, pure, Except.pure]

theorem isSound_iff (anchors : Anchors) (benchmark : Node) :
    IsSound anchors benchmark ↔ ∀ cause, ¬Miscounts anchors benchmark cause := by
  simp only [IsSound, countFields, List.forall_mem_cons]
  constructor
  · rintro sound cause (⟨named, bad⟩ | ⟨named, -, bad⟩)
    · exact (sound (by simp [named])).1 _ bad
    · exact (sound (by simp [named])).2.1 _ bad
  · intro sound named
    obtain ⟨name, named⟩ := Option.ne_none_iff_exists'.mp named
    have scaleFactor (written : String) : ¬HasBadCount anchors "scale_factor" benchmark written :=
      fun bad => sound _ (.scaleFactor named bad)
    exact ⟨scaleFactor, fun _ bad => sound _ (.iterations named scaleFactor bad), by simp⟩

/-- Some benchmark with a wrong count is the first one. -/
theorem exists_firstMiscounts_iff (anchors : Anchors) (items : List Node) :
    (∃ cause, FirstMiscounts anchors items cause) ↔
      ∃ item ∈ items, ∃ cause, Miscounts anchors item cause := by
  induction items with
  | nil =>
    constructor
    · rintro ⟨cause, ⟨⟩⟩
    · simp
  | cons item rest ih =>
    constructor
    · rintro ⟨cause, first⟩
      cases first with
      | here miscounts => exact ⟨item, List.mem_cons_self, cause, miscounts⟩
      | later sound first =>
        obtain ⟨other, later, miscounts⟩ := ih.mp ⟨cause, first⟩
        exact ⟨other, List.mem_cons_of_mem item later, miscounts⟩
    · rintro ⟨other, member, found⟩
      by_cases own : ∃ cause, Miscounts anchors item cause
      · obtain ⟨cause, miscounts⟩ := own
        exact ⟨cause, .here miscounts⟩
      · rcases List.mem_cons.mp member with rfl | later
        · exact absurd found own
        · obtain ⟨cause, first⟩ := ih.mpr ⟨other, later, found⟩
          exact ⟨cause, .later (not_exists.mp own) first⟩

section Benchmarks

variable {anchors : Anchors}

theorem miscounts_iff {node : Node} {benchmark : Benchmark}
    (isBenchmark : IsBenchmark anchors node benchmark) (cause : ConfigError) :
    Miscounts anchors node cause ↔ benchmark.expand = .error cause := by
  have sameName : anchors.nameAt? "name" node = nonBlank? benchmark.name? :=
    isBenchmark.name ▸ rfl
  simp only [benchmark.expand_eq_error_iff, resolve_eq_error_iff isBenchmark.scaleFactor,
    resolve_eq_error_iff isBenchmark.iterations,
    exists_resolve_eq_ok_iff isBenchmark.scaleFactor, ← sameName]
  constructor
  · intro miscounts
    cases miscounts with
    | scaleFactor named bad => exact ⟨_, named, .inl ⟨_, bad, rfl⟩⟩
    | iterations named sound bad => exact ⟨_, named, .inr ⟨sound, _, bad, rfl⟩⟩
  · rintro ⟨name, named, ⟨text, bad, rfl⟩ | ⟨sound, text, bad, rfl⟩⟩
    · exact .scaleFactor named bad
    · exact .iterations named sound bad

variable {items : List Node} {benchmarks : List Benchmark}
  (related : List.Forall₂ (IsBenchmark anchors) items benchmarks)
include related

theorem firstMiscounts_iff (cause : ConfigError) :
    FirstMiscounts anchors items cause ↔ expandAll benchmarks = .error cause := by
  induction related with
  | nil =>
    constructor
    · rintro ⟨⟩
    · rintro ⟨⟩
  | @cons item benchmark items benchmarks here _ ih =>
    have own := miscounts_iff here
    rw [expandAll]
    cases expanded : benchmark.expand with
    | error fault =>
      rw [expanded] at own
      constructor
      · intro first
        cases first with
        | here miscounts => exact (own cause).mp miscounts
        | later sound => exact absurd ((own fault).mpr rfl) (sound fault)
      · rintro ⟨⟩
        exact .here ((own cause).mpr rfl)
    | ok entries =>
      have sound : ∀ other, ¬Miscounts anchors item other := by
        intro other miscounts
        have failed := (own other).mp miscounts
        rw [expanded] at failed
        cases failed
      have further : FirstMiscounts anchors (item :: items) cause ↔
          FirstMiscounts anchors items cause := by
        constructor
        · intro first
          cases first with
          | here miscounts => exact absurd miscounts (sound cause)
          | later _ rest => exact rest
        · exact .later sound
      rw [further, ih]
      cases expandAll benchmarks <;> simp [bind, Except.bind, pure, Except.pure]

end Benchmarks

/-! ### Commands -/

/-- A command has no arguments if its line is blank or its list is empty. -/
theorem isEmptyCommand_iff {value : Value} {command : Command}
    (formed : commandOf? value = some command) : IsEmptyCommand value ↔ command.words = [] := by
  cases value with
  | text line =>
    cases formed
    rw [Command.words, words_eq_nil_iff]
    constructor
    · rintro ⟨blank⟩
      exact blank
    · exact .line
  | list items =>
    obtain ⟨arguments, read, rfl⟩ := Option.map_eq_some_iff.mp formed
    have lengths := (forall₂_of_mapM read).length_eq
    rw [Command.words, ← List.length_eq_zero_iff, ← lengths, List.length_eq_zero_iff]
    constructor
    · rintro ⟨⟩
      rfl
    · rintro rfl
      exact .arguments
  | _ => cases formed

theorem phase_eq_nil_iff {anchors : Anchors} {part? : Option Node} {command? : Option Command}
    (written : Option.Rel
      (fun child command => ∃ value, anchors.Means child value ∧ commandOf? value = some command)
      part? command?)
    {standard : List String} (filled : standard ≠ []) :
    (command?.map Command.words).getD standard = [] ↔
      ∃ child value, part? = some child ∧ anchors.Means child value ∧ IsEmptyCommand value := by
  cases written with
  | none => simp [filled]
  | @some child command here =>
    obtain ⟨value, means, formed⟩ := here
    rw [Option.map_some, Option.getD_some, ← isEmptyCommand_iff formed]
    constructor
    · intro empty
      exact ⟨child, value, rfl, means, empty⟩
    · rintro ⟨_, other, ⟨⟩, means', empty⟩
      -- The node means one thing only, if it is empty.
      have same : value = other := by
        cases empty with
        | line => exact eq_text_of_means means' means
        | arguments => exact eq_nil_of_means means' means
      exact same ▸ empty

theorem hasEmptyCommand_iff {anchors : Anchors} {root : Node} {commands : Commands}
    (written : IsCommands anchors (anchors.phaseAt? · root) commands) :
    HasEmptyCommand anchors root ↔ hasEmpty commands.phases = true := by
  have build := phase_eq_nil_iff written.build (by decide : defaultBuild ≠ [])
  have flash := phase_eq_nil_iff written.flash (by decide : defaultFlash ≠ [])
  have run := phase_eq_nil_iff written.run (by decide : defaultRun ≠ [])
  simp only [HasEmptyCommand, phaseNames, List.mem_cons, List.not_mem_nil, or_false, hasEmpty,
    Commands.phases, Bool.or_eq_true, List.isEmpty_iff, build, flash, run]
  simp [or_assoc]

/-! ### Documents -/

theorem expand_eq_error_iff {descriptor : Descriptor} {cause : ConfigError} :
    descriptor.expand = .error cause ↔
      descriptor.benchmarks? = none ∧ cause = .missingBenchmarks ∨
        ∃ benchmarks, descriptor.benchmarks? = some benchmarks ∧
          (hasEmpty descriptor.commands.phases = true ∧ cause = .emptyCommand ∨
            ¬hasEmpty descriptor.commands.phases = true ∧ expandAll benchmarks = .error cause) := by
  rw [Descriptor.expand]
  cases descriptor.benchmarks? with
  | none => simp [eq_comm (a := cause)]
  | some benchmarks =>
    simp only [reduceCtorEq, false_and, Option.some.injEq, exists_eq_left', false_or]
    cases hasEmpty descriptor.commands.phases with
    | true => simp [eq_comm (a := cause)]
    | false => cases expandAll benchmarks <;> simp [bind, Except.bind, pure, Except.pure]

section Documents

variable {anchors : Anchors} {root : Node} {descriptor : Descriptor}
  (written : IsDocument anchors root descriptor)
include written

theorem fails_iff (cause : ConfigError) :
    Fails anchors root cause ↔ descriptor.expand = .error cause := by
  have related := written.benchmarks
  rw [expand_eq_error_iff, ← hasEmptyCommand_iff written.commands]
  generalize descriptor.benchmarks? = benchmarks? at related ⊢
  cases found : anchors.part? "benchmarks" root with
  | none =>
    rw [found] at related
    cases related
    constructor
    · rintro (- | ⟨present, -⟩ | ⟨present, -⟩)
      · exact .inl ⟨rfl, rfl⟩
      · exact absurd found present
      · exact absurd found present
    · rintro (⟨-, rfl⟩ | ⟨_, ⟨⟩, -⟩)
      exact .missing found
  | some child =>
    have present : anchors.part? "benchmarks" root ≠ none := by simp [found]
    have items : anchors.itemsAt "benchmarks" root = anchors.items child := by
      rw [Anchors.itemsAt, found]
      rfl
    rw [found] at related
    cases related with
    | @some _ benchmarks related =>
      have first := firstMiscounts_iff (items ▸ related) cause
      constructor
      · rintro (absent | ⟨-, blank⟩ | ⟨-, filled, wrong⟩)
        · exact absurd absent present
        · exact .inr ⟨benchmarks, rfl, .inl ⟨blank, rfl⟩⟩
        · exact .inr ⟨benchmarks, rfl, .inr ⟨filled, first.mp wrong⟩⟩
      · rintro (⟨⟨⟩, -⟩ | ⟨_, ⟨⟩, ⟨blank, rfl⟩ | ⟨filled, wrong⟩⟩)
        · exact .empty present blank
        · exact .count present filled (first.mpr wrong)

end Documents

/-- Nothing is wrong with a document if none of the three checks finds anything. -/
theorem forall_not_fails_iff (anchors : Anchors) (root : Node) :
    (∀ cause, ¬Fails anchors root cause) ↔
      anchors.part? "benchmarks" root ≠ none ∧ ¬HasEmptyCommand anchors root ∧
        ∀ benchmark ∈ anchors.itemsAt "benchmarks" root, IsSound anchors benchmark := by
  simp only [isSound_iff]
  have first := exists_firstMiscounts_iff anchors (anchors.itemsAt "benchmarks" root)
  constructor
  · intro sound
    have present : anchors.part? "benchmarks" root ≠ none := fun absent => sound _ (.missing absent)
    have filled : ¬HasEmptyCommand anchors root := fun blank => sound _ (.empty present blank)
    refine ⟨present, filled, ?_⟩
    intro benchmark member cause miscounts
    obtain ⟨other, first⟩ := first.mpr ⟨benchmark, member, cause, miscounts⟩
    exact sound other (.count present filled first)
  · rintro ⟨present, filled, sound⟩ cause (absent | ⟨-, blank⟩ | ⟨-, -, found⟩)
    · exact present absent
    · exact filled blank
    · obtain ⟨benchmark, member, other, miscounts⟩ := first.mp ⟨cause, found⟩
      exact sound benchmark member other miscounts

end Descriptor

/-! ### Texts -/

/-- A text in which every node has an acceptable type fails for the reasons that its document gives,
in their order, and has a configuration if there are none. All of them are fatal. Counts do not
matter in a benchmark without a name; in one with a name they do, whether it has boards or not. -/
theorem ofYaml_fails_iff {text : String}
    (accepted : Config.ofYaml text ≠ .error .invalidDocument) :
    ∃ root?, document? text = some root? ∧
      let root := root?.getD .missing
      let anchors := Anchors.of root
      (∀ cause, Config.ofYaml text = .error cause ↔ Descriptor.Fails anchors root cause) ∧
      ((∃ config, Config.ofYaml text = .ok config) ↔
        anchors.part? "benchmarks" root ≠ none ∧ ¬Descriptor.HasEmptyCommand anchors root ∧
          ∀ benchmark ∈ anchors.itemsAt "benchmarks" root,
            Descriptor.IsSound anchors benchmark) ∧
      ∀ cause, Config.ofYaml text = .error cause → (Fault.config cause).isFatal = true := by
  cases found : document? text with
  | none =>
    rw [Config.ofYaml, Descriptor.ofYaml?, found] at accepted
    exact absurd rfl accepted
  | some root? =>
    refine ⟨root?, rfl, ?_⟩
    intro root anchors
    have same : Config.ofYaml text = Config.ofNode root := ofYaml_eq_ofNode found
    rw [same] at accepted ⊢
    rw [Config.ofNode] at accepted ⊢
    cases read : Descriptor.ofNode? root with
    | none =>
      rw [read] at accepted
      exact absurd rfl accepted
    | some descriptor =>
      obtain ⟨⟨descriptor, followed⟩, yields, rfl⟩ := Option.map_eq_some_iff.mp read
      have fails (cause : ConfigError) := Descriptor.fails_iff
        (Descriptor.isDocument_of_readRoot (Anchors.isGrounded_of root) ⟨0, followed, yields⟩) cause
      refine ⟨fun cause => (fails cause).symm, ?_, fun _ _ => rfl⟩
      rw [← Descriptor.forall_not_fails_iff]
      simp only [anchors, fails]
      cases descriptor.expand <;> simp

/-- A benchmark without a name, and one without boards, whose second count is one too great. -/
def miscountedText : String :=
  "\x7bbenchmarks: [\x7bname: ' ', iterations: x\x7d, " ++
    "\x7bname: ' sum ', scale_factor: '+18446744073709551615', " ++
    "iterations: ' 18446744073709551616 '\x7d]\x7d"

theorem miscountedText_fails : ∃ root, document? miscountedText = some (some root) ∧
    Descriptor.Fails (Anchors.of root) root
      (.badCount "sum" "iterations" " 18446744073709551616 ") := by
  have failed : Config.ofYaml miscountedText =
      .error (.badCount "sum" "iterations" " 18446744073709551616 ") := by
    decide +kernel
  have accepted : Config.ofYaml miscountedText ≠ .error .invalidDocument := by
    rw [failed]
    decide
  obtain ⟨root?, document, fails, -⟩ := ofYaml_fails_iff accepted
  have wrong := (fails _).mp failed
  cases root? with
  | some root => exact ⟨root, document, wrong⟩
  | none =>
    cases wrong with
    | count present => exact absurd rfl present

end BoardBench
