import BoardBench.Proofs.Config.Shorthands
import BoardBench.Proofs.Yaml.Lexing
import Mathlib.Logic.Relation

/-!
# Rewriting documents

Main result: a document keeps its configuration, or the error that it fails with, when short forms
are replaced by long ones and names are padded with blanks, at any places and in any number.

Proof strategy: one replacement at a time. The part that it is made in is read as something that
expands to the same, and this goes up from one section to the next.
-/
namespace BoardBench

open Yaml

namespace Descriptor

open Read
open Node (ChangesItem ChangesPart ChangesSection)

/-! ### Replacements -/

/-- The change of what stands at a key. -/
inductive Within (changes : Node → Node → Prop) : Option Node → Option Node → Prop
  | intro {node node' : Node} : changes node node' → Within changes (some node) (some node')

/-- How what stands at a key of a board is replaced. -/
def BoardChanges : String → Option Node → Option Node → Prop
  | "board_name" => PadsName
  | "supported_environments" => Within (ChangesItem RewritesEnvironment)
  | _ => fun _ _ => False

def RewritesBoard (board board' : Node) : Prop :=
  ∃ part, ChangesPart part (BoardChanges part) board board'

/-- How what stands at a key of a benchmark is replaced. The filename depends on the name. -/
def BenchmarkChanges (benchmark : Node) : String → Option Node → Option Node → Prop
  | "name" => PadsName
  | "filename" => FillsFilename ((Anchors.of benchmark).textAt? "name" benchmark)
  | "scale_factor" => RewritesCount
  | "iterations" => RewritesCount
  | "boards" => Within (ChangesItem RewritesBoard)
  | _ => fun _ _ => False

def RewritesBenchmark (benchmark : Node) : Node → Prop :=
  ChangesSection (BenchmarkChanges benchmark) benchmark

/-- How what stands at the key of a phase is replaced. -/
def CommandsChanges : String → Option Node → Option Node → Prop
  | "build" => RewritesCommand defaultBuild
  | "flash" => RewritesCommand defaultFlash
  | "run" => RewritesCommand defaultRun
  | _ => fun _ _ => False

/-- A section of commands is made where there is none, or one of its commands is replaced. -/
inductive RewritesCommands : Option Node → Option Node → Prop
  | absent {anchor : Option Nat} {tag : Option Bytes} :
    RewritesCommands none (some (.mapping anchor tag []))
  | present {node node' : Node} : ChangesSection CommandsChanges node node' →
    RewritesCommands (some node) (some node')

def RootChanges : String → Option Node → Option Node → Prop
  | "benchmarks" => Within (ChangesItem RewritesBenchmark)
  | "commands" => RewritesCommands
  | _ => fun _ _ => False

/-- A document without aliases. -/
abbrev Tree :=
  { root : Node // root.hasNoAlias = true }

/-- One part of the document is replaced by another form of it. -/
def Rewrites (tree tree' : Tree) : Prop :=
  ChangesSection RootChanges tree.val tree'.val

/-! ### Boards -/

variable {node node' : Node} {child? child?' : Option Node}

theorem Within.corresponds_readList {α : Type} (same : α → α → Prop) {field : Anchors → Field α}
    {changes : Node → Node → Prop} (steady : ∀ {anchors}, Steady anchors field)
    (reflexive : ∀ value, same value value)
    (changed : ∀ item item', changes item item' → item.IsTree → item'.IsTree →
      Corresponds same (fun anchors => field anchors item) fun anchors => field anchors item')
    (within : Within (ChangesItem changes) child? child?') (trees : AreTrees child?)
    (trees' : AreTrees child?') :
    Corresponds (Option.Rel (List.Forall₂ same))
      (fun anchors => readPart anchors (readList anchors (field anchors)) child?)
      fun anchors => readPart anchors (readList anchors (field anchors)) child?' := by
  cases within with
  | intro changesItem =>
    exact Descriptor.corresponds_readList same steady reflexive changed changesItem (trees _ rfl)
      (trees' _ rfl)

/-- The boards have the same name and the same environments. -/
def SameBoard (board other : Board) : Prop :=
  nonBlank? board.name? = nonBlank? other.name? ∧
    board.environments.map Environment.expand = other.environments.map Environment.expand

def SameEnvironments (environments? others? : Option (List Environment)) : Prop :=
  (environments?.getD []).map Environment.expand = (others?.getD []).map Environment.expand

theorem corresponds_readBoard (isTree : node.IsTree) (isTree' : node'.IsTree)
    (rewrites : RewritesBoard node node') :
    Corresponds SameBoard (fun anchors => readBoard anchors node) fun anchors =>
      readBoard anchors node' := by
  obtain ⟨part, changesPart⟩ := rewrites
  have environments (child? child?' : Option Node)
      (within : Within (ChangesItem RewritesEnvironment) child? child?') (trees : AreTrees child?)
      (trees' : AreTrees child?') :
      Corresponds SameEnvironments
        (fun anchors => readPart anchors
          (readList anchors (readFormed anchors (depthLimit - 6) environmentOf?)) child?)
        fun anchors => readPart anchors
          (readList anchors (readFormed anchors (depthLimit - 6) environmentOf?)) child?' := by
    refine (within.corresponds_readList SameEnvironment (steady_readFormed _ _) (fun _ => rfl)
      (fun _ _ rewrites isTree _ => corresponds_rewritesEnvironment _ isTree rewrites)
      trees trees').mono ?_
    intro environments? others? same
    cases same with
    | none => rfl
    | @some environments others same =>
      have expanded : List.Forall₂ (· = ·) (environments.map Environment.expand)
          (others.map Environment.expand) :=
        List.forall₂_map_left_iff.mpr (List.forall₂_map_right_iff.mpr same)
      rwa [List.forall₂_eq_eq_eq] at expanded
  refine (corresponds_changesPart isTree isTree' changesPart).bind ?_
  intro entries entries' matched _ _
  refine (corresponds_readField "board_name" SameName matched steady_readText (fun _ => rfl)
    fun _ _ pads _ _ => corresponds_padsName pads).bind ?_
  intro name? name?' named _ _
  refine (corresponds_readField "supported_environments" SameEnvironments matched
    (steady_readFormed _ _).readList (fun _ => rfl) environments).bind ?_
  intro environments? environments?' same _ _
  exact corresponds_pure ⟨named, same⟩

/-- Both boards are null, or neither is and they are the same. -/
theorem sameBoards_of_forall₂ {boards others : List (Option Board)}
    (same : List.Forall₂ (Option.Rel SameBoard) boards others) : SameBoards boards others := by
  intro entry
  induction same with
  | nil => rfl
  | cons here _ ih =>
    cases here with
    | none => exact ih
    | @some board other here =>
      have expanded : Board.expand? entry board = Board.expand? entry other := by
        rw [Board.expand?, Board.expand?, here.1, here.2]
      change (board :: List.filterMap id _).filterMap _ = (other :: List.filterMap id _).filterMap _
      rw [List.filterMap_cons, List.filterMap_cons, expanded, ih]

/-! ### Benchmarks -/

def SameListed (boards? others? : Option (List (Option Board))) : Prop :=
  SameBoards (boards?.getD []) (others?.getD [])

theorem corresponds_boards (within : Within (ChangesItem RewritesBoard) child? child?')
    (trees : AreTrees child?) (trees' : AreTrees child?') :
    Corresponds SameListed
      (fun anchors => readPart anchors
        (readList anchors (readOptional anchors (readBoard anchors))) child?)
      fun anchors => readPart anchors
        (readList anchors (readOptional anchors (readBoard anchors))) child?' := by
  have board (item item' : Node) (rewrites : RewritesBoard item item') (isTree : item.IsTree)
      (isTree' : item'.IsTree) :
      Corresponds (Option.Rel SameBoard)
        (fun anchors => readOptional anchors (readBoard anchors) item)
        fun anchors => readOptional anchors (readBoard anchors) item' := by
    have present := corresponds_present (corresponds_readBoard isTree isTree' rewrites)
    obtain ⟨part, changesPart⟩ := rewrites
    cases changesPart
    exact present
  have reflexive (board? : Option Board) : Option.Rel SameBoard board? board? := by
    cases board? with
    | none => exact .none
    | some board => exact .some ⟨rfl, rfl⟩
  refine (within.corresponds_readList (Option.Rel SameBoard) steady_readBoard.readOptional
    reflexive board trees trees').mono ?_
  intro boards? others? same
  cases same with
  | none => exact fun _ => rfl
  | some same => exact sameBoards_of_forall₂ same

theorem corresponds_readBenchmark (isTree : node.IsTree) (isTree' : node'.IsTree)
    (rewrites : RewritesBenchmark node node') :
    Corresponds (fun benchmark other => benchmark.expand = other.expand)
      (fun anchors => readBenchmark anchors node) fun anchors => readBenchmark anchors node' := by
  refine (corresponds_readSection isTree isTree' rewrites).bind ?_
  intro entries entries' matched opened _
  refine (corresponds_readField "name" SameName matched steady_readText (fun _ => rfl)
    fun _ _ pads _ _ => corresponds_padsName pads).bind ?_
  intro name? name?' named written _
  -- The filename may become the name that stands in the same section.
  have stands : (Anchors.of node).textAt? "name" node = name? :=
    textAt?_of_readField (Anchors.isGrounded_of node) (opened.yields _) (written.yields _)
  refine (corresponds_readField "filename" (SameFile name?) matched steady_readText
    (fun _ _ _ => rfl) fun _ _ fills _ _ => corresponds_fillsFilename (stands ▸ fills)).bind ?_
  intro filename? filename?' filed _ _
  refine (corresponds_readField "scale_factor" SameCount matched (steady_readFormed _ _)
    (fun _ _ _ => rfl) fun _ _ rewrites _ _ => corresponds_rewritesCount _ rewrites).bind ?_
  intro scaleFactor? scaleFactor?' scaled _ _
  refine (corresponds_readField "iterations" SameCount matched (steady_readFormed _ _)
    (fun _ _ _ => rfl) fun _ _ rewrites _ _ => corresponds_rewritesCount _ rewrites).bind ?_
  intro iterations? iterations?' iterated _ _
  refine (corresponds_readField "boards" SameListed matched steady_readBoard.readOptional.readList
    (fun _ _ => rfl) fun _ _ within => corresponds_boards within).bind ?_
  intro boards? boards?' listed _ _
  exact corresponds_pure (expand_congr named filed scaled iterated listed)

/-! ### Commands and documents -/

def SameCommands (commands other : Commands) : Prop :=
  commands.phases = other.phases

theorem corresponds_readCommands (isTree : node.IsTree) (isTree' : node'.IsTree)
    (changes : ChangesSection CommandsChanges node node') :
    Corresponds SameCommands (fun anchors => readCommands anchors node) fun anchors =>
      readCommands anchors node' := by
  refine (corresponds_readSection isTree isTree' changes).bind ?_
  intro entries entries' matched _ _
  refine (corresponds_readField "build" (SameCommand defaultBuild) matched (steady_readFormed _ _)
    (fun _ => rfl) fun _ _ rewrites _ _ => corresponds_rewritesCommand _ rewrites).bind ?_
  intro build? build?' built _ _
  refine (corresponds_readField "flash" (SameCommand defaultFlash) matched (steady_readFormed _ _)
    (fun _ => rfl) fun _ _ rewrites _ _ => corresponds_rewritesCommand _ rewrites).bind ?_
  intro flash? flash?' flashed _ _
  refine (corresponds_readField "run" (SameCommand defaultRun) matched (steady_readFormed _ _)
    (fun _ => rfl) fun _ _ rewrites _ _ => corresponds_rewritesCommand _ rewrites).bind ?_
  intro run? run?' ran _ _
  refine corresponds_pure ?_
  rw [SameCommands, Commands.phases, Commands.phases, built, flashed, ran]

/-- The benchmarks have the same entries, or the same is wrong with them. -/
def SameBenchmarks (benchmarks? others? : Option (List Benchmark)) : Prop :=
  Option.Rel (fun all others => expandAll all = expandAll others) benchmarks? others?

theorem corresponds_benchmarks (within : Within (ChangesItem RewritesBenchmark) child? child?')
    (trees : AreTrees child?) (trees' : AreTrees child?') :
    Corresponds SameBenchmarks
      (fun anchors => readPart anchors (readList anchors (readBenchmark anchors)) child?)
      fun anchors => readPart anchors (readList anchors (readBenchmark anchors)) child?' := by
  refine (within.corresponds_readList (fun benchmark other => benchmark.expand = other.expand)
    steady_readBenchmark (fun _ => rfl)
    (fun _ _ rewrites isTree isTree' => corresponds_readBenchmark isTree isTree' rewrites) trees
    trees').mono ?_
  intro benchmarks? others? same
  cases same with
  | none => exact .none
  | some same => exact .some (expandAll_congr same)

/-- Reads a section of commands, if there is one. -/
def readCommandsPart (anchors : Anchors) : Option Node → Read Commands
  | none => pure {}
  | some child => readCommands anchors child

theorem readRoot_eq (anchors : Anchors) (node : Node) :
    readRoot anchors node = do
      let entries ← readSection anchors node
      let benchmarks? ←
        readField anchors "benchmarks" (readList anchors (readBenchmark anchors)) entries
      let child? ← unique "commands" entries
      let commands ← readCommandsPart anchors child?
      return { benchmarks?, commands } := by
  unfold readRoot
  refine bind_congr fun entries => bind_congr fun benchmarks? => bind_congr fun child? => ?_
  cases child? <;> rfl

theorem corresponds_commands (part : StaysOr RootChanges "commands" child? child?') :
    Corresponds SameCommands (fun anchors => readCommandsPart anchors child?) fun anchors =>
      readCommandsPart anchors child?' := by
  cases part with
  | stays trees =>
    cases child? with
    | none => exact corresponds_pure rfl
    | some child =>
      refine (corresponds_tree steady_readCommands (trees child rfl)).mono ?_
      rintro commands _ rfl
      rfl
  | changes rewrites trees trees' =>
    have rewrites : RewritesCommands child? child?' := rewrites
    cases rewrites with
    -- An empty section has no commands, as one that is not there.
    | absent => exact .settle rfl (fun _ _ => rfl) fun _ _ => rfl
    | present changes =>
      exact corresponds_readCommands (trees _ rfl) (trees' _ rfl) changes

theorem corresponds_readRoot (isTree : node.IsTree) (isTree' : node'.IsTree)
    (changes : ChangesSection RootChanges node node') :
    Corresponds (fun descriptor other => descriptor.expand = other.expand)
      (fun anchors => readRoot anchors node) fun anchors => readRoot anchors node' := by
  simp only [readRoot_eq]
  refine (corresponds_readSection isTree isTree' changes).bind ?_
  intro entries entries' matched _ _
  have reflexive (benchmarks? : Option (List Benchmark)) :
      SameBenchmarks benchmarks? benchmarks? := by
    cases benchmarks? with
    | none => exact .none
    | some benchmarks => exact .some rfl
  refine (corresponds_readField "benchmarks" SameBenchmarks matched steady_readBenchmark.readList
    reflexive fun _ _ within => corresponds_benchmarks within).bind ?_
  intro benchmarks? benchmarks?' same _ _
  refine (matched "commands").bind ?_
  intro child? child?' part _ _
  refine (corresponds_commands part).bind ?_
  intro commands commands' phased _ _
  refine corresponds_pure ?_
  rw [SameCommands] at phased
  cases same with
  | none => rfl
  | some same => simp only [Descriptor.expand, phased, same]

end Descriptor

/-! ### Configurations -/

theorem ofNode_of_rewrites {tree tree' : Descriptor.Tree}
    (rewrites : Descriptor.Rewrites tree tree') :
    Config.ofNode tree'.val = Config.ofNode tree.val := by
  have corresponds := Descriptor.corresponds_readRoot
    (tree.val.isTree_of_hasNoAlias tree.property) (tree'.val.isTree_of_hasNoAlias tree'.property)
    rewrites
  cases corresponds with
  | refuse refuses refuses' =>
    have none : Descriptor.ofNode? tree.val = none :=
      congrArg (Option.map Prod.fst) (refuses (Anchors.of tree.val) 0)
    have none' : Descriptor.ofNode? tree'.val = Option.none :=
      congrArg (Option.map Prod.fst) (refuses' (Anchors.of tree'.val) 0)
    rw [Config.ofNode, Config.ofNode, none, none']
  | @settle descriptor descriptor' same settles settles' =>
    have found : Descriptor.ofNode? tree.val = some descriptor :=
      congrArg (Option.map Prod.fst) (settles (Anchors.of tree.val) 0)
    have found' : Descriptor.ofNode? tree'.val = some descriptor' :=
      congrArg (Option.map Prod.fst) (settles' (Anchors.of tree'.val) 0)
    rw [Config.ofNode, Config.ofNode, found, found']
    exact same.symm

/-- The tree of a text. That of an empty text is an empty scalar. -/
def rootOf? (text : String) : Option Node :=
  (document? text).map fun root? => root?.getD .missing

theorem ofYaml_of_rootOf? {text : String} {root : Node} (found : rootOf? text = some root) :
    Config.ofYaml text = Config.ofNode root := by
  obtain ⟨root?, document, rfl⟩ := Option.map_eq_some_iff.mp found
  exact ofYaml_eq_ofNode document

/-- However often parts of a document are replaced by other forms of them, the configuration stays
the same, or the error that the document fails with. A document with aliases stands for the tree
that is left when they are replaced, as long as it is not refused for their number. -/
theorem ofYaml_of_rewritten {tree tree' : Descriptor.Tree}
    (rewritten : Relation.ReflTransGen Descriptor.Rewrites tree tree') :
    Config.ofNode tree'.val = Config.ofNode tree.val ∧
      ∀ text text' root root', rootOf? text = some root → rootOf? text' = some root' →
        (root = tree.val → root' = tree'.val → Config.ofYaml text' = Config.ofYaml text) ∧
        ((Anchors.of root).Unfolds root tree.val → (Anchors.of root').Unfolds root' tree'.val →
          Config.ofYaml text ≠ .error .invalidDocument →
          Config.ofYaml text' ≠ .error .invalidDocument →
            Config.ofYaml text' = Config.ofYaml text) := by
  have same : Config.ofNode tree'.val = Config.ofNode tree.val := by
    induction rewritten with
    | refl => rfl
    | tail _ rewrites ih => rw [ofNode_of_rewrites rewrites, ih]
  refine ⟨same, ?_⟩
  intro text text' root root' found found'
  rw [ofYaml_of_rootOf? found, ofYaml_of_rootOf? found']
  constructor
  · rintro rfl rfl
    exact same
  · -- A document that is not refused is read as the tree that it stands for.
    intro unfolds unfolds' accepted accepted'
    rw [← ofNode_eq_of_carries (Descriptor.carries_readRoot_of_mirrors unfolds.mirrors) accepted,
      ← ofNode_eq_of_carries (Descriptor.carries_readRoot_of_mirrors unfolds'.mirrors) accepted',
      same]

/-! ### A document in two forms -/

/-- A document with one benchmark on one board. -/
def sketch (counts : List (Node × Node)) (environment : Node) : Node :=
  let text := Spelling.quoted.ofText
  let board : Node := .mapping none none
    [(text "board_name", text "native"),
      (text "supported_environments", .sequence none none [environment])]
  let benchmark : Node := .mapping none none
    ((text "name", text "sum") :: (text "boards", .sequence none none [board]) :: counts)
  .mapping none none [(text "benchmarks", .sequence none none [benchmark])]

def shortSketch : Descriptor.Tree :=
  ⟨sketch [] (Spelling.quoted.ofText "wasm"), rfl⟩

def countedSketch : Descriptor.Tree :=
  ⟨sketch [(Spelling.quoted.ofText "iterations", .scalar none none .plain "1")]
    (Spelling.quoted.ofText "wasm"), rfl⟩

def longSketch : Descriptor.Tree :=
  ⟨sketch [(Spelling.quoted.ofText "iterations", .scalar none none .plain "1")]
    (Spelling.quoted.ofFields [("name", Spelling.quoted.ofText "wasm")]), rfl⟩

def sketchConfig : Config where
  benchmarks :=
    [{ name := "sum", filename := "sum", scaleFactor := 1, iterations := 1, board := "native"
       environments := [{ name := "wasm" }] }]
  commands := { build := ["make", "all"], flash := ["make", "flash"], run := ["make", "term"] }

theorem rewrites_counted : Descriptor.Rewrites shortSketch countedSketch := by
  refine .part "benchmarks" (.replace [] [] rfl (.intro (.intro [] [] (.part "iterations" ?_))))
  exact .insert [_, _] [] rfl (.absent .missing (.intro rfl)) (by decide)

theorem rewrites_long : Descriptor.Rewrites countedSketch longSketch := by
  refine .part "benchmarks" (.replace [] [] rfl (.intro (.intro [] [] (.part "boards" ?_))))
  refine .replace [_] [_] rfl (.intro (.intro [] [] ⟨"supported_environments", ?_⟩))
  refine .replace [_] [] rfl (.intro (.intro [] [] ?_))
  exact .named (.intro rfl) rfl (.intro rfl) (.intro rfl)

theorem rootOf?_sketch {counts : List (Node × Node)} {environment : Node}
    (flow : (sketch counts environment).isFlow = true) :
    rootOf? (sketch counts environment).written = some (sketch counts environment) := by
  have document : document? (sketch counts environment).written =
      some (some (sketch counts environment)) := document?_written flow
  rw [rootOf?, document, Option.map_some, Option.getD_some]

theorem longSketch_rewritten :
    Config.ofYaml longSketch.val.written = Config.ofYaml shortSketch.val.written ∧
      Config.ofNode longSketch.val = .ok sketchConfig := by
  have short : rootOf? shortSketch.val.written = some shortSketch.val :=
    rootOf?_sketch (by decide)
  have long : rootOf? longSketch.val.written = some longSketch.val :=
    rootOf?_sketch (by decide)
  obtain ⟨same, texts⟩ :=
    ofYaml_of_rewritten ((Relation.ReflTransGen.single rewrites_counted).tail rewrites_long)
  have loaded : Config.ofNode shortSketch.val = .ok sketchConfig := by decide +kernel
  exact ⟨(texts _ _ _ _ short long).1 rfl rfl, same.trans loaded⟩

end BoardBench
