import BoardBench.Proofs.Config.Expansion
import BoardBench.Proofs.Config.Unfolding

/-!
# Leaving out what has no name

Main result: the configuration of a text lists the named boards of its document, and it stays the
same when aliases are replaced by what they stand for and a benchmark without a name, a board
without a name or a null board is taken out.

Proof strategy: everything but the list with the item is read as before. In the list the item is
read as something that has no entries.
-/
namespace BoardBench

open Yaml

/-! ### Changing a tree in one place -/

namespace Yaml.Node

/-- One item of a sequence is taken out. -/
inductive WithoutItem (unwanted : Node → Prop) : Node → Node → Prop
  | intro {tag : Option Bytes} {before after : List Node} {item : Node} : unwanted item →
    WithoutItem unwanted (.sequence none tag (before ++ item :: after))
      (.sequence none tag (before ++ after))

/-- One item of a sequence is changed. -/
inductive AtItem (changes : Node → Node → Prop) : Node → Node → Prop
  | intro {tag : Option Bytes} {before after : List Node} {item item' : Node} :
    changes item item' →
    AtItem changes (.sequence none tag (before ++ item :: after))
      (.sequence none tag (before ++ item' :: after))

/-- The value at one key of a mapping is changed. -/
inductive AtKey (name : String) (changes : Node → Node → Prop) : Node → Node → Prop
  | intro {tag keyTag : Option Bytes} {style : Style} {before after : List (Node × Node)}
      {value value' : Node} : changes value value' →
    AtKey name changes
      (.mapping none tag (before ++ (.scalar none keyTag style name, value) :: after))
      (.mapping none tag (before ++ (.scalar none keyTag style name, value') :: after))

/-- The node is what is left of itself, but for anchors: it has no aliases. -/
def IsTree (node : Node) : Prop :=
  ∀ anchors : Anchors, anchors.Mirrors node node

theorem mem_zip_self {α : Type} {item : α} {items : List α} (member : item ∈ items) :
    (item, item) ∈ items.zip items := by
  induction items with
  | nil => cases member
  | cons first rest ih =>
    rw [List.zip_cons_cons]
    rcases List.mem_cons.mp member with rfl | later
    · exact List.mem_cons_self
    · exact List.mem_cons_of_mem _ (ih later)

theorem IsTree.items {anchor : Option Nat} {tag : Option Bytes} {items : List Node}
    (isTree : IsTree (.sequence anchor tag items)) : ∀ item ∈ items, IsTree item := by
  intro item member anchors
  cases isTree anchors with
  | sequence stands lengths each =>
    cases stands
    exact each _ (mem_zip_self member)

theorem IsTree.entries {anchor : Option Nat} {tag : Option Bytes} {entries : List (Node × Node)}
    (isTree : IsTree (.mapping anchor tag entries)) :
    ∀ entry ∈ entries, IsTree entry.1 ∧ IsTree entry.2 := by
  intro entry member
  constructor
  · intro anchors
    cases isTree anchors with
    | mapping stands lengths keys values =>
      cases stands
      exact keys _ (mem_zip_self member)
  · intro anchors
    cases isTree anchors with
    | mapping stands lengths keys values =>
      cases stands
      exact values _ (mem_zip_self member)

end Yaml.Node

namespace Descriptor

open Read

variable {anchors : Anchors} {α β : Type}

/-- A benchmark that loses a null board or one without a name. -/
def LosesBoard (anchors : Anchors) : Node → Node → Prop :=
  Node.AtKey "boards" (Node.WithoutItem fun board =>
    anchors.isNull board = true ∨ anchors.nameAt? "board_name" board = none)

/-- A document that loses a benchmark without a name, or a board of one of its benchmarks. -/
inductive Prunes (anchors : Anchors) : Node → Node → Prop
  | benchmark {root root' : Node} :
    Node.AtKey "benchmarks"
      (Node.WithoutItem fun benchmark => anchors.nameAt? "name" benchmark = none) root root' →
    Prunes anchors root root'
  | board {root root' : Node} :
    Node.AtKey "benchmarks" (Node.AtItem (LosesBoard anchors)) root root' →
    Prunes anchors root root'

/-! ### Reading a changed tree -/

/-- Values that differ at one key only, and there by a change. -/
def ChangedAt (anchors : Anchors) (name : String) (changes : Node → Node → Prop) (key : String)
    (value value' : Node) : Prop :=
  value.IsTree ∧ (anchors.Mirrors value value' ∨ key = name ∧ changes value value')

theorem ChangedAt.mirrors {name key : String} {changes : Node → Node → Prop} {value value' : Node}
    (changed : ChangedAt anchors name changes key value value') (other : key ≠ name) :
    anchors.Mirrors value value' := by
  obtain ⟨-, mirrors | ⟨own, -⟩⟩ := changed
  · exact mirrors
  · exact absurd own other

theorem carries_atKey {name : String} {changes : Node → Node → Prop} {tree tree' : Node}
    (isTree : tree.IsTree) (changed : Node.AtKey name changes tree tree') :
    Carries (AreAlike (ChangedAt anchors name changes)) (readSection anchors tree) fun other =>
      readSection other tree' := by
  cases changed with
  | @intro tag keyTag style before after value value' changed =>
    have trees := isTree.entries
    apply carries_entries
    have same (entry : Node × Node) (member : entry ∈ before ++
        (.scalar none keyTag style name, value) :: after) :
        anchors.Mirrors entry.1 entry.1 ∧ ∀ key, anchors.text? entry.1 = some key →
          ChangedAt anchors name changes key entry.2 entry.2 :=
      ⟨(trees entry member).1 anchors, fun _ _ =>
        ⟨(trees entry member).2, .inl ((trees entry member).2 anchors)⟩⟩
    refine List.rel_append (List.forall₂_same.mpr fun entry member => same entry (by simp [member]))
      (.cons ⟨.scalar rfl, ?_⟩
        (List.forall₂_same.mpr fun entry member => same entry (by simp [member])))
    intro key text
    cases text
    exact ⟨(trees (.scalar none keyTag style name, value) (by simp)).2, .inr ⟨rfl, changed⟩⟩

theorem carries_trees {same : α → β → Prop} {field : Field α} {field' : Anchors → Field β}
    (carries : ∀ item : Node, item.IsTree →
      Carries same (field item) fun other => field' other item)
    {items : List Node} (trees : ∀ item ∈ items, item.IsTree) :
    Carries (List.Forall₂ same) (items.mapM field) fun other => items.mapM (field' other) := by
  have pairs : List.Forall₂ (fun item other => item = other ∧ item.IsTree) items items :=
    List.forall₂_same.mpr fun item member => ⟨rfl, trees item member⟩
  refine carries_mapM pairs ?_
  rintro item _ ⟨rfl, isTree⟩
  exact carries item isTree

/-- What is read of the items around one that is taken out, and of that one. -/
theorem carries_withoutItem {same : α → β → Prop} {field : Field α} {field' : Anchors → Field β}
    {unwanted : Node → Prop} {tree tree' : Node} (isTree : tree.IsTree)
    (changed : Node.WithoutItem unwanted tree tree')
    (carries : ∀ item : Node, item.IsTree →
      Carries same (field item) fun other => field' other item) :
    Carries (fun all others => ∃ item front own back front' back', unwanted item ∧
        Yields (field item) own ∧ all = front ++ own :: back ∧ others = front' ++ back' ∧
        List.Forall₂ same front front' ∧ List.Forall₂ same back back')
      (readList anchors field tree) fun other => readList other (field' other) tree' := by
  cases changed with
  | @intro tag before after item removed =>
    intro results yields
    have trees := isTree.items
    have listed : Yields ((before ++ item :: after).mapM field) results := yields
    rw [List.mapM_append] at listed
    obtain ⟨front, first, more⟩ := listed.of_bind
    obtain ⟨rest, second, ended⟩ := more.of_bind
    rw [List.mapM_cons] at second
    obtain ⟨own, here, second⟩ := second.of_bind
    obtain ⟨back, last, ended'⟩ := second.of_bind
    cases yields_pure.mp ended
    cases yields_pure.mp ended'
    obtain ⟨front', same, settles⟩ :=
      carries_trees carries (fun item member => trees item (by simp [member])) front first
    obtain ⟨back', same', settles'⟩ :=
      carries_trees carries (fun item member => trees item (by simp [member])) back last
    have both : Settles (fun other => (before ++ after).mapM (field' other)) (front' ++ back') := by
      simp only [List.mapM_append]
      exact settles.bind (settles'.bind (settles_pure _))
    exact ⟨_, ⟨item, front, own, back, front', back', removed, here, rfl, rfl, same, same'⟩, both⟩

theorem carries_atItem {same : α → β → Prop} {field : Field α} {field' : Anchors → Field β}
    {changes : Node → Node → Prop} {tree tree' : Node} (isTree : tree.IsTree)
    (changed : Node.AtItem changes tree tree')
    (carries : ∀ item : Node, item.IsTree →
      Carries same (field item) fun other => field' other item)
    (carries' : ∀ item item' : Node, item.IsTree → changes item item' →
      Carries same (field item) fun other => field' other item') :
    Carries (List.Forall₂ same) (readList anchors field tree) fun other =>
      readList other (field' other) tree' := by
  cases changed with
  | @intro tag before after item item' changed =>
    have trees := isTree.items
    have pairs : List.Forall₂ (fun item other => Carries same (field item) fun anchors =>
        field' anchors other) (before ++ item :: after) (before ++ item' :: after) :=
      List.rel_append
        (List.forall₂_same.mpr fun item member => carries item (trees item (by simp [member])))
        (.cons (carries' item item' (trees item (by simp)) changed)
          (List.forall₂_same.mpr fun item member => carries item (trees item (by simp [member]))))
    exact carries_mapM pairs fun _ _ here => here

/-! ### What has no name has no entries -/

/-- A board that is null or has no name leaves no entry behind. -/
theorem sameBoards_without (grounded : anchors.IsGrounded) {node : Node} {own : Option Board}
    (yields : Yields (readOptional anchors (readBoard anchors) node) own)
    (unwanted : anchors.isNull node = true ∨ anchors.nameAt? "board_name" node = none)
    (front back : List (Option Board)) : SameBoards (front ++ own :: back) (front ++ back) := by
  intro entry
  rcases of_readOptional yields with ⟨-, rfl⟩ | ⟨visible, board, rfl, here⟩
  · simp
  · have isBoard := (isBoard_of_readBoard grounded here).of_target grounded
    have unnamed := unwanted.resolve_left (by simp [visible])
    have none : nonBlank? board.name? = none := unnamed ▸ isBoard.name ▸ rfl
    have nothing : Board.expand? entry board = Option.none := by
      rw [Board.expand?, none, Option.map_none]
    simp [nothing]

theorem expand_of_unnamed {node : Node} {benchmark : Benchmark}
    (isBenchmark : IsBenchmark anchors node benchmark)
    (unnamed : anchors.nameAt? "name" node = none) : benchmark.expand = .ok [] := by
  have none : nonBlank? benchmark.name? = none := unnamed ▸ isBenchmark.name ▸ rfl
  rw [Benchmark.expand, none]

theorem expandAll_without {front back : List Benchmark} {own : Benchmark}
    (nothing : own.expand = .ok []) :
    expandAll (front ++ own :: back) = expandAll (front ++ back) := by
  induction front with
  | nil =>
    rw [List.nil_append, List.nil_append, expandAll, nothing]
    cases expandAll back <;> rfl
  | cons first rest ih => rw [List.cons_append, List.cons_append, expandAll, expandAll, ih]

/-! ### Documents that lose something -/

section Prunes

variable (grounded : anchors.IsGrounded) {tree tree' : Node} (isTree : tree.IsTree)
include grounded isTree

theorem carries_losesBoard (changed : LosesBoard anchors tree tree') :
    Carries (fun benchmark other => benchmark.expand = other.expand) (readBenchmark anchors tree)
      fun other => readBenchmark other tree' := by
  refine carries_readBenchmark (carries_atKey isTree changed)
    (fun _ _ _ other changed => changed.mirrors other) ?_
  rintro child child' ⟨isTree, mirrors | ⟨-, without⟩⟩
  · exact carries_readBoards mirrors
  · have listed : Carries _ (readList anchors (readOptional anchors (readBoard anchors)) child)
        fun other => readList other (readOptional other (readBoard other)) child' :=
      carries_withoutItem isTree without fun item isTree =>
        steady_readBoard.readOptional item item (isTree anchors)
    have same : Carries SameBoards
        (readList anchors (readOptional anchors (readBoard anchors)) child)
        fun other => readList other (readOptional other (readBoard other)) child' := by
      refine listed.mono ?_
      rintro _ _ ⟨item, front, own, back, front', back', unwanted, yields, rfl, rfl, same, same'⟩
      rw [List.forall₂_eq_eq_eq] at same same'
      subst same same'
      exact sameBoards_without grounded yields unwanted front back
    cases without
    exact carries_present same

theorem carries_prunes (changed : Prunes anchors tree tree') :
    Carries (fun descriptor other => descriptor.expand = other.expand) (readRoot anchors tree)
      fun other => readRoot other tree' := by
  cases changed with
  | benchmark changed =>
    refine carries_readRoot (carries_atKey isTree changed)
      (fun _ _ _ other changed => changed.mirrors other) ?_
    rintro child child' ⟨isTree, mirrors | ⟨-, without⟩⟩
    · exact carries_readBenchmarks mirrors
    · have listed : Carries _ (readList anchors (readBenchmark anchors) child)
          fun other => readList other (readBenchmark other) child' :=
        carries_withoutItem isTree without fun item isTree =>
          carries_readBenchmark_of_mirrors item item (isTree anchors)
      have same : Carries (fun all others => expandAll all = expandAll others)
          (readList anchors (readBenchmark anchors) child)
          fun other => readList other (readBenchmark other) child' := by
        refine listed.mono ?_
        rintro _ _ ⟨item, front, own, back, front', back', unnamed, yields, rfl, rfl, same, same'⟩
        rw [expandAll_without
          (expand_of_unnamed (isBenchmark_of_readBenchmark grounded yields) unnamed)]
        exact expandAll_congr (List.rel_append same same')
      cases without
      exact carries_present same
  | board changed =>
    refine carries_readRoot (carries_atKey isTree changed)
      (fun _ _ _ other changed => changed.mirrors other) ?_
    rintro child child' ⟨isTree, mirrors | ⟨-, atItem⟩⟩
    · exact carries_readBenchmarks mirrors
    · have listed : Carries _ (readList anchors (readBenchmark anchors) child)
          fun other => readList other (readBenchmark other) child' :=
        carries_atItem isTree atItem
          (fun item isTree => carries_readBenchmark_of_mirrors item item (isTree anchors))
          (fun item item' isTree loses => carries_losesBoard grounded isTree loses)
      have present := carries_present (listed.mono fun _ _ => expandAll_congr)
      cases atItem
      exact present

end Prunes

end Descriptor

/-! ### Configurations -/

/-- What carries over from one document to another one keeps the configuration, or the error that
the document fails with if all its nodes have acceptable types. -/
theorem ofNode_eq_of_carries {root tree : Node}
    (carries : Read.Carries (fun descriptor other => descriptor.expand = other.expand)
      (Descriptor.readRoot (Anchors.of root) root) fun other => Descriptor.readRoot other tree)
    (accepted : Config.ofNode root ≠ .error .invalidDocument) :
    Config.ofNode tree = Config.ofNode root := by
  rw [Config.ofNode] at accepted ⊢
  rw [Config.ofNode]
  cases found : Descriptor.ofNode? root with
  | none =>
    rw [found] at accepted
    exact absurd rfl accepted
  | some descriptor =>
    obtain ⟨⟨descriptor, followed⟩, read, rfl⟩ := Option.map_eq_some_iff.mp found
    obtain ⟨other, same, settles⟩ := carries descriptor ⟨0, followed, read⟩
    have found' : Descriptor.ofNode? tree = some other :=
      congrArg (Option.map Prod.fst) (settles (Anchors.of tree) 0)
    rw [found']
    exact same.symm

theorem ofNode_of_carries {root tree : Node} {config : Config}
    (carries : Read.Carries (fun descriptor other => descriptor.expand = other.expand)
      (Descriptor.readRoot (Anchors.of root) root) fun other => Descriptor.readRoot other tree)
    (loaded : Config.ofNode root = .ok config) : Config.ofNode tree = .ok config :=
  (ofNode_eq_of_carries carries (by simp [loaded])).trans loaded

theorem ofYaml_of_document {text : String} {root : Node}
    (found : document? text = some (some root)) : Config.ofYaml text = Config.ofNode root :=
  ofYaml_eq_ofNode found

/-- The configuration of a text has one entry for each named board of the document, in order. It is
also that of the document with its aliases replaced, and that of each document that is left of this
one when a benchmark without a name, a board without a name or a null board is taken out. Where
there are no aliases only the anchors are lost. -/
theorem ofYaml_lists_named {text : String} {config : Config}
    (loaded : Config.ofYaml text = .ok config) :
    ∃ root, document? text = some (some root) ∧
      List.Forall₂ (Descriptor.IsEntryOf (Anchors.of root))
        (Descriptor.namedBoards (Anchors.of root) root) config.benchmarks ∧
      (root.hasNoAlias = true → (Anchors.of root).Unfolds root root.bare) ∧
      ∀ tree, (Anchors.of root).Unfolds root tree → Config.ofNode tree = .ok config ∧
        ∀ tree', Descriptor.Prunes (Anchors.of tree) tree tree' →
          Config.ofNode tree' = .ok config ∧
            ∀ other, document? other = some (some tree') → Config.ofYaml other = .ok config := by
  obtain ⟨root, found, loaded⟩ := exists_root_of_ofYaml loaded
  refine ⟨root, found, forall₂_namedBoards loaded, root.unfolds_bare _, ?_⟩
  intro tree unfolds
  have unfolded := ofNode_of_carries (Descriptor.carries_readRoot_of_mirrors unfolds.mirrors) loaded
  refine ⟨unfolded, ?_⟩
  intro tree' prunes
  have pruned := ofNode_of_carries
    (Descriptor.carries_prunes (Anchors.isGrounded_of tree)
      (fun other => (unfolds.self other).mirrors) prunes) unfolded
  refine ⟨pruned, ?_⟩
  intro other found'
  rw [ofYaml_of_document found', pruned]

def pairedText : String :=
  "\x7bbenchmarks: [\x7bname: ' sum ', boards: [~, \x7bboard_name: native, " ++
    "supported_environments: [wasm]\x7d]\x7d, \x7bboards: [~]\x7d]\x7d"

def pairedConfig : Config where
  benchmarks :=
    [{ name := "sum", filename := "sum", scaleFactor := 1, iterations := 1, board := "native"
       environments := [{ name := "wasm" }] }]
  commands := { build := ["make", "all"], flash := ["make", "flash"], run := ["make", "term"] }

theorem pairedText_lists : ∃ root nodes, document? pairedText = some (some root) ∧
    Descriptor.namedBoards (Anchors.of root) root = [nodes] ∧
    Descriptor.IsEntryOf (Anchors.of root) nodes pairedConfig.benchmarks[0] := by
  have found : (Config.ofYaml pairedText).toOption = some pairedConfig := by decide +kernel
  have loaded : Config.ofYaml pairedText = .ok pairedConfig := by
    cases read : Config.ofYaml pairedText with
    | error fault =>
      rw [read] at found
      cases found
    | ok config =>
      rw [read] at found
      exact congrArg Except.ok (Option.some.inj found)
  obtain ⟨root, document, listed, -⟩ := ofYaml_lists_named loaded
  obtain ⟨nodes, rest, entry, none, split⟩ := List.forall₂_cons_right_iff.mp listed
  rw [List.forall₂_nil_right_iff] at none
  exact ⟨root, nodes, document, by rw [split, none], entry⟩

end BoardBench
