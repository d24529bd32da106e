import BoardBench.Proofs.Config.Pruning

/-!
# Readings that correspond

Where there are no aliases, a reading ends in the same way whatever anchors there are. Two of them
correspond if both fail, or both settle for results that are related.

Main result: readings of two trees that differ at one place only correspond, if what is read at that
place does.

Proof strategy: the readers are put together in a few ways, and each way keeps correspondence. In a
section the place is a key that may be absent on either side, so sections are compared key by key
and not entry by entry.
-/
namespace BoardBench

open Yaml

/-! ### Correspondence -/

namespace Yaml.Read

variable {α β γ δ : Type}

/-- The reading fails with any anchors. -/
def Refuses (read : Anchors → Read α) : Prop :=
  ∀ anchors followed, read anchors followed = none

theorem Refuses.bind {first : Anchors → Read α} {next : Anchors → α → Read β}
    (refuses : Refuses first) : Refuses fun anchors => first anchors >>= next anchors := by
  intro anchors followed
  change (first anchors followed).bind _ = none
  rw [refuses anchors followed]
  rfl

theorem Settles.refuses_bind {first : Anchors → Read α} {next : Anchors → α → Read β} {value : α}
    (settles : Settles first value) (refuses : Refuses fun anchors => next anchors value) :
    Refuses fun anchors => first anchors >>= next anchors := by
  intro anchors followed
  change (first anchors followed).bind _ = none
  rw [settles anchors followed]
  exact refuses anchors followed

/-- Both readings fail, or they settle for related results. -/
inductive Corresponds (related : α → β → Prop) (read : Anchors → Read α)
    (other : Anchors → Read β) : Prop
  | refuse : Refuses read → Refuses other → Corresponds related read other
  | settle {result : α} {result' : β} : related result result' → Settles read result →
    Settles other result' → Corresponds related read other

section Corresponds

variable {related : α → β → Prop} {related' : γ → δ → Prop} {read : Anchors → Read α}
  {other : Anchors → Read β}

theorem Corresponds.mono {weaker : α → β → Prop} (corresponds : Corresponds related read other)
    (imply : ∀ result result', related result result' → weaker result result') :
    Corresponds weaker read other := by
  cases corresponds with
  | refuse refuses refuses' => exact .refuse refuses refuses'
  | settle same settles settles' => exact .settle (imply _ _ same) settles settles'

theorem corresponds_pure {value : α} {value' : β} (same : related value value') :
    Corresponds related (fun _ => pure value) fun _ => pure value' :=
  .settle same (settles_pure value) (settles_pure value')

theorem corresponds_refuse :
    Corresponds related (fun _ => Anchors.refuse) fun _ => Anchors.refuse :=
  .refuse (fun _ _ => rfl) fun _ _ => rfl

theorem corresponds_lift {found? : Option α} {found?' : Option β}
    (same : Option.Rel related found? found?') :
    Corresponds related (fun _ => liftM found?) fun _ => liftM found?' := by
  cases same with
  | none => exact .refuse (fun _ _ => rfl) fun _ _ => rfl
  | some same => exact .settle same (settles_lift rfl) (settles_lift rfl)

theorem Corresponds.of_settles {first : Anchors → Read α} {first' : Anchors → Read β}
    {next : Anchors → α → Read γ} {next' : Anchors → β → Read δ} {value : α} {value' : β}
    (settles : Settles first value) (settles' : Settles first' value')
    (then' : Corresponds related' (fun anchors => next anchors value) fun anchors =>
      next' anchors value') :
    Corresponds related' (fun anchors => first anchors >>= next anchors) fun anchors =>
      first' anchors >>= next' anchors := by
  cases then' with
  | refuse refuses refuses' =>
    exact .refuse (settles.refuses_bind refuses) (settles'.refuses_bind refuses')
  | settle same ends ends' => exact .settle same (settles.bind ends) (settles'.bind ends')

/-- What follows may rely on what was read before. -/
theorem Corresponds.bind {next : Anchors → α → Read γ} {next' : Anchors → β → Read δ}
    (corresponds : Corresponds related read other)
    (then' : ∀ value value', related value value' → Settles read value → Settles other value' →
      Corresponds related' (fun anchors => next anchors value) fun anchors =>
        next' anchors value') :
    Corresponds related' (fun anchors => read anchors >>= next anchors) fun anchors =>
      other anchors >>= next' anchors := by
  cases corresponds with
  | refuse refuses refuses' => exact .refuse refuses.bind refuses'.bind
  | settle same settles settles' =>
    exact .of_settles settles settles' (then' _ _ same settles settles')

theorem corresponds_mapM {read : Anchors → γ → Read α} {other : Anchors → δ → Read β}
    {items : List γ} {others : List δ}
    (each : List.Forall₂ (fun item item' => Corresponds related (fun anchors => read anchors item)
      fun anchors => other anchors item') items others) :
    Corresponds (List.Forall₂ related) (fun anchors => items.mapM (read anchors)) fun anchors =>
      others.mapM (other anchors) := by
  induction each with
  | nil => exact corresponds_pure .nil
  | cons here _ ih =>
    simp only [List.mapM_cons]
    refine here.bind fun value value' same _ _ => ih.bind fun values values' rest _ _ => ?_
    exact corresponds_pure (.cons same rest)

/-- What carries over from any anchors to any other ones corresponds to itself. -/
theorem corresponds_self {read : Anchors → Read α}
    (carries : ∀ anchors, Carries Eq (read anchors) read) : Corresponds Eq read read := by
  -- What ends with some anchors ends with all of them.
  by_cases yields : ∃ anchors result, Yields (read anchors) result
  · obtain ⟨anchors, result, yields⟩ := yields
    obtain ⟨_, rfl, settles⟩ := carries anchors result yields
    exact .settle rfl settles settles
  · have refuses : Refuses read := by
      intro anchors followed
      cases ended : read anchors followed with
      | none => rfl
      | some found => exact absurd ⟨anchors, found.1, followed, found.2, ended⟩ yields
    exact .refuse refuses refuses

end Corresponds

end Yaml.Read

/-! ### Trees -/

namespace Yaml.Node

theorem isTree_scalar (anchor : Option Nat) (tag : Option Bytes) (style : Style) (text : String) :
    IsTree (.scalar anchor tag style text) :=
  fun _ => .scalar rfl

theorem isTree_sequence {anchor : Option Nat} {tag : Option Bytes} {items : List Node}
    (each : ∀ item ∈ items, item.IsTree) : IsTree (.sequence anchor tag items) := by
  intro anchors
  have pairs : List.Forall₂ anchors.Mirrors items items :=
    List.forall₂_same.mpr fun item member => each item member anchors
  exact .sequence rfl rfl fun _ member => (List.forall₂_iff_zip.mp pairs).2 member

theorem isTree_mapping {anchor : Option Nat} {tag : Option Bytes} {entries : List (Node × Node)}
    (each : ∀ entry ∈ entries, entry.1.IsTree ∧ entry.2.IsTree) :
    IsTree (.mapping anchor tag entries) := by
  intro anchors
  have pairs : List.Forall₂ (fun entry other : Node × Node =>
      anchors.Mirrors entry.1 other.1 ∧ anchors.Mirrors entry.2 other.2) entries entries :=
    List.forall₂_same.mpr fun entry member =>
      ⟨(each entry member).1 anchors, (each entry member).2 anchors⟩
  have both : ∀ pair ∈ entries.zip entries,
      anchors.Mirrors pair.1.1 pair.2.1 ∧ anchors.Mirrors pair.1.2 pair.2.2 :=
    fun _ member => (List.forall₂_iff_zip.mp pairs).2 member
  exact .mapping rfl rfl (fun pair member => (both pair member).1)
    fun pair member => (both pair member).2

mutual
theorem isTree_of_hasNoAlias : (node : Node) → node.hasNoAlias = true → node.IsTree
  | .scalar .., _ => isTree_scalar _ _ _ _
  | .aliasOf _, free => nomatch free
  | .sequence _ _ items, free => isTree_sequence (areTrees_of_haveNoAlias items free)
  | .mapping _ _ entries, free => isTree_mapping (areTrees_of_entriesHaveNoAlias entries free)

theorem areTrees_of_haveNoAlias :
    (items : List Node) → haveNoAlias items = true → ∀ item ∈ items, item.IsTree
  | [], _ => List.forall_mem_nil _
  | item :: rest, free =>
    have both := Bool.and_eq_true_iff.mp free
    List.forall_mem_cons.mpr
      ⟨isTree_of_hasNoAlias item both.1, areTrees_of_haveNoAlias rest both.2⟩

theorem areTrees_of_entriesHaveNoAlias :
    (entries : List (Node × Node)) → entriesHaveNoAlias entries = true →
      ∀ entry ∈ entries, entry.1.IsTree ∧ entry.2.IsTree
  | [], _ => List.forall_mem_nil _
  | (key, value) :: rest, free =>
    have both := Bool.and_eq_true_iff.mp free
    have first := Bool.and_eq_true_iff.mp both.1
    List.forall_mem_cons.mpr
      ⟨⟨isTree_of_hasNoAlias key first.1, isTree_of_hasNoAlias value first.2⟩,
        areTrees_of_entriesHaveNoAlias rest both.2⟩
end

/-! ### Changing a tree in one place -/

def text? : Node → Option String
  | .scalar _ _ _ text => some text
  | _ => none

/-- What stands at one key of a mapping is changed. Where it is absent no other entry has the
key. -/
inductive ChangesPart (name : String) (changes : Option Node → Option Node → Prop) :
    Node → Node → Prop
  | intro {anchor : Option Nat} {tag : Option Bytes} {key : Node} {child? child?' : Option Node}
      (before after : List (Node × Node)) : key.text? = some name → changes child? child?' →
    (child? = none ∨ child?' = none →
      ∀ entry ∈ before ++ after, entry.1.text? ≠ some name) →
    ChangesPart name changes
      (.mapping anchor tag (before ++ (child?.map (key, ·)).toList ++ after))
      (.mapping anchor tag (before ++ (child?'.map (key, ·)).toList ++ after))

theorem ChangesPart.replace {name : String} {changes : Option Node → Option Node → Prop}
    {anchor : Option Nat} {tag : Option Bytes} {key child child' : Node}
    (before after : List (Node × Node)) (named : key.text? = some name)
    (change : changes (some child) (some child')) :
    ChangesPart name changes (.mapping anchor tag (before ++ (key, child) :: after))
      (.mapping anchor tag (before ++ (key, child') :: after)) := by
  have replaced : ChangesPart name changes _ _ :=
    @ChangesPart.intro name changes anchor tag key (some child) (some child') before after named
      change (by simp)
  simpa using replaced

theorem ChangesPart.insert {name : String} {changes : Option Node → Option Node → Prop}
    {anchor : Option Nat} {tag : Option Bytes} {key child : Node}
    (before after : List (Node × Node)) (named : key.text? = some name)
    (change : changes none (some child))
    (absent : ∀ entry ∈ before ++ after, entry.1.text? ≠ some name) :
    ChangesPart name changes (.mapping anchor tag (before ++ after))
      (.mapping anchor tag (before ++ (key, child) :: after)) := by
  have inserted : ChangesPart name changes _ _ :=
    @ChangesPart.intro name changes anchor tag key none (some child) before after named change
      fun _ => absent
  simpa using inserted

/-- One part of a section is changed, or an empty value becomes an empty mapping. -/
inductive ChangesSection (changes : String → Option Node → Option Node → Prop) : Node → Node → Prop
  | part {node node' : Node} (name : String) : ChangesPart name (changes name) node node' →
    ChangesSection changes node node'
  | empty {anchor anchor' : Option Nat} {tag tag' : Option Bytes} :
    ChangesSection changes (.scalar anchor tag .plain "") (.mapping anchor' tag' [])

/-- One item of a sequence is changed. -/
inductive ChangesItem (changes : Node → Node → Prop) : Node → Node → Prop
  | intro {anchor : Option Nat} {tag : Option Bytes} {item item' : Node}
      (before after : List Node) : changes item item' →
    ChangesItem changes (.sequence anchor tag (before ++ item :: after))
      (.sequence anchor tag (before ++ item' :: after))

end Yaml.Node

/-! ### Fields -/

namespace Descriptor

open Read

variable {α : Type} {same : α → α → Prop} {field : Anchors → Field α} {node node' : Node}

/-- What is read of a tree corresponds to itself. -/
theorem corresponds_tree (steady : ∀ {anchors}, Steady anchors field) (isTree : node.IsTree) :
    Corresponds Eq (fun anchors => field anchors node) fun anchors => field anchors node :=
  corresponds_self fun anchors => steady node node (isTree anchors)

theorem corresponds_present
    (corresponds : Corresponds same (fun anchors => field anchors node) fun anchors =>
      field anchors node') :
    Corresponds (Option.Rel same) (fun anchors => do return some (← field anchors node))
      fun anchors => do return some (← field anchors node') :=
  corresponds.bind fun _ _ here _ _ => corresponds_pure (.some here)

theorem corresponds_trees (steady : ∀ {anchors}, Steady anchors field)
    (reflexive : ∀ value, same value value) {items : List Node}
    (trees : ∀ item ∈ items, item.IsTree) :
    List.Forall₂ (fun item item' => Corresponds same (fun anchors => field anchors item)
      fun anchors => field anchors item') items items := by
  refine List.forall₂_same.mpr fun item member => ?_
  exact (corresponds_tree steady (trees item member)).mono fun value _ known =>
    known ▸ reflexive value

/-- The items around the changed one are read as before. -/
theorem corresponds_readList (same : α → α → Prop) (steady : ∀ {anchors}, Steady anchors field)
    (reflexive : ∀ value, same value value) {changes : Node → Node → Prop}
    (changed : ∀ item item', changes item item' → item.IsTree → item'.IsTree →
      Corresponds same (fun anchors => field anchors item) fun anchors => field anchors item')
    (changesItem : Node.ChangesItem changes node node') (isTree : node.IsTree)
    (isTree' : node'.IsTree) :
    Corresponds (Option.Rel (List.Forall₂ same))
      (fun anchors => readOptional anchors (readList anchors (field anchors)) node)
      fun anchors => readOptional anchors (readList anchors (field anchors)) node' := by
  cases changesItem with
  | @intro anchor tag item item' before after change =>
    have trees := isTree.items
    simp only [List.forall_mem_append, List.forall_mem_cons] at trees
    have tree' := isTree'.items item' (by simp)
    have items : List.Forall₂ (fun item item' => Corresponds same
        (fun anchors => field anchors item) fun anchors => field anchors item')
        (before ++ item :: after) (before ++ item' :: after) :=
      List.rel_append (corresponds_trees steady reflexive trees.1)
        (.cons (changed item item' change trees.2.1 tree')
          (corresponds_trees steady reflexive trees.2.2))
    exact (corresponds_mapM items).bind fun _ _ known _ _ => corresponds_pure (.some known)

/-! ### Sections -/

/-- Reads what stands at a key, if anything does. -/
def readPart (anchors : Anchors) (field : Field α) : Option Node → Read (Option α)
  | none => pure none
  | some child => readOptional anchors field child

theorem readField_eq (anchors : Anchors) (name : String) (field : Field α)
    (entries : List (String × Node)) :
    readField anchors name field entries = unique name entries >>= readPart anchors field := by
  rfl

def AreTrees (child? : Option Node) : Prop :=
  ∀ child ∈ child?, child.IsTree

/-- What stands at a key is the same tree on both sides, or it is changed. -/
inductive StaysOr (changes : String → Option Node → Option Node → Prop) (name : String) :
    Option Node → Option Node → Prop
  | stays {child? : Option Node} : AreTrees child? → StaysOr changes name child? child?
  | changes {child? child?' : Option Node} : changes name child? child?' → AreTrees child? →
    AreTrees child?' → StaysOr changes name child? child?'

/-- At each key the same stands on both sides, or what the change makes of it. A key that stands
more than once does so on both sides. -/
def Matches (changes : String → Option Node → Option Node → Prop)
    (entries entries' : List (String × Node)) : Prop :=
  ∀ name, Corresponds (StaysOr changes name) (fun _ => unique name entries) fun _ =>
    unique name entries'

section Sections

variable {changes : String → Option Node → Option Node → Prop} {name : String}
  {entries entries' : List (String × Node)}

theorem corresponds_readField (name : String) (same : Option α → Option α → Prop)
    (matched : Matches changes entries entries') (steady : ∀ {anchors}, Steady anchors field)
    (reflexive : ∀ value, same value value)
    (changed : ∀ child? child?', changes name child? child?' → AreTrees child? →
      AreTrees child?' → Corresponds same (fun anchors => readPart anchors (field anchors) child?)
        fun anchors => readPart anchors (field anchors) child?') :
    Corresponds same (fun anchors => readField anchors name (field anchors) entries)
      fun anchors => readField anchors name (field anchors) entries' := by
  simp only [readField_eq]
  refine (matched name).bind ?_
  intro child? child?' part _ _
  cases part with
  | stays trees =>
    cases child? with
    | none => exact corresponds_pure (reflexive none)
    | some child =>
      exact (corresponds_tree steady.readOptional (trees child rfl)).mono fun value _ known =>
        known ▸ reflexive value
  | changes change trees trees' => exact changed _ _ change trees trees'

theorem corresponds_unique (trees : ∀ entry ∈ entries, entry.2.IsTree)
    (alike : (entries.filter fun entry => entry.1 == name) =
      entries'.filter fun entry => entry.1 == name) :
    Corresponds (StaysOr changes name) (fun _ => unique name entries) fun _ =>
      unique name entries' := by
  unfold unique
  rw [← alike]
  have kept : ∀ entry ∈ entries.filter fun entry => entry.1 == name, entry.2.IsTree :=
    fun entry member => trees entry (List.mem_of_mem_filter member)
  generalize entries.filter _ = found at kept
  match found, kept with
  | [], _ => exact corresponds_pure (.stays nofun)
  | [entry], kept =>
    exact corresponds_pure (.stays fun child among =>
      Option.mem_some_iff.mp among ▸ kept entry List.mem_cons_self)
  | _ :: _ :: _, _ => exact corresponds_refuse

/-- Reads the keys of the entries of a mapping. -/
def readEntries (anchors : Anchors) (written : List (Node × Node)) :
    Read (List (String × Node)) :=
  written.mapM fun (key, value) => do return (← readText anchors key, value)

theorem readEntries_append (anchors : Anchors) (before after : List (Node × Node)) :
    readEntries anchors (before ++ after) = do
      return (← readEntries anchors before) ++ (← readEntries anchors after) :=
  List.mapM_append

theorem corresponds_key {key : Node} (isTree : key.IsTree) :
    Corresponds (fun text text' => text = text' ∧ key.text? = some text)
      (fun anchors => readText anchors key) fun anchors => readText anchors key := by
  cases key with
  | scalar anchor tag style text => exact .settle ⟨rfl, rfl⟩ (fun _ _ => rfl) fun _ _ => rfl
  | sequence => exact .refuse (fun _ _ => rfl) fun _ _ => rfl
  | mapping => exact .refuse (fun _ _ => rfl) fun _ _ => rfl
  | aliasOf anchor => exact nomatch isTree { nodes := [], limit := 0 }

theorem corresponds_readEntries {written : List (Node × Node)}
    (trees : ∀ entry ∈ written, entry.1.IsTree ∧ entry.2.IsTree) :
    Corresponds (fun found found' => found = found' ∧ HaveKeys Node.text? written found)
      (fun anchors => readEntries anchors written) fun anchors => readEntries anchors written := by
  induction written with
  | nil => exact corresponds_pure ⟨rfl, .nil⟩
  | cons entry rest ih =>
    obtain ⟨key, value⟩ := entry
    rw [List.forall_mem_cons] at trees
    simp only [readEntries, List.mapM_cons]
    simp only [bind_assoc, pure_bind]
    refine (corresponds_key trees.1.1).bind ?_
    rintro text _ ⟨rfl, named⟩ - -
    refine (ih trees.2).bind ?_
    rintro found _ ⟨rfl, keys⟩ - -
    exact corresponds_pure ⟨rfl, .cons ⟨named, rfl⟩ keys⟩

/-- What holds of the written entries holds of those that are read. -/
theorem HaveKeys.forall_mem (holds : String → Node → Prop) {written : List (Node × Node)}
    (keys : HaveKeys Node.text? written entries)
    (each : ∀ entry ∈ written, ∀ text, entry.1.text? = some text → holds text entry.2) :
    ∀ entry ∈ entries, holds entry.1 entry.2 := by
  induction keys with
  | nil => exact List.forall_mem_nil _
  | cons here _ ih =>
    rw [List.forall_mem_cons] at each ⊢
    exact ⟨here.2 ▸ each.1 _ here.1, ih each.2⟩

/-- The entry of one key among others. -/
theorem settles_part {key : Node} (named : key.text? = some name) (child? : Option Node) :
    Settles (fun anchors => readEntries anchors (child?.map (key, ·)).toList)
      (child?.map (name, ·)).toList := by
  cases child? with
  | none => exact settles_pure []
  | some child =>
    cases key with
    | scalar anchor tag style text =>
      cases named
      exact fun _ _ => rfl
    | _ => cases named

theorem filter_part (name : String) (child? : Option Node) :
    ((child?.map (name, ·)).toList.filter fun entry => entry.1 == name) =
      (child?.map (name, ·)).toList := by
  cases child? <;> simp

theorem filter_part_of_ne {other : String} (apart : other ≠ name) (child? : Option Node) :
    ((child?.map (name, ·)).toList.filter fun entry => entry.1 == other) = [] := by
  cases child? <;> simp [apart.symm]

section Around

variable {front back : List (String × Node)}

theorem unique_part_of_nil (alone : (front ++ back).filter (fun entry => entry.1 == name) = [])
    (child? : Option Node) :
    unique name (front ++ ((child?.map (name, ·)).toList ++ back)) = pure child? := by
  rw [List.filter_append, List.append_eq_nil_iff] at alone
  unfold unique
  simp only [List.filter_append, filter_part, alone, List.nil_append, List.append_nil]
  cases child? <;> rfl

theorem unique_part_of_ne_nil
    (others : (front ++ back).filter (fun entry => entry.1 == name) ≠ []) (child : Node) :
    unique name (front ++ (((some child).map (name, ·)).toList ++ back)) = Anchors.refuse := by
  unfold unique
  simp only [List.filter_append, filter_part]
  rw [List.filter_append] at others
  generalize front.filter _ = first at others
  generalize back.filter _ = last at others
  match first, last, others with
  | [], _ :: _, _ => rfl
  | [_], _, _ => rfl
  | _ :: _ :: _, _, _ => rfl

end Around

theorem matches_part {front back : List (String × Node)} {child? child?' : Option Node}
    (trees : ∀ entry ∈ front ++ back, entry.2.IsTree)
    (part : StaysOr changes name child? child?')
    (alone : child? = none ∨ child?' = none → ∀ entry ∈ front ++ back, entry.1 ≠ name) :
    Matches changes (front ++ ((child?.map (name, ·)).toList ++ back))
      (front ++ ((child?'.map (name, ·)).toList ++ back)) := by
  intro other
  by_cases own : other = name
  · subst own
    cases others : (front ++ back).filter fun entry => entry.1 == other with
    | nil =>
      rw [unique_part_of_nil others, unique_part_of_nil others]
      exact corresponds_pure part
    | cons entry rest =>
      -- Another entry has the key, so the part is there on both sides.
      have among : entry ∈ (front ++ back).filter fun entry => entry.1 == other :=
        others ▸ List.mem_cons_self
      have present : ¬(child? = none ∨ child?' = none) := by
        intro absent
        have named := beq_iff_eq.mp (List.mem_filter.mp among).2
        exact alone absent entry (List.mem_filter.mp among).1 named
      rw [not_or] at present
      obtain ⟨child, rfl⟩ := Option.ne_none_iff_exists'.mp present.1
      obtain ⟨child', rfl⟩ := Option.ne_none_iff_exists'.mp present.2
      have many : (front ++ back).filter (fun entry => entry.1 == other) ≠ [] := by simp [others]
      rw [unique_part_of_ne_nil many, unique_part_of_ne_nil many]
      exact corresponds_refuse
  · have filtered (child? : Option Node) :
        ((front ++ ((child?.map (name, ·)).toList ++ back)).filter fun entry => entry.1 == other) =
          (front ++ back).filter fun entry => entry.1 == other := by
      simp only [List.filter_append, filter_part_of_ne own, List.nil_append]
    unfold unique
    rw [filtered, filtered]
    exact corresponds_unique trees rfl

/-- A section is read as before but for the part that is changed. -/
theorem corresponds_changesPart (isTree : node.IsTree) (isTree' : node'.IsTree)
    (changesPart : Node.ChangesPart name (changes name) node node') :
    Corresponds (Matches changes) (fun anchors => readSection anchors node) fun anchors =>
      readSection anchors node' := by
  cases changesPart with
  | @intro anchor tag key child? child?' before after named change alone =>
    have trees := isTree.entries
    have trees' := isTree'.entries
    have own (child? : Option Node)
        (trees : ∀ entry ∈ before ++ (child?.map (key, ·)).toList ++ after,
          entry.1.IsTree ∧ entry.2.IsTree) : AreTrees child? := by
      rintro child rfl
      exact (trees (key, child) (by simp)).2
    have part : StaysOr changes name child? child?' :=
      .changes change (own child? trees) (own child?' trees')
    simp only [List.forall_mem_append] at trees
    -- The changed part and what comes after it.
    have rest : Corresponds
        (fun found found' => ∃ back, found = (child?.map (name, ·)).toList ++ back ∧
          found' = (child?'.map (name, ·)).toList ++ back ∧ HaveKeys Node.text? after back)
        (fun anchors => readEntries anchors ((child?.map (key, ·)).toList ++ after))
        fun anchors => readEntries anchors ((child?'.map (key, ·)).toList ++ after) := by
      simp only [readEntries_append]
      refine .of_settles (settles_part named child?) (settles_part named child?') ?_
      refine (corresponds_readEntries trees.2).bind ?_
      rintro back _ ⟨rfl, keys⟩ - -
      exact corresponds_pure ⟨back, rfl, rfl, keys⟩
    change Corresponds _ (fun anchors => readEntries anchors _) fun anchors => readEntries anchors _
    simp only [List.append_assoc, fun anchors => readEntries_append anchors before]
    refine (corresponds_readEntries trees.1.1).bind ?_
    rintro front _ ⟨rfl, first⟩ - -
    refine rest.bind ?_
    rintro _ _ ⟨back, rfl, rfl, last⟩ - -
    have values {written : List (Node × Node)} {entries : List (String × Node)}
        (keys : HaveKeys Node.text? written entries)
        (trees : ∀ entry ∈ written, entry.1.IsTree ∧ entry.2.IsTree) :
        ∀ entry ∈ entries, entry.2.IsTree :=
      keys.forall_mem (fun _ value => value.IsTree) fun entry member _ _ => (trees entry member).2
    refine corresponds_pure (matches_part ?_ part ?_)
    · exact List.forall_mem_append.mpr ⟨values first trees.1.1, values last trees.2⟩
    · intro absent
      have others := List.forall_mem_append.mp (alone absent)
      have apart {written : List (Node × Node)} {entries : List (String × Node)}
          (keys : HaveKeys Node.text? written entries)
          (others : ∀ entry ∈ written, entry.1.text? ≠ some name) :
          ∀ entry ∈ entries, entry.1 ≠ name :=
        keys.forall_mem (fun text _ => text ≠ name) fun entry member text named same =>
          others entry member (same ▸ named)
      exact List.forall_mem_append.mpr ⟨apart first others.1, apart last others.2⟩

theorem corresponds_readSection (isTree : node.IsTree) (isTree' : node'.IsTree)
    (changed : Node.ChangesSection changes node node') :
    Corresponds (Matches changes) (fun anchors => readSection anchors node) fun anchors =>
      readSection anchors node' := by
  cases changed with
  | part _ changesPart => exact corresponds_changesPart isTree isTree' changesPart
  | empty =>
    exact .settle (fun _ => corresponds_pure (.stays nofun)) (fun _ _ => rfl) fun _ _ => rfl

end Sections

end Descriptor

end BoardBench
