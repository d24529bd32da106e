import BoardBench.Proofs.Config.Reading

/-!
# Documents without aliases

Replacing each alias by what it is an alias of leaves a tree without aliases and anchors.

Main result: what is read of a document is read of such a tree too, whatever anchors there are and
however many aliases were followed before.

Proof strategy: the readers are put together in a few ways. Each way is shown to carry a result over
from one node to another if its parts do, so that a relation between two nodes becomes one between
what is read of them.
-/
namespace BoardBench

open Yaml

namespace Yaml

/-! ### Trees -/

/-- What is left of a node when each alias is replaced by the node with its anchor. -/
inductive Anchors.Unfolds (anchors : Anchors) : Node → Node → Prop
  | scalar {node : Node} {anchor : Option Nat} {tag : Option Bytes} {style : Style}
      {text : String} : anchors.target node = .scalar anchor tag style text →
    Unfolds anchors node (.scalar none tag style text)
  | sequence {node : Node} {anchor : Option Nat} {tag : Option Bytes} {items trees : List Node} :
    anchors.target node = .sequence anchor tag items → items.length = trees.length →
    (∀ pair ∈ items.zip trees, Unfolds anchors pair.1 pair.2) →
    Unfolds anchors node (.sequence none tag trees)
  | mapping {node : Node} {anchor : Option Nat} {tag : Option Bytes}
      {entries trees : List (Node × Node)} :
    anchors.target node = .mapping anchor tag entries → entries.length = trees.length →
    (∀ pair ∈ entries.zip trees, Unfolds anchors pair.1.1 pair.2.1) →
    (∀ pair ∈ entries.zip trees, Unfolds anchors pair.1.2 pair.2.2) →
    Unfolds anchors node (.mapping none tag trees)

namespace Anchors

variable {anchors : Anchors}

theorem forall_mem_zip_self {α : Type} (holds : α → Prop) {others items : List α}
    (lengths : others.length = items.length) (each : ∀ pair ∈ others.zip items, holds pair.2) :
    ∀ pair ∈ items.zip items, pair.1 = pair.2 ∧ holds pair.2 := by
  induction items generalizing others with
  | nil => simp
  | cons item rest ih =>
    cases others with
    | nil => cases lengths
    | cons other more =>
      rw [List.zip_cons_cons, List.forall_mem_cons] at each ⊢
      exact ⟨⟨rfl, each.1⟩, ih (Nat.succ.inj lengths) each.2⟩

/-- A tree is what is left of itself. -/
theorem Unfolds.self {node tree : Node} (unfolds : anchors.Unfolds node tree) (other : Anchors) :
    other.Unfolds tree tree := by
  induction unfolds with
  | scalar => exact .scalar rfl
  | sequence _ lengths _ ih =>
    have each := forall_mem_zip_self (fun item => other.Unfolds item item) lengths ih
    refine .sequence rfl rfl ?_
    intro pair member
    obtain ⟨same, holds⟩ := each pair member
    exact same ▸ holds
  | mapping _ lengths _ _ ih ih' =>
    have keys := forall_mem_zip_self (fun entry => other.Unfolds entry.1 entry.1) lengths ih
    have values := forall_mem_zip_self (fun entry => other.Unfolds entry.2 entry.2) lengths ih'
    refine .mapping rfl rfl ?_ ?_
    · intro pair member
      obtain ⟨same, holds⟩ := keys pair member
      exact same ▸ holds
    · intro pair member
      obtain ⟨same, holds⟩ := values pair member
      exact same ▸ holds

end Anchors

namespace Node

mutual
/-- The node without its anchors. -/
def bare : Node → Node
  | scalar _ tag style text => .scalar none tag style text
  | sequence _ tag items => .sequence none tag (bareItems items)
  | mapping _ tag entries => .mapping none tag (bareEntries entries)
  | aliasOf anchor => .aliasOf anchor

def bareItems : List Node → List Node
  | [] => []
  | item :: rest => item.bare :: bareItems rest

def bareEntries : List (Node × Node) → List (Node × Node)
  | [] => []
  | (key, value) :: rest => (key.bare, value.bare) :: bareEntries rest
end

mutual
def hasNoAlias : Node → Bool
  | scalar .. => true
  | sequence _ _ items => haveNoAlias items
  | mapping _ _ entries => entriesHaveNoAlias entries
  | aliasOf _ => false

def haveNoAlias : List Node → Bool
  | [] => true
  | item :: rest => item.hasNoAlias && haveNoAlias rest

def entriesHaveNoAlias : List (Node × Node) → Bool
  | [] => true
  | (key, value) :: rest => key.hasNoAlias && value.hasNoAlias && entriesHaveNoAlias rest
end

variable (anchors : Anchors)

mutual
/-- A node without aliases only loses its anchors. -/
theorem unfolds_bare : (node : Node) → node.hasNoAlias = true → anchors.Unfolds node node.bare
  | .scalar .., _ => .scalar rfl
  | .aliasOf _, free => nomatch free
  | .sequence _ _ items, free =>
    have ⟨lengths, each⟩ := unfolds_bareItems items free
    .sequence rfl lengths each
  | .mapping _ _ entries, free =>
    have ⟨lengths, each⟩ := unfolds_bareEntries entries free
    .mapping rfl lengths (fun pair member => (each pair member).1)
      fun pair member => (each pair member).2

theorem unfolds_bareItems : (items : List Node) → haveNoAlias items = true →
    items.length = (bareItems items).length ∧
      ∀ pair ∈ items.zip (bareItems items), anchors.Unfolds pair.1 pair.2
  | [], _ => ⟨rfl, nofun⟩
  | item :: rest, free => by
    have both := Bool.and_eq_true_iff.mp free
    obtain ⟨lengths, each⟩ := unfolds_bareItems rest both.2
    exact ⟨congrArg Nat.succ lengths,
      List.forall_mem_cons.mpr ⟨unfolds_bare item both.1, each⟩⟩

theorem unfolds_bareEntries : (entries : List (Node × Node)) → entriesHaveNoAlias entries = true →
    entries.length = (bareEntries entries).length ∧
      ∀ pair ∈ entries.zip (bareEntries entries),
        anchors.Unfolds pair.1.1 pair.2.1 ∧ anchors.Unfolds pair.1.2 pair.2.2
  | [], _ => ⟨rfl, nofun⟩
  | (key, value) :: rest, free => by
    have both := Bool.and_eq_true_iff.mp free
    have first := Bool.and_eq_true_iff.mp both.1
    obtain ⟨lengths, each⟩ := unfolds_bareEntries rest both.2
    exact ⟨congrArg Nat.succ lengths,
      List.forall_mem_cons.mpr ⟨⟨unfolds_bare key first.1, unfolds_bare value first.2⟩, each⟩⟩
end

end Node

/-! ### Trees with anchors -/

/-- What is left of a node when each alias is replaced, in which there may be anchors. -/
inductive Anchors.Mirrors (anchors : Anchors) : Node → Node → Prop
  | scalar {node : Node} {anchor anchor' : Option Nat} {tag : Option Bytes} {style : Style}
      {text : String} : anchors.target node = .scalar anchor tag style text →
    Mirrors anchors node (.scalar anchor' tag style text)
  | sequence {node : Node} {anchor anchor' : Option Nat} {tag : Option Bytes}
      {items trees : List Node} :
    anchors.target node = .sequence anchor tag items → items.length = trees.length →
    (∀ pair ∈ items.zip trees, Mirrors anchors pair.1 pair.2) →
    Mirrors anchors node (.sequence anchor' tag trees)
  | mapping {node : Node} {anchor anchor' : Option Nat} {tag : Option Bytes}
      {entries trees : List (Node × Node)} :
    anchors.target node = .mapping anchor tag entries → entries.length = trees.length →
    (∀ pair ∈ entries.zip trees, Mirrors anchors pair.1.1 pair.2.1) →
    (∀ pair ∈ entries.zip trees, Mirrors anchors pair.1.2 pair.2.2) →
    Mirrors anchors node (.mapping anchor' tag trees)

theorem Anchors.Unfolds.mirrors {anchors : Anchors} {node tree : Node}
    (unfolds : anchors.Unfolds node tree) : anchors.Mirrors node tree := by
  induction unfolds with
  | scalar stands => exact .scalar stands
  | sequence stands lengths _ ih => exact .sequence stands lengths ih
  | mapping stands lengths _ _ keys values => exact .mapping stands lengths keys values

/-! ### Results that carry over -/

namespace Read

variable {α β γ δ : Type}

/-- The result is read with any anchors, and no alias is followed. -/
def Settles (read : Anchors → Read α) (result : α) : Prop :=
  ∀ anchors followed, read anchors followed = some (result, followed)

theorem Settles.yields {read : Anchors → Read α} {result : α} (settles : Settles read result)
    (anchors : Anchors) : Yields (read anchors) result :=
  ⟨0, 0, settles anchors 0⟩

theorem settles_pure (result : α) : Settles (fun _ => pure result) result :=
  fun _ _ => rfl

theorem settles_lift {found? : Option α} {result : α} (found : found? = some result) :
    Settles (fun _ => liftM found?) result := by
  intro anchors followed
  rw [found]
  rfl

theorem Settles.bind {first : Anchors → Read α} {next : Anchors → α → Read β} {value : α}
    {result : β} (settles : Settles first value)
    (then' : Settles (fun anchors => next anchors value) result) :
    Settles (fun anchors => first anchors >>= next anchors) result := by
  intro anchors followed
  exact bind_eq_some_iff.mpr ⟨value, followed, settles anchors followed, then' anchors followed⟩

theorem settles_mapM {read : Anchors → γ → Read α} {items : List γ} {results : List α}
    (each : List.Forall₂ (fun item result => Settles (fun anchors => read anchors item) result)
      items results) : Settles (fun anchors => items.mapM (read anchors)) results := by
  induction each with
  | nil => exact settles_pure []
  | cons here _ ih =>
    simp only [List.mapM_cons]
    exact here.bind (ih.bind (settles_pure _))

/-- Whatever the first reading yields, the second one settles for something related. -/
def Carries (related : α → β → Prop) (read : Read α) (other : Anchors → Read β) : Prop :=
  ∀ result, Yields read result → ∃ result', related result result' ∧ Settles other result'

theorem Carries.mono {related weaker : α → β → Prop} {read : Read α} {other : Anchors → Read β}
    (carries : Carries related read other)
    (imply : ∀ result result', related result result' → weaker result result') :
    Carries weaker read other := by
  intro result yields
  obtain ⟨result', same, settles⟩ := carries result yields
  exact ⟨result', imply result result' same, settles⟩

theorem Carries.yielding {related : α → β → Prop} {read : Read α} {other : Anchors → Read β}
    (carries : Carries related read other) :
    Carries (fun result result' => related result result' ∧ Yields read result) read other := by
  intro result yields
  obtain ⟨result', same, settles⟩ := carries result yields
  exact ⟨result', ⟨same, yields⟩, settles⟩

theorem carries_pure {related : α → β → Prop} {value : α} {value' : β}
    (same : related value value') : Carries related (pure value) fun _ => pure value' := by
  intro result yields
  cases yields_pure.mp yields
  exact ⟨value', same, settles_pure value'⟩

theorem carries_refuse (related : α → β → Prop) (other : Anchors → Read β) :
    Carries related Anchors.refuse other :=
  fun _ yields => absurd yields yields_refuse

theorem carries_lift (found? : Option α) : Carries Eq (liftM found?) fun _ => liftM found? :=
  fun result yields => ⟨result, rfl, settles_lift (yields_lift.mp yields)⟩

theorem Carries.bind {related : α → β → Prop} {related' : γ → δ → Prop} {first : Read α}
    {first' : Anchors → Read β} {next : α → Read γ} {next' : Anchors → β → Read δ}
    (carries : Carries related first first')
    (then' : ∀ value value', related value value' →
      Carries related' (next value) fun anchors => next' anchors value') :
    Carries related' (first >>= next) fun anchors => first' anchors >>= next' anchors := by
  intro result yields
  obtain ⟨value, here, more⟩ := yields.of_bind
  obtain ⟨value', same, settles⟩ := carries value here
  obtain ⟨result', same', more'⟩ := then' value value' same result more
  exact ⟨result', same', settles.bind more'⟩

theorem carries_mapM {ε : Type} {paired : γ → ε → Prop} {related : α → β → Prop}
    {read : γ → Read α} {read' : Anchors → ε → Read β} {items : List γ} {others : List ε}
    (pairs : List.Forall₂ paired items others)
    (each : ∀ item other, paired item other →
      Carries related (read item) fun anchors => read' anchors other) :
    Carries (List.Forall₂ related) (items.mapM read) fun anchors =>
      others.mapM (read' anchors) := by
  induction pairs with
  | nil => exact carries_pure .nil
  | cons here _ ih =>
    simp only [List.mapM_cons]
    refine (each _ _ here).bind fun value value' same => ih.bind fun values values' rest => ?_
    exact carries_pure (.cons same rest)

theorem carries_mapM_eq {ε : Type} {paired : γ → ε → Prop} {read : γ → Read α}
    {read' : Anchors → ε → Read α} {items : List γ} {others : List ε}
    (pairs : List.Forall₂ paired items others)
    (each : ∀ item other, paired item other →
      Carries Eq (read item) fun anchors => read' anchors other) :
    Carries Eq (items.mapM read) fun anchors => others.mapM (read' anchors) := by
  have carries := carries_mapM pairs each
  rwa [List.forall₂_eq_eq_eq] at carries

end Read

/-! ### Following aliases -/

namespace Anchors

variable {anchors : Anchors} {node tree : Node}

theorem Mirrors.target (mirrors : anchors.Mirrors node tree) :
    anchors.Mirrors (anchors.target node) tree := by
  cases mirrors with
  | scalar stands => exact .scalar (congrArg anchors.target stands)
  | sequence stands lengths each => exact .sequence (congrArg anchors.target stands) lengths each
  | mapping stands lengths keys values =>
    exact .mapping (congrArg anchors.target stands) lengths keys values

theorem Mirrors.carries_follow (mirrors : anchors.Mirrors node tree) :
    Read.Carries (fun found found' => found = anchors.target node ∧ found' = tree)
      (anchors.follow node) fun other => other.follow tree := by
  intro found yields
  refine ⟨tree, ⟨anchors.eq_target_of_follow yields, rfl⟩, ?_⟩
  cases mirrors with
  | scalar => exact Read.settles_pure _
  | sequence => exact Read.settles_pure _
  | mapping => exact Read.settles_pure _

end Anchors

end Yaml

namespace Descriptor

open Read

variable {anchors : Anchors} {α : Type}

/-- The field is read of a tree as it is of the node that the tree is left of. -/
def Steady (anchors : Anchors) (field : Anchors → Field α) : Prop :=
  ∀ node tree, anchors.Mirrors node tree →
    Carries Eq (field anchors node) fun other => field other tree

theorem forall₂_of_zip {α β : Type} {related : α → β → Prop} {items : List α} {others : List β}
    (lengths : items.length = others.length)
    (each : ∀ pair ∈ items.zip others, related pair.1 pair.2) :
    List.Forall₂ related items others :=
  List.forall₂_iff_zip.mpr ⟨lengths, fun member => each _ member⟩

theorem forall₂_entries {related : Node → Node → Prop} {entries others : List (Node × Node)}
    (lengths : entries.length = others.length)
    (keys : ∀ pair ∈ entries.zip others, related pair.1.1 pair.2.1)
    (values : ∀ pair ∈ entries.zip others, related pair.1.2 pair.2.2) :
    List.Forall₂ (fun entry other => related entry.1 other.1 ∧ related entry.2 other.2) entries
      others :=
  forall₂_of_zip lengths fun pair member => ⟨keys pair member, values pair member⟩

theorem steady_readText : Steady anchors readText := by
  intro node tree mirrors
  refine mirrors.carries_follow.bind ?_
  rintro _ tree ⟨rfl, rfl⟩
  cases mirrors with
  | scalar stands =>
    rw [stands]
    exact carries_pure rfl
  | sequence stands =>
    rw [stands]
    exact carries_refuse _ _
  | mapping stands =>
    rw [stands]
    exact carries_refuse _ _

theorem steady_value (depth : Nat) : Steady anchors fun other => other.value depth := by
  intro node tree mirrors
  change Carries Eq (anchors.value depth node) fun other => other.value depth tree
  unfold Anchors.value
  refine mirrors.carries_follow.bind ?_
  rintro _ tree ⟨rfl, rfl⟩
  cases mirrors with
  | scalar stands =>
    rw [stands]
    exact carries_lift _
  | sequence stands lengths each =>
    rw [stands]
    cases depth with
    | zero => exact carries_refuse _ _
    | succ depth =>
      simp only
      split
      next => exact carries_refuse _ _
      next =>
        refine (carries_mapM_eq (forall₂_of_zip lengths each) (steady_value depth)).bind ?_
        rintro values _ rfl
        exact carries_pure rfl
  | mapping stands lengths keys values =>
    rw [stands]
    cases depth with
    | zero => exact carries_refuse _ _
    | succ depth =>
      simp only
      split
      next => exact carries_refuse _ _
      next =>
        refine (carries_mapM_eq (forall₂_entries lengths keys values) ?_).bind ?_
        · rintro ⟨key, item⟩ ⟨key', item'⟩ ⟨here, there⟩
          refine (steady_value depth key key' here).bind ?_
          rintro value _ rfl
          refine (steady_value depth item item' there).bind ?_
          rintro other _ rfl
          exact carries_pure rfl
        · rintro values _ rfl
          exact carries_pure rfl

theorem steady_readFormed (depth : Nat) (form : Value → Option α) :
    Steady anchors fun other => readFormed other depth form := by
  intro node tree mirrors
  refine (steady_value depth node tree mirrors).bind ?_
  rintro value _ rfl
  exact carries_lift _

theorem carries_present {β : Type} {same : α → β → Prop} {read : Read α} {other : Anchors → Read β}
    (carries : Carries same read other) :
    Carries (Option.Rel same) (do return some (← read)) fun anchors => do
      return some (← other anchors) :=
  carries.bind fun _ _ here => carries_pure (.some here)

theorem carries_readOptional {β : Type} {same : α → β → Prop} {field : Field α}
    {field' : Anchors → Field β} {node tree : Node} (mirrors : anchors.Mirrors node tree)
    (carries : Carries same (field (anchors.target node)) fun other => field' other tree) :
    Carries (Option.Rel same) (readOptional anchors field node) fun other =>
      readOptional other (field' other) tree := by
  refine mirrors.carries_follow.bind ?_
  rintro _ tree ⟨rfl, rfl⟩
  have present := carries_present carries
  cases mirrors with
  | @scalar _ anchor _ tag style text stands =>
    rw [stands] at present ⊢
    cases style with
    | plain =>
      cases tag with
      | none =>
        simp only
        split
        next => exact carries_pure .none
        next => exact present
      | some tag =>
        simp only
        split
        next =>
          split
          next => exact carries_pure .none
          next => exact carries_refuse _ _
        next => exact present
    | _ => exact present
  | sequence stands =>
    rw [stands] at present ⊢
    exact present
  | mapping stands =>
    rw [stands] at present ⊢
    exact present

theorem carries_readList {β : Type} {same : α → β → Prop} {field : Field α}
    {field' : Anchors → Field β} {node tree : Node} (mirrors : anchors.Mirrors node tree)
    (carries : ∀ item item', anchors.Mirrors item item' →
      Carries same (field item) fun other => field' other item') :
    Carries (List.Forall₂ same) (readList anchors field node) fun other =>
      readList other (field' other) tree := by
  refine mirrors.carries_follow.bind ?_
  rintro _ tree ⟨rfl, rfl⟩
  cases mirrors with
  | scalar stands =>
    rw [stands]
    simp only
    split
    next => exact carries_pure .nil
    next => exact carries_refuse _ _
  | sequence stands lengths each =>
    rw [stands]
    exact carries_mapM (forall₂_of_zip lengths each) carries
  | mapping stands =>
    rw [stands]
    exact carries_refuse _ _

theorem Steady.readOptional {field : Anchors → Field α} (steady : Steady anchors field) :
    Steady anchors fun other => readOptional other (field other) := by
  intro node tree mirrors
  refine (carries_readOptional mirrors (steady _ tree mirrors.target)).mono ?_
  rintro result result' same
  cases same with
  | none => rfl
  | some same => exact congrArg some same

theorem Steady.readList {field : Anchors → Field α} (steady : Steady anchors field) :
    Steady anchors fun other => readList other (field other) := by
  intro node tree mirrors
  have carries := carries_readList mirrors steady
  rwa [List.forall₂_eq_eq_eq] at carries

/-! ### Sections -/

/-- The same keys, with values that are related as their key asks for. -/
def AreAlike (related : String → Node → Node → Prop) :
    List (String × Node) → List (String × Node) → Prop :=
  List.Forall₂ fun entry other => entry.1 = other.1 ∧ related entry.1 entry.2 other.2

section Sections

variable {related : String → Node → Node → Prop} {entries others : List (String × Node)}

theorem carries_entries {written written' : List (Node × Node)} {anchor anchor' : Option Nat}
    {tag tag' : Option Bytes}
    (pairs : List.Forall₂ (fun entry other => anchors.Mirrors entry.1 other.1 ∧
      ∀ name, anchors.text? entry.1 = some name → related name entry.2 other.2) written written') :
    Carries (AreAlike related) (readSection anchors (.mapping anchor tag written)) fun other =>
      readSection other (.mapping anchor' tag' written') := by
  refine carries_mapM pairs ?_
  rintro ⟨key, value⟩ ⟨key', value'⟩ ⟨here, there⟩
  refine (steady_readText key key' here).yielding.bind ?_
  rintro text _ ⟨rfl, yields⟩
  exact carries_pure ⟨rfl, there text (text?_of_readText yields)⟩

theorem carries_readSection {node tree : Node} (mirrors : anchors.Mirrors node tree) :
    Carries (AreAlike fun _ => anchors.Mirrors) (readSection anchors node) fun other =>
      readSection other tree := by
  refine mirrors.carries_follow.bind ?_
  rintro _ tree ⟨rfl, rfl⟩
  cases mirrors with
  | scalar stands =>
    rw [stands]
    simp only
    split
    next => exact carries_pure .nil
    next => exact carries_refuse _ _
  | sequence stands =>
    rw [stands]
    exact carries_refuse _ _
  | @mapping _ anchor anchor' tag entries trees stands lengths keys values =>
    rw [stands]
    have carries : Carries (AreAlike fun _ => anchors.Mirrors)
        (readSection anchors (.mapping anchor tag entries)) fun other =>
          readSection other (.mapping anchor' tag trees) :=
      carries_entries ((forall₂_entries lengths keys values).imp
        fun _ _ both => ⟨both.1, fun _ _ => both.2⟩)
    exact carries

theorem AreAlike.filter (alike : AreAlike related entries others) (name : String) :
    List.Forall₂ (fun entry other => related name entry.2 other.2)
      (entries.filter fun entry => entry.1 == name)
      (others.filter fun entry => entry.1 == name) := by
  induction alike with
  | nil => exact .nil
  | @cons entry other _ _ here _ ih =>
    by_cases own : entry.1 = name
    · rw [List.filter_cons_of_pos (by simp [own]),
        List.filter_cons_of_pos (by simp [← here.1, own])]
      exact .cons (own ▸ here.2) ih
    · rw [List.filter_cons_of_neg (by simp [own]),
        List.filter_cons_of_neg (by simp [← here.1, own])]
      exact ih

theorem carries_unique (alike : AreAlike related entries others) (name : String) :
    Carries (Option.Rel (related name)) (unique name entries) fun _ => unique name others := by
  have filtered := alike.filter name
  unfold unique
  generalize entries.filter _ = found at filtered ⊢
  generalize others.filter _ = found' at filtered ⊢
  cases filtered with
  | nil => exact carries_pure .none
  | cons here rest =>
    cases rest with
    | nil => exact carries_pure (.some here)
    | cons => exact carries_refuse _ _

/-- A relation between the values of a key becomes one between what is read of them. -/
theorem carries_readField {β : Type} {same : Option α → Option β → Prop} {name : String}
    {field : Field α} {field' : Anchors → Field β} (alike : AreAlike related entries others)
    (absent : same none none)
    (present : ∀ child child', related name child child' →
      Carries same (readOptional anchors field child) fun other =>
        readOptional other (field' other) child') :
    Carries same (readField anchors name field entries) fun other =>
      readField other name (field' other) others := by
  refine (carries_unique alike name).bind ?_
  intro found? found?' known
  cases known with
  | none => exact carries_pure absent
  | some here => exact present _ _ here

theorem carries_steady {name : String} {field : Anchors → Field α} (steady : Steady anchors field)
    (alike : AreAlike related entries others)
    (plain : ∀ child child', related name child child' → anchors.Mirrors child child') :
    Carries Eq (readField anchors name (field anchors) entries) fun other =>
      readField other name (field other) others :=
  carries_readField alike rfl fun child child' here =>
    steady.readOptional child child' (plain child child' here)

end Sections

theorem steady_readBoard : Steady anchors readBoard := by
  intro node tree mirrors
  refine (carries_readSection mirrors).bind ?_
  intro entries others alike
  refine (carries_steady steady_readText alike fun _ _ => id).bind ?_
  rintro name _ rfl
  refine (carries_steady (steady_readFormed _ _).readList alike fun _ _ => id).bind ?_
  rintro environments _ rfl
  exact carries_pure rfl

theorem steady_readCommands : Steady anchors readCommands := by
  intro node tree mirrors
  refine (carries_readSection mirrors).bind ?_
  intro entries others alike
  refine (carries_steady (steady_readFormed _ _) alike fun _ _ => id).bind ?_
  rintro build _ rfl
  refine (carries_steady (steady_readFormed _ _) alike fun _ _ => id).bind ?_
  rintro flash _ rfl
  refine (carries_steady (steady_readFormed _ _) alike fun _ _ => id).bind ?_
  rintro run _ rfl
  exact carries_pure rfl

theorem steady_readBenchmark : Steady anchors readBenchmark := by
  intro node tree mirrors
  refine (carries_readSection mirrors).bind ?_
  intro entries others alike
  refine (carries_steady steady_readText alike fun _ _ => id).bind ?_
  rintro name _ rfl
  refine (carries_steady steady_readText alike fun _ _ => id).bind ?_
  rintro filename _ rfl
  refine (carries_steady (steady_readFormed _ _) alike fun _ _ => id).bind ?_
  rintro scaleFactor _ rfl
  refine (carries_steady (steady_readFormed _ _) alike fun _ _ => id).bind ?_
  rintro iterations _ rfl
  refine (carries_steady steady_readBoard.readOptional.readList alike fun _ _ => id).bind ?_
  rintro boards _ rfl
  exact carries_pure rfl

/-! ### Benchmarks and documents -/

/-- The same boards have a name. -/
def SameBoards (boards others : List (Option Board)) : Prop :=
  ∀ entry : String → List BoardBench.Environment → BoardBench.Benchmark,
    (boards.filterMap id).filterMap (Board.expand? entry) =
      (others.filterMap id).filterMap (Board.expand? entry)

/-- Benchmarks whose parts mean the same have the same entries. -/
theorem expand_congr {benchmark other : Benchmark}
    (named : nonBlank? benchmark.name? = nonBlank? other.name?)
    (filed : ∀ name, nonBlank? benchmark.name? = some name →
      (nonBlank? benchmark.filename?).getD name = (nonBlank? other.filename?).getD name)
    (scaled : ∀ name field, Count.resolve name field benchmark.scaleFactor? =
      Count.resolve name field other.scaleFactor?)
    (iterated : ∀ name field, Count.resolve name field benchmark.iterations? =
      Count.resolve name field other.iterations?)
    (listed : SameBoards benchmark.boards other.boards) : benchmark.expand = other.expand := by
  unfold Benchmark.expand
  rw [← named]
  cases found : nonBlank? benchmark.name? with
  | none => rfl
  | some name =>
    simp only
    rw [scaled, iterated, filed name found]
    cases Count.resolve name "scale_factor" other.scaleFactor? with
    | error fault => rfl
    | ok scaleFactor =>
      cases Count.resolve name "iterations" other.iterations? with
      | error fault => rfl
      | ok iterations => exact congrArg Except.ok (listed _)

section Expansion

variable {related : String → Node → Node → Prop} {node tree : Node}
  (opened : Carries (AreAlike related) (readSection anchors node) fun other =>
    readSection other tree)
include opened

/-- Benchmarks that differ in boards without a name at most have the same entries. -/
theorem carries_readBenchmark
    (plain : ∀ name child child', name ≠ "boards" → related name child child' →
      anchors.Mirrors child child')
    (boards : ∀ child child', related "boards" child child' →
      Carries (Option.Rel SameBoards)
        (readOptional anchors (readList anchors (readOptional anchors (readBoard anchors))) child)
        fun other => readOptional other (readList other (readOptional other (readBoard other)))
          child') :
    Carries (fun benchmark other => benchmark.expand = other.expand) (readBenchmark anchors node)
      fun other => readBenchmark other tree := by
  refine opened.bind ?_
  intro entries others alike
  refine (carries_steady steady_readText alike fun _ _ => plain _ _ _ (by decide)).bind ?_
  rintro name _ rfl
  refine (carries_steady steady_readText alike fun _ _ => plain _ _ _ (by decide)).bind ?_
  rintro filename _ rfl
  refine (carries_steady (steady_readFormed _ _) alike fun _ _ => plain _ _ _ (by decide)).bind ?_
  rintro scaleFactor _ rfl
  refine (carries_steady (steady_readFormed _ _) alike fun _ _ => plain _ _ _ (by decide)).bind ?_
  rintro iterations _ rfl
  refine (carries_readField alike .none boards).bind ?_
  intro boards boards' known
  have same : SameBoards (boards.getD []) (boards'.getD []) := by
    cases known with
    | none => exact fun _ => rfl
    | some same => exact same
  exact carries_pure (expand_congr rfl (fun _ _ => rfl) (fun _ _ => rfl) (fun _ _ => rfl) same)

/-- Documents that differ in benchmarks without entries at most have the same configuration. -/
theorem carries_readRoot
    (plain : ∀ name child child', name ≠ "benchmarks" → related name child child' →
      anchors.Mirrors child child')
    (benchmarks : ∀ child child', related "benchmarks" child child' →
      Carries (Option.Rel fun all others => expandAll all = expandAll others)
        (readOptional anchors (readList anchors (readBenchmark anchors)) child)
        fun other => readOptional other (readList other (readBenchmark other)) child') :
    Carries (fun descriptor other => descriptor.expand = other.expand) (readRoot anchors node)
      fun other => readRoot other tree := by
  refine opened.bind ?_
  intro entries others alike
  refine (carries_readField alike .none benchmarks).bind ?_
  intro all all' same
  refine (carries_unique alike "commands").bind ?_
  intro commands? commands?' known
  have ends (commands : Commands) :
      ({ benchmarks? := all, commands } : Descriptor).expand =
        ({ benchmarks? := all', commands } : Descriptor).expand := by
    cases same with
    | none => rfl
    | some same => simp only [Descriptor.expand, same]
  cases known with
  | none => exact carries_pure (ends {})
  | some here =>
    refine (steady_readCommands _ _ (plain _ _ _ (by decide) here)).bind ?_
    rintro commands _ rfl
    exact carries_pure (ends commands)

end Expansion

theorem expandAll_congr {benchmarks others : List Benchmark}
    (same : List.Forall₂ (fun benchmark other => benchmark.expand = other.expand) benchmarks
      others) : expandAll benchmarks = expandAll others := by
  induction same with
  | nil => rfl
  | cons here _ ih => rw [expandAll, expandAll, here, ih]

theorem carries_readBoards {node tree : Node} (mirrors : anchors.Mirrors node tree) :
    Carries (Option.Rel SameBoards)
      (readOptional anchors (readList anchors (readOptional anchors (readBoard anchors))) node)
      fun other => readOptional other (readList other (readOptional other (readBoard other)))
        tree := by
  refine carries_readOptional mirrors
    ((steady_readBoard.readOptional.readList _ tree mirrors.target).mono ?_)
  rintro boards _ rfl entry
  rfl

theorem carries_readBenchmark_of_mirrors (node tree : Node) (mirrors : anchors.Mirrors node tree) :
    Carries (fun benchmark other => benchmark.expand = other.expand) (readBenchmark anchors node)
      fun other => readBenchmark other tree := by
  refine (steady_readBenchmark node tree mirrors).mono ?_
  rintro benchmark _ rfl
  rfl

theorem carries_readBenchmarks {node tree : Node} (mirrors : anchors.Mirrors node tree) :
    Carries (Option.Rel fun all others => expandAll all = expandAll others)
      (readOptional anchors (readList anchors (readBenchmark anchors)) node)
      fun other => readOptional other (readList other (readBenchmark other)) tree := by
  have listed := carries_readList mirrors.target carries_readBenchmark_of_mirrors
  exact carries_readOptional mirrors (listed.mono fun _ _ => expandAll_congr)

theorem carries_readRoot_of_mirrors {node tree : Node} (mirrors : anchors.Mirrors node tree) :
    Carries (fun descriptor other => descriptor.expand = other.expand) (readRoot anchors node)
      fun other => readRoot other tree := by
  refine carries_readRoot (carries_readSection mirrors) (fun _ _ _ _ here => here) ?_
  intro child child' here
  exact carries_readBenchmarks here

end Descriptor

end BoardBench
