import BoardBench.Config.Reading
import Mathlib.Data.List.Forall2

/-!
# What readers yield

A reader that yields a result has found the parts that the result is made of. This is shown for each
way in which readers are put together, so that what a whole document yields comes down to what
stands where in its tree. Aliases are looked through everywhere, and how many of them were followed
does not matter.
-/
namespace BoardBench

open Yaml

/-! ### Results -/

namespace Yaml.Read

variable {α β : Type}

/-- A reading that has followed some number of aliases before ends with the result. -/
def Yields (read : Read α) (result : α) : Prop :=
  ∃ followed after, read followed = some (result, after)

theorem bind_eq_some_iff {first : Read α} {next : α → Read β} {followed after : Nat} {result : β} :
    (first >>= next) followed = some (result, after) ↔
      ∃ value between, first followed = some (value, between) ∧
        next value between = some (result, after) := by
  change (first followed).bind (fun found => next found.1 found.2) = _ ↔ _
  rw [Option.bind_eq_some_iff]
  constructor
  · rintro ⟨⟨value, between⟩, found, ended⟩
    exact ⟨value, between, found, ended⟩
  · rintro ⟨value, between, found, ended⟩
    exact ⟨(value, between), found, ended⟩

theorem Yields.of_bind {first : Read α} {next : α → Read β} {result : β}
    (yields : Yields (first >>= next) result) :
    ∃ value, Yields first value ∧ Yields (next value) result := by
  obtain ⟨followed, after, ended⟩ := yields
  obtain ⟨value, between, found, ended⟩ := bind_eq_some_iff.mp ended
  exact ⟨value, ⟨followed, between, found⟩, between, after, ended⟩

@[simp] theorem yields_pure {value result : α} :
    Yields (pure value : Read α) result ↔ value = result := by
  constructor
  · rintro ⟨followed, after, ended⟩
    cases ended
    rfl
  · rintro rfl
    exact ⟨0, 0, rfl⟩

@[simp] theorem yields_refuse {result : α} : ¬Yields (Anchors.refuse : Read α) result := by
  rintro ⟨followed, after, ended⟩
  cases ended

@[simp] theorem yields_lift {found? : Option α} {result : α} :
    Yields (liftM found? : Read α) result ↔ found? = some result := by
  cases found? with
  | none =>
    refine ⟨?_, nofun⟩
    rintro ⟨followed, after, ended⟩
    cases ended
  | some value =>
    constructor
    · rintro ⟨followed, after, ended⟩
      cases ended
      rfl
    · rintro same
      cases same
      exact ⟨0, 0, rfl⟩

theorem Yields.of_mapM {γ : Type} {read : γ → Read α} {items : List γ} {results : List α}
    (yields : Yields (items.mapM read) results) :
    List.Forall₂ (fun item result => Yields (read item) result) items results := by
  induction items generalizing results with
  | nil =>
    rw [List.mapM_nil, yields_pure] at yields
    exact yields ▸ .nil
  | cons item rest ih =>
    rw [List.mapM_cons] at yields
    obtain ⟨first, here, more⟩ := yields.of_bind
    obtain ⟨others, there, ended⟩ := more.of_bind
    rw [yields_pure] at ended
    exact ended ▸ .cons here (ih there)

end Yaml.Read

/-! ### Aliases -/

namespace Yaml

/-- All nodes carry an anchor. -/
def AllAnchored (nodes : List (Nat × Node)) : Prop :=
  ∀ entry ∈ nodes, entry.2.anchor?.isSome

mutual
theorem Node.allAnchored {found : List (Nat × Node)} (given : AllAnchored found) :
    (node : Node) → AllAnchored (node.anchored found)
  | .scalar anchor tag style text => by
    cases anchor with
    | none => exact given
    | some number => exact List.forall_mem_cons.mpr ⟨rfl, given⟩
  | .aliasOf number => given
  | .sequence anchor tag items => by
    cases anchor with
    | none => exact Node.allAnchored_items given items
    | some number =>
      exact Node.allAnchored_items (List.forall_mem_cons.mpr ⟨rfl, given⟩) items
  | .mapping anchor tag entries => by
    cases anchor with
    | none => exact Node.allAnchored_entries given entries
    | some number =>
      exact Node.allAnchored_entries (List.forall_mem_cons.mpr ⟨rfl, given⟩) entries

theorem Node.allAnchored_items {found : List (Nat × Node)} (given : AllAnchored found) :
    (items : List Node) → AllAnchored (Node.anchoredItems found items)
  | [] => given
  | item :: rest => Node.allAnchored_items (item.allAnchored given) rest

theorem Node.allAnchored_entries {found : List (Nat × Node)} (given : AllAnchored found) :
    (entries : List (Node × Node)) → AllAnchored (Node.anchoredEntries found entries)
  | [] => given
  | (key, value) :: rest =>
    Node.allAnchored_entries (value.allAnchored (key.allAnchored given)) rest
end

namespace Anchors

variable (anchors : Anchors)

/-- The node itself, or the one that it is an alias of. -/
def target : Node → Node
  | .aliasOf anchor => (anchors.nodes.lookup anchor).getD .missing
  | node => node

/-- No alias is one of another alias. -/
def IsGrounded : Prop :=
  ∀ node, anchors.target (anchors.target node) = anchors.target node

theorem isGrounded_of (root : Node) : (Anchors.of root).IsGrounded := by
  intro node
  cases node with
  | aliasOf anchor =>
    simp only [target]
    cases found : (Anchors.of root).nodes.lookup anchor with
    | none => rfl
    | some node =>
      have all : AllAnchored (Anchors.of root).nodes := root.allAnchored (by simp [AllAnchored])
      obtain ⟨before, after, split, -⟩ := List.lookup_eq_some_iff.mp found
      have anchored : node.anchor?.isSome := all (anchor, node) (by simp [split])
      cases node with
      | aliasOf number => cases anchored
      | scalar => rfl
      | sequence => rfl
      | mapping => rfl
  | scalar => rfl
  | sequence => rfl
  | mapping => rfl

theorem eq_target_of_follow {node found : Node} (yields : Read.Yields (anchors.follow node) found) :
    found = anchors.target node := by
  obtain ⟨followed, after, ended⟩ := yields
  cases node with
  | aliasOf anchor =>
    simp only [follow, Option.ite_none_right_eq_some, Option.map_eq_some_iff,
      Prod.mk.injEq] at ended
    obtain ⟨-, node, known, rfl, -⟩ := ended
    rw [target, known]
    rfl
  | scalar =>
    cases ended
    rfl
  | sequence =>
    cases ended
    rfl
  | mapping =>
    cases ended
    rfl

/-! ### What stands where -/

/-- The text of a scalar. -/
def text? (node : Node) : Option String :=
  match anchors.target node with
  | .scalar _ _ _ text => some text
  | _ => none

def items (node : Node) : List Node :=
  match anchors.target node with
  | .sequence _ _ items => items
  | _ => []

def entries (node : Node) : List (Node × Node) :=
  match anchors.target node with
  | .mapping _ _ entries => entries
  | _ => []

/-- The node stands for nothing: a plain scalar that is empty or spells null, with no tag or with
that of null. -/
def isNull (node : Node) : Bool :=
  match anchors.target node with
  | .scalar _ tag .plain text =>
    match tag with
    | none => text.isEmpty || isNullText text
    | some tag => tag == standardTag "null" && isNullText text
  | _ => false

/-- What stands at a key, unless it is null. -/
def part? (name : String) (node : Node) : Option Node :=
  (((anchors.entries node).find? fun entry => anchors.text? entry.1 == some name).map
    Prod.snd).filter fun value => !anchors.isNull value

def textAt? (name : String) (node : Node) : Option String :=
  (anchors.part? name node).bind anchors.text?

def itemsAt (name : String) (node : Node) : List Node :=
  ((anchors.part? name node).map anchors.items).getD []

theorem part?_of_isNull {node : Node} (null : anchors.isNull node = true) (name : String) :
    anchors.part? name node = none := by
  have leaf : anchors.entries node = [] := by
    unfold isNull at null
    unfold entries
    split at null
    next stands => rw [stands]
    next => cases null
  rw [part?, leaf]
  rfl

section Grounded

variable {anchors} (grounded : anchors.IsGrounded) (node : Node)
include grounded

theorem text?_target : anchors.text? (anchors.target node) = anchors.text? node := by
  unfold text?
  rw [grounded]

theorem items_target : anchors.items (anchors.target node) = anchors.items node := by
  unfold items
  rw [grounded]

theorem part?_target (name : String) :
    anchors.part? name (anchors.target node) = anchors.part? name node := by
  unfold part? entries
  rw [grounded]

end Grounded

/-- What a node means where any type of value may stand. -/
inductive Means (anchors : Anchors) : Node → Value → Prop
  | scalar {node : Node} {anchor : Option Nat} {tag : Option Bytes} {style : Style} {text : String}
      {value : Value} : anchors.target node = .scalar anchor tag style text →
      scalarValue? tag style text = some value → Means anchors node value
  | list {node : Node} {anchor : Option Nat} {tag : Option Bytes} {items : List Node}
      {values : List Value} : anchors.target node = .sequence anchor tag items →
      tag.any isLocalTag = false → List.Forall₂ (Means anchors) items values →
      Means anchors node (.list values)
  | map {node : Node} {anchor : Option Nat} {tag : Option Bytes} {entries : List (Node × Node)}
      {values : List (Value × Value)} : anchors.target node = .mapping anchor tag entries →
      tag.any isLocalTag = false →
      List.Forall₂ (fun entry value => Means anchors entry.1 value.1) entries values →
      List.Forall₂ (fun entry value => Means anchors entry.2 value.2) entries values →
      Means anchors node (.map values)

variable {anchors} in
theorem means_target (grounded : anchors.IsGrounded) {node : Node} {value : Value}
    (means : Means anchors (anchors.target node) value) : Means anchors node value := by
  cases means with
  | scalar stands => exact .scalar (grounded node ▸ stands) ‹_›
  | list stands => exact .list (grounded node ▸ stands) ‹_› ‹_›
  | map stands => exact .map (grounded node ▸ stands) ‹_› ‹_› ‹_›

theorem means_of_value {depth : Nat} {node : Node} {value : Value}
    (yields : Read.Yields (anchors.value depth node) value) : Means anchors node value := by
  unfold Anchors.value at yields
  obtain ⟨found, followed, more⟩ := yields.of_bind
  have target := anchors.eq_target_of_follow followed
  cases found with
  | scalar anchor tag style text => exact .scalar target.symm (Read.yields_lift.mp more)
  | aliasOf anchor => exact absurd more Read.yields_refuse
  | sequence anchor tag items =>
    cases depth with
    | zero => exact absurd more Read.yields_refuse
    | succ depth =>
      simp only at more
      split at more
      next => exact absurd more Read.yields_refuse
      next standard =>
        obtain ⟨values, each, ended⟩ := more.of_bind
        rw [← Read.yields_pure.mp ended]
        exact .list target.symm (by simpa using standard)
          (each.of_mapM.imp fun _ _ => means_of_value)
  | mapping anchor tag entries =>
    cases depth with
    | zero => exact absurd more Read.yields_refuse
    | succ depth =>
      simp only at more
      split at more
      next => exact absurd more Read.yields_refuse
      next standard =>
        obtain ⟨values, each, ended⟩ := more.of_bind
        rw [← Read.yields_pure.mp ended]
        have both {entry : Node × Node} {value : Value × Value}
            (yields : Read.Yields (do
              return (← anchors.value depth entry.1, ← anchors.value depth entry.2)) value) :
            Read.Yields (anchors.value depth entry.1) value.1 ∧
              Read.Yields (anchors.value depth entry.2) value.2 := by
          obtain ⟨key, first, more⟩ := yields.of_bind
          obtain ⟨item, second, ended⟩ := more.of_bind
          cases Read.yields_pure.mp ended
          exact ⟨first, second⟩
        exact .map target.symm (by simpa using standard)
          (each.of_mapM.imp fun _ _ yields => means_of_value (both yields).1)
          (each.of_mapM.imp fun _ _ yields => means_of_value (both yields).2)

end Anchors

end Yaml

/-! ### Fields -/

namespace Descriptor

open Read

variable {anchors : Anchors} {α : Type}

theorem text?_of_readText {node : Node} {text : String}
    (yields : Yields (readText anchors node) text) : anchors.text? node = some text := by
  obtain ⟨found, followed, more⟩ := yields.of_bind
  rw [Anchors.text?, ← anchors.eq_target_of_follow followed]
  cases found with
  | scalar anchor tag style written => exact congrArg some (yields_pure.mp more)
  | sequence => exact absurd more yields_refuse
  | mapping => exact absurd more yields_refuse
  | aliasOf => exact absurd more yields_refuse

/-- Nothing is read from a null, and something from any other node. -/
theorem of_readOptional {field : Field α} {node : Node} {result : Option α}
    (yields : Yields (readOptional anchors field node) result) :
    anchors.isNull node = true ∧ result = none ∨
      anchors.isNull node = false ∧
        ∃ value, result = some value ∧ Yields (field (anchors.target node)) value := by
  obtain ⟨found, followed, more⟩ := yields.of_bind
  rw [Anchors.isNull, ← anchors.eq_target_of_follow followed]
  have present (more : Yields (do return some (← field found)) result) :
      ∃ value, result = some value ∧ Yields (field found) value := by
    obtain ⟨value, here, ended⟩ := more.of_bind
    exact ⟨value, (yields_pure.mp ended).symm, here⟩
  cases found with
  | sequence => exact .inr ⟨rfl, present more⟩
  | mapping => exact .inr ⟨rfl, present more⟩
  | aliasOf => exact .inr ⟨rfl, present more⟩
  | scalar anchor tag style text =>
    cases style with
    | plain =>
      cases tag with
      | none =>
        simp only at more ⊢
        split at more
        next null => exact .inl ⟨null, (yields_pure.mp more).symm⟩
        next visible => exact .inr ⟨by simpa using visible, present more⟩
      | some tag =>
        simp only at more ⊢
        split at more
        next standard =>
          split at more
          next null => exact .inl ⟨by simp [standard, null], (yields_pure.mp more).symm⟩
          next => exact absurd more yields_refuse
        next other => exact .inr ⟨by simp [other], present more⟩
    | singleQuoted => exact .inr ⟨rfl, present more⟩
    | doubleQuoted => exact .inr ⟨rfl, present more⟩
    | literal => exact .inr ⟨rfl, present more⟩
    | folded => exact .inr ⟨rfl, present more⟩

theorem of_readList {field : Field α} {node : Node} {results : List α}
    (yields : Yields (readList anchors field node) results) :
    List.Forall₂ (fun item result => Yields (field item) result) (anchors.items node) results := by
  obtain ⟨found, followed, more⟩ := yields.of_bind
  rw [Anchors.items, ← anchors.eq_target_of_follow followed]
  cases found with
  | sequence anchor tag items => exact more.of_mapM
  | scalar anchor tag style text =>
    simp only at more
    split at more
    next => exact yields_pure.mp more ▸ .nil
    next => exact absurd more yields_refuse
  | mapping => exact absurd more yields_refuse
  | aliasOf => exact absurd more yields_refuse

/-- The entries of a mapping and what was read of them: the texts of the keys, and the values as
they are. -/
def HaveKeys {κ ν : Type} (key? : κ → Option String) : List (κ × ν) → List (String × ν) → Prop :=
  List.Forall₂ fun entry read => key? entry.1 = some read.1 ∧ read.2 = entry.2

theorem HaveKeys.find? {κ ν : Type} {key? : κ → Option String} {written : List (κ × ν)}
    {entries : List (String × ν)} (same : HaveKeys key? written entries) (name : String) :
    (entries.find? fun entry => entry.1 == name).map Prod.snd =
      (written.find? fun entry => key? entry.1 == some name).map Prod.snd := by
  induction same with
  | nil => rfl
  | @cons entry read _ _ here _ ih =>
    simp only [List.find?_cons, here.1, Option.some_beq_some]
    by_cases own : read.1 == name
    · simp [own, here.2]
    · simp [own, ih]

theorem haveKeys_of_readSection {node : Node} {entries : List (String × Node)}
    (yields : Yields (readSection anchors node) entries) :
    HaveKeys anchors.text? (anchors.entries node) entries := by
  obtain ⟨found, followed, more⟩ := yields.of_bind
  rw [Anchors.entries, ← anchors.eq_target_of_follow followed]
  cases found with
  | mapping anchor tag written =>
    refine more.of_mapM.imp ?_
    intro entry read both
    obtain ⟨key, here, ended⟩ := both.of_bind
    cases yields_pure.mp ended
    exact ⟨text?_of_readText here, rfl⟩
  | scalar anchor tag style text =>
    simp only at more
    split at more
    next => exact yields_pure.mp more ▸ .nil
    next => exact absurd more yields_refuse
  | sequence => exact absurd more yields_refuse
  | aliasOf => exact absurd more yields_refuse

theorem find?_of_unique {name : String} {entries : List (String × Node)} {found? : Option Node}
    (yields : Yields (unique name entries) found?) :
    found? = (entries.find? fun entry => entry.1 == name).map Prod.snd := by
  unfold unique at yields
  rw [← List.head?_filter]
  split at yields
  next none =>
    rw [none, ← yields_pure.mp yields]
    rfl
  next entry one =>
    rw [one, ← yields_pure.mp yields]
    rfl
  next => exact absurd yields yields_refuse

theorem of_readField {name : String} {field : Field α} {node : Node}
    {entries : List (String × Node)} {result : Option α}
    (opened : Yields (readSection anchors node) entries)
    (yields : Yields (readField anchors name field entries) result) :
    Option.Rel (fun child value => Yields (field (anchors.target child)) value)
      (anchors.part? name node) result := by
  obtain ⟨found?, single, more⟩ := yields.of_bind
  have found := find?_of_unique single
  rw [(haveKeys_of_readSection opened).find?] at found
  rw [Anchors.part?, ← found]
  cases found? with
  | none => exact yields_pure.mp more ▸ .none
  | some child =>
    rcases of_readOptional more with ⟨null, rfl⟩ | ⟨visible, value, rfl, here⟩
    · rw [Option.filter_some, if_neg (by simp [null])]
      exact .none
    · rw [Option.filter_some, if_pos (by simp [visible])]
      exact .some here

theorem of_readFormed {depth : Nat} {form : Value → Option α} {node : Node} {result : α}
    (yields : Yields (readFormed anchors depth form node) result) :
    ∃ value, anchors.Means node value ∧ form value = some result := by
  obtain ⟨value, here, formed⟩ := yields.of_bind
  exact ⟨value, anchors.means_of_value here, yields_lift.mp formed⟩

section Parts

variable (grounded : anchors.IsGrounded) {name : String} {node : Node}
  {entries : List (String × Node)} (opened : Yields (readSection anchors node) entries)
include grounded opened

theorem textAt?_of_readField {result : Option String}
    (yields : Yields (readField anchors name (readText anchors) entries) result) :
    anchors.textAt? name node = result := by
  have related := of_readField opened yields
  rw [Anchors.textAt?]
  generalize anchors.part? name node = part? at related
  cases related with
  | none => rfl
  | some here => rw [Option.bind_some, ← Anchors.text?_target grounded, text?_of_readText here]

theorem itemsAt_of_readField {field : Field α} {result : Option (List α)}
    (yields : Yields (readField anchors name (readList anchors field) entries) result) :
    List.Forall₂ (fun item value => Yields (field item) value) (anchors.itemsAt name node)
      (result.getD []) := by
  have related := of_readField opened yields
  rw [Anchors.itemsAt]
  generalize anchors.part? name node = part? at related
  cases related with
  | none => exact .nil
  | some here =>
    rw [Option.map_some, Option.getD_some, ← Anchors.items_target grounded]
    exact of_readList here

theorem formed_of_readField {depth : Nat} {form : Value → Option α} {result : Option α}
    (yields : Yields (readField anchors name (readFormed anchors depth form) entries) result) :
    Option.Rel (fun child formed => ∃ value, anchors.Means child value ∧ form value = some formed)
      (anchors.part? name node) result := by
  have related := of_readField opened yields
  generalize anchors.part? name node = part? at related ⊢
  cases related with
  | none => exact .none
  | some here =>
    obtain ⟨value, means, formed⟩ := of_readFormed here
    exact .some ⟨value, Anchors.means_target grounded means, formed⟩

end Parts

end Descriptor

end BoardBench
