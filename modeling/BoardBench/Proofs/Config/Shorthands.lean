import BoardBench.Proofs.Config.Evaluation
import BoardBench.Proofs.Config.Validation
import BoardBench.Proofs.Config.Writing

/-!
# Short and long forms

Many parts of a document have a short form: an environment is a name, a command is a line, a count
is a number, and what is absent has a default.

Main result: the two forms of a part are both read, or both refused, and what is read of them
expands to the same.

Proof strategy: a form that is a scalar or a list of scalars means its value with any anchors. Only
in the particulars of an environment there are other nodes around, and these are read as before.
-/
namespace BoardBench

open Yaml

/-! ### Forms of one part -/

/-- A text with blanks around it. -/
def Pads (text padded : String) : Prop :=
  ∃ before after, AllBlank before ∧ AllBlank after ∧ padded.toList = before ++ text.toList ++ after

namespace Yaml.Node

/-- A sequence of scalars that mean the texts. -/
inductive ListsTexts : Node → List String → Prop
  | intro {anchor : Option Nat} {tag : Option Bytes} {items : List Node} {texts : List String} :
    tag.any isLocalTag = false →
    List.Forall₂ (fun item text => item.IsScalar (.text text)) items texts →
    ListsTexts (.sequence anchor tag items) texts

end Yaml.Node

namespace Descriptor

/-- Nothing stands at a key, or a null does. -/
inductive IsAbsent : Option Node → Prop
  | missing : IsAbsent none
  | plain {anchor : Option Nat} {text : String} : (text.isEmpty || isNullText text) = true →
    IsAbsent (some (.scalar anchor none .plain text))
  | tagged {anchor : Option Nat} {text : String} : isNullText text = true →
    IsAbsent (some (.scalar anchor (some (standardTag "null")) .plain text))

/-- The name of a benchmark or board is padded. -/
inductive PadsName : Option Node → Option Node → Prop
  | intro {node node' : Node} {text text' : String} : node.Shows text → node'.Shows text' →
    Pads text text' → PadsName (some node) (some node')

/-- The filename is absent or blank, and becomes the name, whatever blanks are around either. -/
inductive FillsFilename (name? : Option String) : Option Node → Option Node → Prop
  | absent {child? : Option Node} {node : Node} {core name text : String} : IsAbsent child? →
    name? = some name → Pads core name → node.Shows text → Pads core text →
    FillsFilename name? child? (some node)
  | blank {child node : Node} {blank core name text : String} : child.Shows blank →
    AllBlank blank.toList → name? = some name → Pads core name → node.Shows text →
    Pads core text → FillsFilename name? (some child) (some node)

/-- A whole number that fits 64 bits without a sign. -/
inductive IsNumber : Value → UInt64 → Prop
  | natural (count : UInt64) : IsNumber (.natural count) count
  | signed {number : Int} : 0 ≤ number → IsNumber (.signed number) (.ofNat number.toNat)

/-- A count is absent and becomes 1, or it is a number and becomes the text of its digits. -/
inductive RewritesCount : Option Node → Option Node → Prop
  | absent {child? : Option Node} {node : Node} : IsAbsent child? → node.IsScalar (.natural 1) →
    RewritesCount child? (some node)
  | number {child node : Node} {value : Value} {count : UInt64} {text : String} :
    child.IsScalar value → IsNumber value count → node.IsScalar (.text text) →
    Pads (toString count.toNat) text → RewritesCount (some child) (some node)

/-- A command is absent and becomes the default, or it is a line and becomes the list of its
words. -/
inductive RewritesCommand (default : List String) : Option Node → Option Node → Prop
  | absent {child? : Option Node} {node : Node} : IsAbsent child? → node.ListsTexts default →
    RewritesCommand default child? (some node)
  | line {child node : Node} {line : String} {words : List (List Char)} :
    child.IsScalar (.text line) → AreWords line.toList words →
    node.ListsTexts (words.map String.ofList) → RewritesCommand default (some child) (some node)

/-- An environment that is its name becomes a mapping with the name, or the name is padded in either
form. The number of the part may stand for its key. -/
inductive RewritesEnvironment : Node → Node → Prop
  | named {node key value : Node} {anchor : Option Nat} {tag : Option Bytes} {name : String} :
    node.IsScalar (.text name) → tag.any isLocalTag = false → key.IsScalar (.text "name") →
    value.IsScalar (.text name) →
    RewritesEnvironment node (.mapping anchor tag [(key, value)])
  | padded {node node' : Node} {name name' : String} : node.IsScalar (.text name) →
    node'.IsScalar (.text name') → Pads name name' → RewritesEnvironment node node'
  | paddedEntry {key value value' : Node} {named : Value} {anchor : Option Nat}
      {tag : Option Bytes} {name name' : String} (before after : List (Node × Node)) :
    key.IsScalar named → named = .text "name" ∨ named = .natural 0 → value.IsScalar (.text name) →
    value'.IsScalar (.text name') → Pads name name' →
    RewritesEnvironment (.mapping anchor tag (before ++ (key, value) :: after))
      (.mapping anchor tag (before ++ (key, value') :: after))

end Descriptor

/-! ### What forms mean -/

theorem Pads.trimChars {text padded : String} (pads : Pads text padded) :
    trimChars padded.toList = BoardBench.trimChars text.toList := by
  obtain ⟨before, after, left, right, split⟩ := pads
  rw [split, trimChars_pad left right]

theorem Pads.trim {text padded : String} (pads : Pads text padded) :
    trim padded = BoardBench.trim text := by
  rw [BoardBench.trim, pads.trimChars, BoardBench.trim]

theorem isTrimmed_toString (number : Nat) : IsTrimmed (toString number).toList :=
  isTrimmed_of_isDigit fun _ => isDigit_of_mem_toString

theorem countOfText?_toString (count : UInt64) :
    countOfText? (toString count.toNat).toList = some count := by
  rw [countOfText?_eq_some_iff, toList_toString]
  exact denotes_toDigits 0 count.toNat

namespace Descriptor

open Read

variable {α : Type} {node node' : Node} {child? child?' : Option Node}

/-! ### What is read of a form -/

theorem settles_of_isAbsent (absent : IsAbsent child?) (field : Anchors → Field α) :
    Settles (fun anchors => readPart anchors (field anchors) child?) none := by
  cases absent with
  | missing => exact settles_pure none
  | @plain anchor text null =>
    intro anchors followed
    change (if text.isEmpty || isNullText text then _ else _ : Read (Option α)) followed = _
    rw [if_pos null]
    rfl
  | @tagged anchor text null =>
    intro anchors followed
    change (if standardTag "null" = standardTag "null" then
      if isNullText text then _ else _ else _ : Read (Option α)) followed = _
    rw [if_pos rfl, if_pos null]
    rfl

theorem settles_readText {text : String} (shows : node.Shows text) :
    Settles (fun anchors => readPart anchors (readText anchors) (some node)) (some text) := by
  simp only [readPart, readOptional_of_shows shows]
  cases shows <;> exact fun _ _ => rfl

theorem hasValue_of_listsTexts {texts : List String} (lists : node.ListsTexts texts)
    (depth : Nat) : node.HasValue (depth + 1) (.list (texts.map .text)) := by
  cases lists with
  | intro standard each =>
    refine Node.hasValue_sequence standard (List.forall₂_map_right_iff.mpr (each.imp ?_))
    exact fun _ _ isScalar => Node.hasValue_scalar isScalar depth

theorem settles_scalar {depth : Nat} {form : Value → Option α} {value : Value} {result : α}
    (isScalar : node.IsScalar value) (nothing : form .null = none)
    (formed : form value = some result) :
    Settles (fun anchors => readPart anchors (readFormed anchors depth form) (some node))
      (some result) := by
  have visible : value ≠ .null := by
    rintro rfl
    rw [nothing] at formed
    cases formed
  exact settles_readOptional_scalar isScalar visible
    (settles_readFormed (Node.hasValue_scalar isScalar depth) formed)

/-! ### Texts, counts and commands -/

def SameName (name? other? : Option String) : Prop :=
  nonBlank? name? = nonBlank? other?

theorem corresponds_padsName (pads : PadsName child? child?') :
    Corresponds SameName (fun anchors => readPart anchors (readText anchors) child?)
      fun anchors => readPart anchors (readText anchors) child?' := by
  cases pads with
  | @intro node node' text text' shows shows' pads =>
    have same : SameName (some text) (some text') := by
      rw [SameName, nonBlank?, nonBlank?, Option.map_some, Option.map_some, pads.trim]
    exact .settle same (settles_readText shows) (settles_readText shows')

/-- The file of a benchmark with the name is the same. -/
def SameFile (name? file? other? : Option String) : Prop :=
  ∀ name, nonBlank? name? = some name →
    (nonBlank? file?).getD name = (nonBlank? other?).getD name

theorem corresponds_fillsFilename {name? : Option String}
    (fills : FillsFilename name? child? child?') :
    Corresponds (SameFile name?) (fun anchors => readPart anchors (readText anchors) child?)
      fun anchors => readPart anchors (readText anchors) child?' := by
  have filled {core name text : String} (named : Pads core name) (pads : Pads core text)
      {file? : Option String} (blank : nonBlank? file? = none) :
      SameFile (some name) file? (some text) := by
    have same : trim text = trim name := pads.trim.trans named.trim.symm
    rintro _ named
    obtain ⟨trimmed, visible⟩ := Option.filter_eq_some_iff.mp named
    cases trimmed
    have found : nonBlank? (some text) = some (trim name) := by
      rw [nonBlank?, Option.map_some, same, Option.filter_some, if_pos visible]
    rw [blank, found]
    rfl
  cases fills with
  | absent absent found named shows pads =>
    subst found
    exact .settle (filled named pads rfl) (settles_of_isAbsent absent readText)
      (settles_readText shows)
  | @blank child node blank core name text shown all found named shows pads =>
    subst found
    have nothing : nonBlank? (some blank) = none := by
      have gone : trimChars blank.toList = [] := by
        rw [← List.nil_append blank.toList, trimChars_append_blank [] all]
        rfl
      rw [nonBlank?, Option.map_some, trim, gone]
      rfl
    exact .settle (filled named pads nothing) (settles_readText shown) (settles_readText shows)

/-- The count is the same, or the same text is refused. -/
def SameCount (count? other? : Option Count) : Prop :=
  ∀ name field, Count.resolve name field count? = Count.resolve name field other?

theorem corresponds_rewritesCount (depth : Nat) (rewrites : RewritesCount child? child?') :
    Corresponds SameCount
      (fun anchors => readPart anchors (readFormed anchors depth countOf?) child?)
      fun anchors => readPart anchors (readFormed anchors depth countOf?) child?' := by
  cases rewrites with
  | absent absent isOne =>
    have same : SameCount none (some (.number 1)) := fun _ _ => rfl
    exact .settle same
      (settles_of_isAbsent absent fun anchors => readFormed anchors depth countOf?)
      (settles_scalar isOne rfl rfl)
  | @number child node value count text isScalar isNumber isText pads =>
    have counted : countOf? value = some (.number count) := by
      cases isNumber with
      | natural => rfl
      | signed positive => exact if_pos positive
    have same : SameCount (some (.number count)) (some (.text text)) := by
      intro name field
      have read : countOfText? (trimChars text.toList) = some count := by
        rw [pads.trimChars, isTrimmed_toString, countOfText?_toString]
      simp only [Count.resolve, read]
    exact .settle same (settles_scalar isScalar rfl counted)
      (settles_scalar isText rfl rfl)

def SameCommand (default : List String) (command? other? : Option Command) : Prop :=
  (command?.map Command.words).getD default = (other?.map Command.words).getD default

theorem settles_command {texts : List String} (lists : node.ListsTexts texts) (depth : Nat) :
    Settles
      (fun anchors => readPart anchors (readFormed anchors (depth + 1) commandOf?) (some node))
      (some (.arguments texts)) := by
  have present := settles_present
    (settles_readFormed (hasValue_of_listsTexts lists depth) (commandOf?_texts texts))
  cases lists
  exact present

theorem corresponds_rewritesCommand {default : List String} (depth : Nat)
    (rewrites : RewritesCommand default child? child?') :
    Corresponds (SameCommand default)
      (fun anchors => readPart anchors (readFormed anchors (depth + 1) commandOf?) child?)
      fun anchors => readPart anchors (readFormed anchors (depth + 1) commandOf?) child?' := by
  cases rewrites with
  | absent absent lists =>
    have same : SameCommand default none (some (.arguments default)) := rfl
    exact .settle same
      (settles_of_isAbsent absent fun anchors => readFormed anchors (depth + 1) commandOf?)
      (settles_command lists depth)
  | @line child node line parts isLine areWords lists =>
    have same : SameCommand default (some (.line line))
        (some (.arguments (parts.map String.ofList))) :=
      congrArg (List.map String.ofList) ((areWords_iff _ _).mp areWords)
    exact .settle same (settles_scalar isLine rfl rfl) (settles_command lists depth)

/-! ### Environments -/

theorem uniqueValue?_of_ne {part : String} (apart : part ≠ "name") (value : Value)
    (front back : List (String × Value)) :
    uniqueValue? part (front ++ ("name", value) :: back) = uniqueValue? part (front ++ back) := by
  unfold uniqueValue?
  rw [List.filter_append, List.filter_append, List.filter_cons_of_neg (by simp [apart.symm])]

/-- Whether a name stands only once does not depend on the name. -/
theorem uniqueValue?_name (front back : List (String × Value)) :
    ∃ single : Bool, ∀ value,
      uniqueValue? "name" (front ++ ("name", value) :: back) =
        if single then some (some value) else none := by
  cases others : (front ++ back).filter fun entry => entry.1 == "name" with
  | nil =>
    rw [List.filter_append, List.append_eq_nil_iff] at others
    refine ⟨true, fun value => ?_⟩
    unfold uniqueValue?
    rw [List.filter_append, List.filter_cons_of_pos (by simp), others.1, others.2]
    rfl
  | cons other rest =>
    refine ⟨false, fun value => ?_⟩
    unfold uniqueValue?
    rw [List.filter_append] at others ⊢
    rw [List.filter_cons_of_pos (by simp)]
    generalize front.filter _ = first at others
    generalize back.filter _ = last at others
    match first, last, others with
    | [], _ :: _, _ => rfl
    | [_], _, _ => rfl
    | _ :: _ :: _, _, _ => rfl

/-- The parts of an environment but for its name. -/
def entryParts? (entries : List (String × Value)) :
    Option (Option String × Bool × List (String × Variable)) := do
  let label ← environmentLabel? (← uniqueValue? "label" entries)
  let disabled ← environmentSwitch? (← uniqueValue? "disabled" entries)
  let bindings ← match ← uniqueValue? "env" entries with
    | none => some []
    | some value => bindingsOf? value
  return (label, disabled, bindings)

/-- What is read of an environment depends on its name in one place only. -/
theorem environmentOf?_entry {key : Value} (named : environmentKey? key = some "name")
    (front back : List (Value × Value)) :
    ∃ parts? : Option (Option String × Bool × List (String × Variable)), ∀ name,
      environmentOf? (.map (front ++ (key, .text name) :: back)) =
        parts?.map fun parts => .entry name parts.1 parts.2.1 parts.2.2 := by
  simp only [environmentOf?, List.mapM_append, List.mapM_cons, named]
  -- An unreadable key before or after the name is refused whatever the name is.
  generalize @List.mapM Option _ _ _ _ front = front?
  generalize @List.mapM Option _ _ _ _ back = back?
  cases front? with
  | none => exact ⟨none, fun _ => rfl⟩
  | some front =>
    cases back? with
    | none => exact ⟨none, fun _ => rfl⟩
    | some back =>
      obtain ⟨single, unique⟩ := uniqueValue?_name front back
      refine ⟨if single then entryParts? (front ++ back) else none, fun name => ?_⟩
      cases single with
      | false => simp [unique]
      | true =>
        simp only [unique, if_true, entryParts?, Option.bind_eq_bind, Option.pure_def,
          Option.bind_some, uniqueValue?_of_ne, ne_eq, String.reduceEq, not_false_eq_true,
          environmentText?, Option.map_bind, Function.comp_def]
        refine Option.bind_congr fun label? _ => Option.bind_congr fun label _ => ?_
        refine Option.bind_congr fun switch? _ => Option.bind_congr fun disabled _ => ?_
        refine Option.bind_congr fun value? _ => ?_
        cases value? with
        | none => rfl
        | some value =>
          simp only [Option.map_bind]
          rfl

/-- The environment is expanded to the same. -/
def SameEnvironment (environment other : Environment) : Prop :=
  environment.expand = other.expand

theorem rel_environmentOf? {key : Value} (named : environmentKey? key = some "name")
    {name name' : String} (same : trim name' = trim name) (front back : List (Value × Value)) :
    Option.Rel SameEnvironment (environmentOf? (.map (front ++ (key, .text name) :: back)))
      (environmentOf? (.map (front ++ (key, .text name') :: back))) := by
  obtain ⟨parts?, read⟩ := environmentOf?_entry named front back
  rw [read, read]
  cases parts? with
  | none => exact .none
  | some parts =>
    refine .some ?_
    rw [SameEnvironment, Environment.expand, Environment.expand, same]

theorem corresponds_value (isTree : node.IsTree) (depth : Nat) :
    Corresponds Eq (fun anchors => anchors.value depth node) fun anchors =>
      anchors.value depth node :=
  corresponds_tree (steady_value depth) isTree

/-- Reads the keys and the values of the entries of a mapping. -/
def readPairs (depth : Nat) (anchors : Anchors) (entries : List (Node × Node)) :
    Read (List (Value × Value)) :=
  entries.mapM fun (key, item) => do return (← anchors.value depth key, ← anchors.value depth item)

theorem corresponds_readPairs {entries : List (Node × Node)} (depth : Nat)
    (trees : ∀ entry ∈ entries, entry.1.IsTree ∧ entry.2.IsTree) :
    Corresponds Eq (fun anchors => readPairs depth anchors entries) fun anchors =>
      readPairs depth anchors entries := by
  have pairs : List.Forall₂ (fun entry other : Node × Node => Corresponds Eq
      (fun anchors => do return (← anchors.value depth entry.1, ← anchors.value depth entry.2))
      fun anchors => do return (← anchors.value depth other.1, ← anchors.value depth other.2))
      entries entries := by
    refine List.forall₂_same.mpr fun entry member => ?_
    refine (corresponds_value (trees entry member).1 depth).bind ?_
    rintro key _ rfl - -
    refine (corresponds_value (trees entry member).2 depth).bind ?_
    rintro value _ rfl - -
    exact corresponds_pure rfl
  have listed := corresponds_mapM pairs
  rw [List.forall₂_eq_eq_eq] at listed
  exact listed

theorem value_mapping (depth : Nat) (anchors : Anchors) (anchor : Option Nat) (tag : Option Bytes)
    (entries : List (Node × Node)) :
    anchors.value (depth + 1) (.mapping anchor tag entries) =
      if tag.any isLocalTag then Anchors.refuse
      else do return .map (← readPairs depth anchors entries) := by
  unfold Anchors.value
  rfl

theorem readPairs_append (depth : Nat) (anchors : Anchors) (before after : List (Node × Node)) :
    readPairs depth anchors (before ++ after) = do
      return (← readPairs depth anchors before) ++ (← readPairs depth anchors after) :=
  List.mapM_append

/-- The pairs around one whose value is a text are read as before. -/
theorem corresponds_around {key value value' : Node} {named : Value} {name name' : String}
    {before after : List (Node × Node)} (depth : Nat)
    (trees : ∀ entry ∈ before ++ after, entry.1.IsTree ∧ entry.2.IsTree)
    (isKey : key.IsScalar named) (isName : value.IsScalar (.text name))
    (isName' : value'.IsScalar (.text name')) :
    Corresponds (fun pairs pairs' => ∃ front back, pairs = front ++ (named, .text name) :: back ∧
        pairs' = front ++ (named, .text name') :: back)
      (fun anchors => readPairs depth anchors (before ++ (key, value) :: after))
      fun anchors => readPairs depth anchors (before ++ (key, value') :: after) := by
  rw [List.forall_mem_append] at trees
  have entry {value : Node} {name : String} (isName : value.IsScalar (.text name)) :
      Settles (fun anchors => do
        return (← anchors.value depth key, ← anchors.value depth value)) (named, .text name) :=
    (Node.hasValue_scalar isKey depth).bind
      ((Node.hasValue_scalar isName depth).bind (settles_pure _))
  have rest : Corresponds (fun pairs pairs' => ∃ back, pairs = (named, .text name) :: back ∧
        pairs' = (named, .text name') :: back)
      (fun anchors => readPairs depth anchors ((key, value) :: after))
      fun anchors => readPairs depth anchors ((key, value') :: after) := by
    simp only [readPairs, List.mapM_cons]
    refine .of_settles (entry isName) (entry isName') ?_
    refine (corresponds_readPairs depth trees.2).bind ?_
    rintro back _ rfl - -
    exact corresponds_pure ⟨back, rfl, rfl⟩
  simp only [readPairs_append]
  refine (corresponds_readPairs depth trees.1).bind ?_
  rintro front _ rfl - -
  refine rest.bind ?_
  rintro _ _ ⟨back, rfl, rfl⟩ - -
  exact corresponds_pure ⟨front, back, rfl, rfl⟩

theorem corresponds_rewritesEnvironment (depth : Nat) (isTree : node.IsTree)
    (rewrites : RewritesEnvironment node node') :
    Corresponds SameEnvironment (fun anchors => readFormed anchors (depth + 1) environmentOf? node)
      fun anchors => readFormed anchors (depth + 1) environmentOf? node' := by
  cases rewrites with
  | @named _ key value anchor tag name isName standard isKey isValue =>
    have hasValue : Node.HasValue (depth + 1) (.mapping anchor tag [(key, value)])
        (.map [(.text "name", .text name)]) :=
      Node.hasValue_mapping standard
        (.cons ⟨Node.hasValue_scalar isKey depth, Node.hasValue_scalar isValue depth⟩ .nil)
    have same : SameEnvironment (.name name) (.entry name none false []) := rfl
    exact .settle same (settles_readFormed (Node.hasValue_scalar isName _) rfl)
      (settles_readFormed hasValue rfl)
  | @padded _ _ name name' isName isName' pads =>
    have same : SameEnvironment (.name name) (.name name') := by
      rw [SameEnvironment, Environment.expand, Environment.expand, pads.trim]
    exact .settle same (settles_readFormed (Node.hasValue_scalar isName _) rfl)
      (settles_readFormed (Node.hasValue_scalar isName' _) rfl)
  | @paddedEntry key value value' named anchor tag name name' before after isKey isNamed isName
      isName' pads =>
    have trees := isTree.entries
    simp only [List.forall_mem_append, List.forall_mem_cons] at trees
    have around := corresponds_around depth
      (List.forall_mem_append.mpr ⟨trees.1, trees.2.2⟩) isKey isName isName'
    simp only [readFormed, value_mapping]
    split
    next => exact .refuse (fun _ _ => rfl) fun _ _ => rfl
    next =>
      simp only [bind_assoc, pure_bind]
      refine around.bind ?_
      rintro _ _ ⟨front, back, rfl, rfl⟩ - -
      have keyed : environmentKey? named = some "name" := by
        rcases isNamed with rfl | rfl <;> rfl
      exact corresponds_lift (rel_environmentOf? keyed pads.trim front back)

end Descriptor

end BoardBench
