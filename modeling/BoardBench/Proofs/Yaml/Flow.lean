import BoardBench.Yaml.Document
import Mathlib.Algebra.Group.Nat.Defs

/-!
# Trees in flow style

A tree of quoted texts and plain words is written on one line, with each text in double quotes and
each character of it as its code, with a mark in front of each key and a comma behind each item.

Main result: the tokens of a written tree compose to the tree.
-/
namespace BoardBench.Yaml

/-! ### Writing -/

/-- So many hexadecimal digits, the first one for the highest power. -/
def hexDigits : Nat → Nat → List Char
  | 0, _ => []
  | count + 1, value => (value / 16 ^ count).digitChar :: hexDigits count (value % 16 ^ count)

def escaped (char : Char) : List Char :=
  backslash :: 'U' :: hexDigits 8 char.toNat

def inQuotes (text : String) : List Char :=
  doubleQuote :: (text.toList.flatMap escaped ++ [doubleQuote])

def Token.written : Token → List Char
  | flowSequenceStart => ['[']
  | flowSequenceEnd => [']']
  | flowMappingStart => ['\x7b']
  | flowMappingEnd => ['\x7d']
  | flowEntry => [',']
  | key => ['?']
  | value => [':']
  | scalar text style => if style = .plain then text.toList else inQuotes text
  | _ => []

/-- The text is made of letters and digits. -/
def isWord (text : String) : Bool :=
  !text.isEmpty && text.toList.all Char.isAlphanum

namespace Node

mutual
def tokens : Node → List Token
  | scalar _ _ style text => [.scalar text style]
  | sequence _ _ items => .flowSequenceStart :: (tokensOfItems items ++ [.flowSequenceEnd])
  | mapping _ _ entries => .flowMappingStart :: (tokensOfEntries entries ++ [.flowMappingEnd])
  | aliasOf _ => []

def tokensOfItems : List Node → List Token
  | [] => []
  | item :: rest => item.tokens ++ .flowEntry :: tokensOfItems rest

def tokensOfEntries : List (Node × Node) → List Token
  | [] => []
  | (key, value) :: rest =>
    .key :: (key.tokens ++ .value :: (value.tokens ++ .flowEntry :: tokensOfEntries rest))
end

/-- The text of a tree: its tokens without any blanks between them. -/
def written (node : Node) : String :=
  String.ofList (node.tokens.flatMap Token.written)

/-- A text in double quotes. -/
def isQuoted : Node → Bool
  | scalar none none .doubleQuoted _ => true
  | _ => false

mutual
/-- A tree of quoted texts and words, in which the keys are texts. -/
def isFlow : Node → Bool
  | scalar none none .doubleQuoted _ => true
  | scalar none none .plain text => isWord text
  | sequence none none items => areFlow items
  | mapping none none entries => entriesAreFlow entries
  | _ => false

def areFlow : List Node → Bool
  | [] => true
  | item :: rest => item.isFlow && areFlow rest

def entriesAreFlow : List (Node × Node) → Bool
  | [] => true
  | (key, value) :: rest => key.isQuoted && value.isFlow && entriesAreFlow rest
end

theorem areFlow_of_forall {items : List Node} (each : ∀ item ∈ items, item.isFlow = true) :
    areFlow items = true := by
  induction items with
  | nil => rfl
  | cons item rest ih =>
    have both := List.forall_mem_cons.mp each
    rw [areFlow, both.1, ih both.2, Bool.and_true]

theorem entriesAreFlow_of_forall {entries : List (Node × Node)}
    (each : ∀ entry ∈ entries, entry.1.isQuoted = true ∧ entry.2.isFlow = true) :
    entriesAreFlow entries = true := by
  induction entries with
  | nil => rfl
  | cons entry rest ih =>
    have both := List.forall_mem_cons.mp each
    rw [entriesAreFlow, both.1.1, both.1.2, ih both.2, Bool.and_true, Bool.and_true]

end Node

/-! ### Composing -/

namespace Compose

variable {α β : Type} {composer next : Composer}

theorem bind_of_eq {first : Compose α} {value : α} (found : first composer = some (value, next))
    (rest : α → Compose β) : (first >>= rest) composer = rest value next := by
  change (first composer).bind (fun found => rest found.1 found.2) = _
  rw [found]
  rfl

/-- The composer with other tokens to come. -/
abbrev on (composer : Composer) (tokens : List Token) : Composer :=
  { composer with rest := tokens }

variable (composer) {token other : Token} (tokens : List Token)

theorem accept_same (token : Token) :
    accept token (on composer (token :: tokens)) = some (true, on composer tokens) := by
  change (if some token = some token then skip >>= fun _ => pure true else pure false :
    Compose Bool) (on composer (token :: tokens)) = _
  rw [if_pos rfl]
  rfl

theorem accept_other (apart : token ≠ other) :
    accept other (on composer (token :: tokens)) = some (false, on composer (token :: tokens)) := by
  change (if some token = some other then skip >>= fun _ => pure true else pure false :
    Compose Bool) (on composer (token :: tokens)) = _
  rw [if_neg (by simpa using apart)]
  rfl

theorem expect_same (token : Token) :
    expect token (on composer (token :: tokens)) = some ((), on composer tokens) :=
  bind_of_eq (accept_same composer tokens token) _

theorem atAny_other {others : List Token} (apart : others.contains token = false) :
    atAny others (on composer (token :: tokens)) =
      some (false, on composer (token :: tokens)) := by
  rw [← apart]
  rfl

section Nodes

variable (fuel : Nat) (block indentless : Bool)

theorem node_scalar (text : String) (style : Style) :
    node (fuel + 1) block indentless (on composer (.scalar text style :: tokens)) =
      some (.scalar none none style text, on composer tokens) := by
  unfold node
  rfl

variable {fuel}

theorem node_sequence {items : List Node}
    (inner : flowItems fuel true (on composer tokens) = some (items, next)) :
    node (fuel + 1) block indentless (on composer (.flowSequenceStart :: tokens)) =
      some (.sequence none none items, next) := by
  unfold node
  exact bind_of_eq inner fun items => pure (Node.sequence none none items)

theorem node_mapping {entries : List (Node × Node)}
    (inner : flowEntries fuel true (on composer tokens) = some (entries, next)) :
    node (fuel + 1) block indentless (on composer (.flowMappingStart :: tokens)) =
      some (.mapping none none entries, next) := by
  unfold node
  exact bind_of_eq inner fun entries => pure (Node.mapping none none entries)

theorem nodeUnless_of_node {block indentless : Bool} {others : List Token} {node : Node}
    (apart : others.contains token = false)
    (inner : Compose.node fuel block indentless (on composer (token :: tokens)) =
      some (node, next)) :
    nodeUnless (fuel + 1) block indentless others (on composer (token :: tokens)) =
      some (node, next) := by
  unfold nodeUnless
  rw [bind_of_eq (atAny_other composer tokens apart)]
  exact inner

end Nodes

/-- A comma stands in front of what follows an item. -/
def separated (first : Bool) (tokens : List Token) : List Token :=
  if first then tokens else .flowEntry :: tokens

section Collections

variable (fuel : Nat) (first : Bool)

theorem flowItems_end :
    flowItems (fuel + 1) first (on composer (separated first (.flowSequenceEnd :: tokens))) =
      some ([], on composer tokens) := by
  unfold flowItems
  cases first <;> rfl

theorem flowEntries_end :
    flowEntries (fuel + 1) first (on composer (separated first (.flowMappingEnd :: tokens))) =
      some ([], on composer tokens) := by
  unfold flowEntries
  cases first <;> rfl

variable {fuel} {between : Composer}

theorem flowItems_cons (notEnd : token ≠ .flowSequenceEnd) (notKey : token ≠ .key) {item : Node}
    {items : List Node}
    (here : node fuel false false (on composer (token :: tokens)) = some (item, between))
    (later : flowItems fuel false between = some (items, next)) :
    flowItems (fuel + 1) first (on composer (separated first (token :: tokens))) =
      some (item :: items, next) := by
  have tail : (do
      let item ← node fuel false false
      return item :: (← flowItems fuel false)) (on composer (token :: tokens)) =
        some (item :: items, next) := by
    rw [bind_of_eq here]
    exact bind_of_eq later _
  unfold flowItems
  cases first with
  | true =>
    rw [separated, if_pos rfl, bind_of_eq (accept_other composer tokens notEnd)]
    simp only [Bool.false_eq_true, if_false, Bool.not_true]
    rw [bind_of_eq (accept_other composer tokens notEnd)]
    simp only [Bool.false_eq_true, if_false]
    rw [bind_of_eq (accept_other composer tokens notKey)]
    exact tail
  | false =>
    change (accept .flowSequenceEnd >>= _) (on composer (.flowEntry :: token :: tokens)) = _
    rw [bind_of_eq (accept_other composer (token :: tokens) (by simp))]
    simp only [Bool.false_eq_true, if_false, Bool.not_false, if_true]
    rw [bind_of_eq (expect_same composer _ _), bind_of_eq (accept_other composer tokens notEnd)]
    simp only [Bool.false_eq_true, if_false]
    rw [bind_of_eq (accept_other composer tokens notKey)]
    exact tail

theorem flowEntries_cons {token' : Token} {tokens' : List Token} {key value : Node}
    {entries : List (Node × Node)}
    (notOver : [Token.value, .flowEntry, .flowMappingEnd].contains token = false)
    (named : node fuel false false (on composer (token :: tokens)) =
      some (key, on composer (.value :: token' :: tokens')))
    (notMissing : [Token.flowEntry, .flowMappingEnd].contains token' = false)
    (here : node fuel false false (on composer (token' :: tokens')) = some (value, between))
    (later : flowEntries (fuel + 1) false between = some (entries, next)) :
    flowEntries (fuel + 2) first (on composer (separated first (.key :: token :: tokens))) =
      some ((key, value) :: entries, next) := by
  have tail : (do
      let key ← nodeUnless (fuel + 1) false false [.value, .flowEntry, .flowMappingEnd]
      let value ←
        if ← accept .value then nodeUnless (fuel + 1) false false [.flowEntry, .flowMappingEnd]
        else pure .missing
      return (key, value) :: (← flowEntries (fuel + 1) false)) (on composer (token :: tokens)) =
        some ((key, value) :: entries, next) := by
    rw [bind_of_eq (nodeUnless_of_node composer tokens notOver named),
      bind_of_eq (accept_same composer _ _), if_pos rfl,
      bind_of_eq (nodeUnless_of_node composer tokens' notMissing here)]
    exact bind_of_eq later _
  unfold flowEntries
  cases first with
  | true =>
    change (accept .flowMappingEnd >>= _) (on composer (.key :: token :: tokens)) = _
    rw [bind_of_eq (accept_other composer (token :: tokens) (by simp))]
    simp only [Bool.false_eq_true, if_false, Bool.not_true]
    rw [bind_of_eq (accept_other composer (token :: tokens) (by simp))]
    simp only [Bool.false_eq_true, if_false]
    rw [bind_of_eq (accept_same composer _ _), if_pos rfl]
    exact tail
  | false =>
    change (accept .flowMappingEnd >>= _) (on composer (.flowEntry :: .key :: token :: tokens)) = _
    rw [bind_of_eq (accept_other composer (.key :: token :: tokens) (by simp))]
    simp only [Bool.false_eq_true, if_false, Bool.not_false, if_true]
    rw [bind_of_eq (expect_same composer _ _),
      bind_of_eq (accept_other composer (token :: tokens) (by simp))]
    simp only [Bool.false_eq_true, if_false]
    rw [bind_of_eq (accept_same composer _ _), if_pos rfl]
    exact tail

end Collections

end Compose

/-! ### Whole trees -/

/-- The token starts a node. -/
def Token.opens : Token → Bool
  | flowSequenceStart => true
  | flowMappingStart => true
  | scalar .. => true
  | _ => false

theorem Token.opens_apart {token : Token} (opens : token.opens = true) {others : List Token}
    (closing : ∀ other ∈ others, other.opens = false) : others.contains token = false := by
  rw [List.contains_eq_mem, decide_eq_false_iff_not]
  intro among
  rw [closing token among] at opens
  cases opens

namespace Node

theorem exists_opens {node : Node} (flow : node.isFlow = true) :
    ∃ token rest, node.tokens = token :: rest ∧ token.opens = true := by
  cases node with
  | scalar => exact ⟨_, _, rfl, rfl⟩
  | sequence => exact ⟨_, _, rfl, rfl⟩
  | mapping => exact ⟨_, _, rfl, rfl⟩
  | aliasOf => cases flow

theorem isFlow_of_isQuoted {key : Node} (quoted : key.isQuoted = true) :
    ∃ text, key = scalar none none .doubleQuoted text := by
  unfold isQuoted at quoted
  split at quoted
  next text => exact ⟨text, rfl⟩
  next => cases quoted

open Compose in
mutual
theorem compose_tokens (composer : Composer) : (node : Node) → node.isFlow = true →
    ∀ (fuel : Nat) (block indentless : Bool) (rest : List Token), node.tokens.length ≤ fuel →
      Compose.node fuel block indentless (on composer (node.tokens ++ rest)) =
        some (node, on composer rest)
  | .scalar none none style text, _, fuel + 1, block, indentless, rest, _ =>
    node_scalar composer rest fuel block indentless text style
  | .sequence none none items, flow, fuel + 1, block, indentless, rest, enough => by
    simp only [tokens, List.length_cons, List.length_append, List.length_nil] at enough
    have inner := compose_items composer items flow fuel true rest (by omega)
    rw [tokens, List.cons_append, List.append_assoc]
    exact node_sequence composer _ block indentless inner
  | .mapping none none entries, flow, fuel + 1, block, indentless, rest, enough => by
    simp only [tokens, List.length_cons, List.length_append, List.length_nil] at enough
    have inner := compose_entries composer entries flow fuel true rest (by omega)
    rw [tokens, List.cons_append, List.append_assoc]
    exact node_mapping composer _ block indentless inner
  | .aliasOf _, flow, _, _, _, _, _ => nomatch flow

theorem compose_items (composer : Composer) : (items : List Node) → areFlow items = true →
    ∀ (fuel : Nat) (first : Bool) (rest : List Token), (tokensOfItems items).length < fuel →
      flowItems fuel first
          (on composer (separated first (tokensOfItems items ++ .flowSequenceEnd :: rest))) =
        some (items, on composer rest)
  | [], _, fuel + 1, first, rest, _ => flowItems_end composer rest fuel first
  | item :: more, flow, fuel + 1, first, rest, enough => by
    have both := Bool.and_eq_true_iff.mp flow
    -- The first token of the item tells it apart from the end of the sequence and from a pair.
    obtain ⟨token, behind, opening, opens⟩ := exists_opens both.1
    simp only [tokensOfItems, List.length_append, List.length_cons] at enough
    have here := compose_tokens composer item both.1 fuel false false
      (.flowEntry :: (tokensOfItems more ++ .flowSequenceEnd :: rest)) (by omega)
    have later := compose_items composer more both.2 fuel false rest (by omega)
    rw [tokensOfItems, List.append_assoc, List.cons_append]
    rw [opening, List.cons_append] at here ⊢
    exact flowItems_cons composer _ first (by rintro rfl; cases opens) (by rintro rfl; cases opens)
      here later

theorem compose_entries (composer : Composer) : (entries : List (Node × Node)) →
    entriesAreFlow entries = true →
    ∀ (fuel : Nat) (first : Bool) (rest : List Token), (tokensOfEntries entries).length < fuel →
      flowEntries fuel first
          (on composer (separated first (tokensOfEntries entries ++ .flowMappingEnd :: rest))) =
        some (entries, on composer rest)
  | [], _, fuel + 1, first, rest, _ => flowEntries_end composer rest fuel first
  | (key, value) :: more, flow, fuel + 2, first, rest, enough => by
    have all := Bool.and_eq_true_iff.mp flow
    have both := Bool.and_eq_true_iff.mp all.1
    obtain ⟨text, rfl⟩ := isFlow_of_isQuoted both.1
    obtain ⟨token, behind, opening, opens⟩ := exists_opens both.2
    simp only [tokensOfEntries, tokens, List.length_append, List.length_cons,
      List.length_nil] at enough
    -- A value is composed two steps below its mapping, and the entries behind it one step below.
    obtain ⟨fuel, rfl⟩ : ∃ less, fuel = less + 1 := ⟨fuel - 1, by omega⟩
    have here := compose_tokens composer value both.2 (fuel + 1) false false
      (.flowEntry :: (tokensOfEntries more ++ .flowMappingEnd :: rest)) (by omega)
    have later := compose_entries composer more all.2 (fuel + 2) false rest (by omega)
    rw [opening, List.cons_append] at here
    have named := node_scalar composer (.value :: token :: (behind ++ .flowEntry ::
      (tokensOfEntries more ++ .flowMappingEnd :: rest))) fuel false false text .doubleQuoted
    have written : tokensOfEntries ((.scalar none none .doubleQuoted text, value) :: more) ++
        .flowMappingEnd :: rest = .key :: .scalar text .doubleQuoted :: .value :: token ::
          (behind ++ .flowEntry :: (tokensOfEntries more ++ .flowMappingEnd :: rest)) := by
      simp [tokensOfEntries, tokens, opening]
    rw [written]
    exact flowEntries_cons composer _ first (by simp) named
      (Token.opens_apart opens (by simp [Token.opens])) here later
end

open Compose in
/-- A text with the tokens of a tree denotes the tree. -/
theorem document?_of_tokens? {node : Node} (flow : node.isFlow = true) {text : String}
    (found : tokens? text.toList = some node.tokens) : document? text = some (some node) := by
  have rooted : root (4 * node.tokens.length + 4) { rest := node.tokens } =
      some (some node, { rest := [], handles := standardHandles }) := by
    obtain ⟨token, behind, opening, opens⟩ := exists_opens flow
    have inner := compose_tokens { rest := [], handles := standardHandles } node flow
      (4 * node.tokens.length + 4) true false [] (by omega)
    rw [List.append_nil] at inner
    unfold root
    rw [opening] at inner ⊢
    -- The first token is none of those that start or end a document, so the root is bare.
    cases token with
    | scalar => exact bind_of_eq inner fun node => pure (some node)
    | flowSequenceStart => exact bind_of_eq inner fun node => pure (some node)
    | flowMappingStart => exact bind_of_eq inner fun node => pure (some node)
    | _ => cases opens
  -- Behind the root there is nothing that could start another document.
  have ended : Compose.document (4 * node.tokens.length + 4) { rest := node.tokens } =
      some (some node, { rest := [], handles := standardHandles }) :=
    bind_of_eq rooted _
  rw [document?, found]
  change (Compose.document _ { rest := node.tokens }).bind _ = _
  rw [ended]
  rfl

end Node

end BoardBench.Yaml
