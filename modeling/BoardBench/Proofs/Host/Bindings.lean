import BoardBench.Host.Bindings
import BoardBench.Proofs.Text.Sorted

/-!
# What a process finds

Main result: among the texts that a process receives, there is one for each name that was given a
value, and it has the last one. A text is read under another name only if its own name holds an
equals sign; such a text comes after that of the name that it is read under.

Proof strategy: the texts are in the order of their names, so those that come before the text of a
name have smaller names, and a name that goes on after another one is greater.
-/
namespace BoardBench.Host.Bindings

variable {bindings : Bindings} {name other value : String}

/-- The text of the other name is read as one of this name. -/
def Mimics (other name : String) : Prop :=
  name.toList ++ ['='] <+: other.toList

instance (other name : String) : Decidable (Mimics other name) :=
  inferInstanceAs (Decidable (_ <+: _))

/-- The values that are read under a name, in the order of the texts. -/
def readings (bindings : Bindings) (name : String) : List String :=
  (bindings.received.filter fun entry => entry.1 == name).map Prod.snd

/-! ### The last value -/

theorem get?_append (front back : Bindings) (name : String) :
    get? (front ++ back) name = (back.get? name).or (front.get? name) := by
  simp only [get?, List.reverse_append, List.find?_append, Option.map_or]

theorem get?_eq_lookup (bindings : Bindings) (name : String) :
    bindings.get? name = bindings.reverse.lookup name := by
  unfold get?
  induction bindings.reverse with
  | nil => rfl
  | cons entry rest ih =>
    rw [List.find?_cons, List.lookup_cons, BEq.comm]
    split
    next => rfl
    next => exact ih

theorem mem_sortedEntries :
    (name, value) ∈ sortedEntries textBefore bindings ↔ bindings.get? name = some value := by
  rw [mem_sortedEntries_iff isOrder_textBefore, get?_eq_lookup]

theorem mem_of_get? (found : bindings.get? name = some value) : (name, value) ∈ bindings := by
  obtain ⟨entry, first, rfl⟩ := Option.map_eq_some_iff.mp found
  have named : entry.1 = name := by simpa using List.find?_some first
  rw [← named]
  exact List.mem_reverse.mp (List.mem_of_find?_eq_some first)

/-! ### Names that are read as others -/

theorem readBack_of_equals {front rest : List Char} (plain : '=' ∉ front) (value : String) :
    readBack (String.ofList (front ++ '=' :: rest) ++ "=" ++ value) =
      (String.ofList front, String.ofList rest ++ "=" ++ value) := by
  rw [← readBack_text (String.toList_ofList ▸ plain)]
  congr 1
  apply String.ext
  simp

/-- A text is read under the name that it was made for, or its name mimics the other one. -/
theorem eq_or_mimics_of_readBack (read : (readBack (other ++ "=" ++ value)).1 = name) :
    other = name ∨ Mimics other name := by
  by_cases plain : '=' ∈ other.toList
  · obtain ⟨front, rest, split, first⟩ := List.eq_append_cons_of_mem plain
    have whole : other = String.ofList (front ++ '=' :: rest) := by
      rw [← split, String.ofList_toList]
    rw [whole, readBack_of_equals first] at read
    refine .inr ⟨rest, ?_⟩
    rw [whole, ← read]
    simp
  · rw [readBack_text plain] at read
    exact .inl read

theorem Mimics.not_textBefore (mimics : Mimics other name) : textBefore other name = false := by
  have longer (front back : List Char) : ¬front ++ back < front := by
    induction front with
    | nil => simp
    | cons char rest ih => simpa [List.cons_lt_cons_iff] using ih
  obtain ⟨rest, whole⟩ := mimics
  rw [textBefore, decide_eq_false_iff_not]
  change ¬other.toList < name.toList
  rw [← whole, List.append_assoc]
  exact longer name.toList ('=' :: rest)

/-- A text that is read under a name does not come before the text of this name. -/
theorem not_textBefore_of_readBack (read : (readBack (other ++ "=" ++ value)).1 = name) :
    textBefore other name = false := by
  rcases eq_or_mimics_of_readBack read with rfl | mimics
  · exact isOrder_textBefore.irrefl other
  · exact mimics.not_textBefore

/-! ### What is read -/

theorem readings_eq (bindings : Bindings) (name : String) :
    bindings.readings name = (((sortedEntries textBefore bindings).map fun entry =>
      readBack (entry.1 ++ "=" ++ entry.2)).filter fun entry => entry.1 == name).map Prod.snd := by
  rw [readings, received, block, List.map_map]
  rfl

theorem find?_eq_head? (bindings : Bindings) (name : String) :
    bindings.find? name = (bindings.readings name).head? := by
  unfold find? readings
  induction bindings.received with
  | nil => rfl
  | cons entry rest ih =>
    rw [List.lookup_cons, List.filter_cons, BEq.comm]
    cases entry.1 == name with
    | true => rfl
    | false => exact ih

/-- The first value that is read under a name is the last one that it was given. -/
theorem readings_of_get? (plain : '=' ∉ name.toList) (found : bindings.get? name = some value) :
    ∃ more, bindings.readings name = value :: more ∧
      ((∀ entry ∈ bindings, ¬Mimics entry.1 name) → more = []) := by
  obtain ⟨front, back, split, before, after⟩ :=
    (isSorted_sortedEntries isOrder_textBefore bindings).exists_split (mem_sortedEntries.mpr found)
  have passed : ((front.map fun entry => readBack (entry.1 ++ "=" ++ entry.2)).filter
      fun entry => entry.1 == name) = [] := by
    rw [List.filter_eq_nil_iff, List.forall_mem_map]
    intro entry earlier same
    have notBefore := not_textBefore_of_readBack (beq_iff_eq.mp same)
    rw [before entry earlier] at notBefore
    cases notBefore
  rw [readings_eq, split, List.map_append, List.filter_append, passed, List.nil_append,
    List.map_cons, readBack_text plain, List.filter_cons, if_pos (beq_self_eq_true name),
    List.map_cons]
  refine ⟨_, rfl, ?_⟩
  intro unmimicked
  rw [List.map_eq_nil_iff, List.filter_eq_nil_iff, List.forall_mem_map]
  intro entry later same
  rcases eq_or_mimics_of_readBack (beq_iff_eq.mp same) with own | mimics
  · have cycle := after entry later
    rw [own, isOrder_textBefore.irrefl] at cycle
    cases cycle
  · have member : entry ∈ sortedEntries textBefore bindings := by
      rw [split]
      exact List.mem_append_right _ (List.mem_cons_of_mem _ later)
    exact unmimicked entry (mem_of_get? (mem_sortedEntries.mp member)) mimics

/-- If no name mimics this one, the last value that it was given is all that is read under it. -/
theorem readings_eq_toList (plain : '=' ∉ name.toList)
    (unmimicked : ∀ entry ∈ bindings, ¬Mimics entry.1 name) :
    bindings.readings name = (bindings.get? name).toList := by
  cases found : bindings.get? name with
  | some value =>
    obtain ⟨more, read, alone⟩ := readings_of_get? plain found
    rw [read, alone unmimicked, Option.toList_some]
  | none =>
    rw [readings_eq, Option.toList_none, List.map_eq_nil_iff, List.filter_eq_nil_iff,
      List.forall_mem_map]
    intro entry member same
    have given := mem_sortedEntries.mp member
    rcases eq_or_mimics_of_readBack (beq_iff_eq.mp same) with own | mimics
    · rw [own, found] at given
      cases given
    · exact unmimicked entry (mem_of_get? given) mimics

/-- Whoever takes the first text finds the last value that a name was given. -/
theorem find?_of_get? (plain : '=' ∉ name.toList) (found : bindings.get? name = some value) :
    bindings.find? name = some value := by
  obtain ⟨more, read, -⟩ := readings_of_get? plain found
  rw [find?_eq_head?, read, List.head?_cons]

end BoardBench.Host.Bindings
