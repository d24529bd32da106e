import BoardBench.Proofs.Telemetry.Tabulation
import BoardBench.Proofs.Text.Digit

/-!
# The iteration of a row

Main result: the iteration of a row is what the first column says whose name is `iteration` in some
case of its letters. It is the number below `2 ^ 64` that is denoted there, blanks around it aside.
If none is denoted, the row has no iteration, whatever later columns of such a name say.

Proof strategy: the column that is searched for is told by the cells before it, and the text in it
by trimming and then by the numbers that texts denote.
-/
namespace BoardBench.Telemetry

/-! ### The description -/

/-- The name is `iteration`, in whatever case its letters are. -/
def IsIterationName (name : String) : Prop :=
  name.toList.map Char.toLower = "iteration".toList

instance (name : String) : Decidable (IsIterationName name) :=
  inferInstanceAs (Decidable (_ = _))

/-- The value stands in the first column with such a name. -/
def Row.LeadsWith (row : Row) (value : String) : Prop :=
  ∃ before name after, row.cells = before ++ (name, value) :: after ∧ IsIterationName name ∧
    ∀ cell ∈ before, ¬IsIterationName cell.1

/-- The value denotes a number below `2 ^ 64`, blanks around it aside. -/
def SpellsIndex (value : String) (number : Nat) : Prop :=
  number < 2 ^ 64 ∧ ∃ field, IsTrimmedTo value.toList field ∧ Denotes field.toList number

/-- The value is the number in decimal, with zeros in front of it and blanks around it. -/
def WritesIndex (value : String) (number : Nat) : Prop :=
  ∃ left zeros right, AllBlank left ∧ AllBlank right ∧
    value.toList = left ++ (List.replicate zeros '0' ++ (toString number).toList) ++ right

/-! ### Values -/

theorem spellsIndex_iff (value : String) (number : Nat) :
    SpellsIndex value number ↔
      (countOfText? (trimChars value.toList)).map UInt64.toNat = some number := by
  rw [map_toNat_countOfText?, natural?_eq_some_iff, SpellsIndex,
    exists_isTrimmedTo_iff value.toList (Denotes · number), and_comm]
  rfl

theorem WritesIndex.spellsIndex {value : String} {number : Nat} (writes : WritesIndex value number)
    (small : number < 2 ^ 64) : SpellsIndex value number := by
  obtain ⟨left, zeros, right, before, after, split⟩ := writes
  rw [show (toString number).toList = Nat.toDigits 10 number from Nat.toList_repr] at split
  -- Digits are no blanks, so that trimming stops at them.
  have trimmed : IsTrimmed (List.replicate zeros '0' ++ Nat.toDigits 10 number) :=
    isTrimmed_of_isDigit fun _ => isDigit_of_mem_padded
  rw [spellsIndex_iff, split, trimmed.pad before after, map_toNat_countOfText?,
    natural?_eq_some_iff]
  exact ⟨denotes_toDigits zeros number, small⟩

/-! ### Columns -/

theorem isIterationName_iff (name : String) :
    IsIterationName name ↔ sameIgnoringCase name Row.iterationColumn = true := by
  have lowered : lowerChars Row.iterationColumn.toList = "iteration".toList := by decide
  rw [sameIgnoringCase, lowered, beq_iff_eq]
  rfl

namespace Row

theorem leadsWith_iff (row : Row) (value : String) :
    row.LeadsWith value ↔
      ∃ name, row.cells.find? (fun cell => sameIgnoringCase cell.1 iterationColumn) =
        some (name, value) := by
  simp only [LeadsWith, isIterationName_iff, List.find?_eq_some_iff_append, Bool.not_eq_true]
  constructor
  · rintro ⟨before, name, after, split, named, first⟩
    exact ⟨name, named, before, after, split, by simpa using first⟩
  · rintro ⟨name, named, before, after, split, first⟩
    exact ⟨before, name, after, split, named, by simpa using first⟩

theorem LeadsWith.iteration?_eq {row : Row} {value : String} (leads : row.LeadsWith value) :
    row.iteration? = countOfText? (trimChars value.toList) := by
  obtain ⟨name, found⟩ := (leadsWith_iff row value).mp leads
  rw [iteration?, found]

theorem iteration?_of_unnamed {row : Row} (unnamed : ∀ name ∈ row.columns, ¬IsIterationName name) :
    row.iteration? = none := by
  have missed : row.cells.find? (fun cell => sameIgnoringCase cell.1 iterationColumn) = none := by
    rw [List.find?_eq_none]
    intro cell among
    rw [← isIterationName_iff]
    exact unnamed cell.1 (List.mem_map_of_mem among)
  rw [iteration?, missed]

/-- Some column comes first, unless there is none. -/
theorem unnamed_or_leads (row : Row) :
    (∀ name ∈ row.columns, ¬IsIterationName name) ∨ ∃ value, row.LeadsWith value := by
  cases found : row.cells.find? fun cell => sameIgnoringCase cell.1 iterationColumn with
  | none =>
    refine .inl fun name among => ?_
    obtain ⟨cell, member, rfl⟩ := List.mem_map.mp among
    rw [isIterationName_iff]
    exact List.find?_eq_none.mp found cell member
  | some cell => exact .inr ⟨cell.2, (leadsWith_iff row cell.2).mpr ⟨cell.1, found⟩⟩

theorem iteration?_eq_some_iff (row : Row) (number : Nat) :
    row.iteration?.map UInt64.toNat = some number ↔
      ∃ value, row.LeadsWith value ∧ SpellsIndex value number := by
  constructor
  · intro read
    rcases row.unnamed_or_leads with unnamed | ⟨value, leads⟩
    · rw [iteration?_of_unnamed unnamed] at read
      cases read
    · rw [leads.iteration?_eq, ← spellsIndex_iff] at read
      exact ⟨value, leads, read⟩
  · rintro ⟨value, leads, spells⟩
    rw [leads.iteration?_eq]
    exact (spellsIndex_iff value number).mp spells

theorem iteration?_eq_none_iff (row : Row) :
    row.iteration? = none ↔ (∀ name ∈ row.columns, ¬IsIterationName name) ∨
      ∃ value, row.LeadsWith value ∧ ∀ number, ¬SpellsIndex value number := by
  constructor
  · intro nothing
    refine row.unnamed_or_leads.imp_right ?_
    rintro ⟨value, leads⟩
    refine ⟨value, leads, fun number spells => ?_⟩
    have read := (row.iteration?_eq_some_iff number).mpr ⟨value, leads, spells⟩
    rw [nothing] at read
    cases read
  · rintro (unnamed | ⟨value, leads, nothing⟩)
    · exact iteration?_of_unnamed unnamed
    · -- Only the first column counts, so that nothing else can be read.
      rw [leads.iteration?_eq, ← Option.map_eq_none_iff, Option.eq_none_iff_forall_ne_some]
      intro number read
      exact nothing number ((spellsIndex_iff value number).mpr read)

/-- The iteration is read from the first column of its name, there is none if nothing can be read
there, and a number that is written there in decimal is read back. -/
theorem iteration?_described (row : Row) :
    (∀ number, row.iteration?.map UInt64.toNat = some number ↔
      ∃ value, row.LeadsWith value ∧ SpellsIndex value number) ∧
    (row.iteration? = none ↔ (∀ name ∈ row.columns, ¬IsIterationName name) ∨
      ∃ value, row.LeadsWith value ∧ ∀ number, ¬SpellsIndex value number) ∧
    ∀ value number, row.LeadsWith value → WritesIndex value number → number < 2 ^ 64 →
      row.iteration?.map UInt64.toNat = some number := by
  refine ⟨row.iteration?_eq_some_iff, row.iteration?_eq_none_iff, ?_⟩
  intro value number leads writes small
  exact (row.iteration?_eq_some_iff number).mpr ⟨value, leads, writes.spellsIndex small⟩

/-- The greatest index, in the second column. -/
theorem iteration?_described_greatest :
    let value := " 018446744073709551615\t"
    let row := ofCells [("us", "7"), ("ITERATION", value)]
    row.LeadsWith value ∧ WritesIndex value 18446744073709551615 ∧
      row.iteration?.map UInt64.toNat = some 18446744073709551615 := by
  intro value row
  have leads : row.LeadsWith value :=
    ⟨[("us", "7")], "ITERATION", [], by decide, by decide, by decide⟩
  have writes : WritesIndex value 18446744073709551615 :=
    ⟨[' '], 1, ['\t'], by decide, by decide, by decide⟩
  exact ⟨leads, writes, (iteration?_described row).2.2 value _ leads writes (by decide)⟩

/-- An index that is one too great hides what stands in a later column. -/
example : (ofCells [("Iteration", "18446744073709551616"), ("iteration", "5")]).iteration? =
    none := by decide

end Row

end BoardBench.Telemetry
