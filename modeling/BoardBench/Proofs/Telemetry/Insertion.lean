import BoardBench.Proofs.Telemetry.Row
import Mathlib.Data.Finset.Card

/-!
# Rows as maps in order of insertion

Main result: a row that starts empty and is set column by column has the distinct names that were
set, in the order in which each came first, and under each of them the value that was set last. Two
lists of settings make the same row exactly when they agree in these two things. Setting a column
moves and changes no other one.

Proof strategy: one more setting has an effect of its own on the names, on the values and on the
row, and the three effects match. A row is then followed through its settings by induction.
-/
namespace BoardBench.Telemetry

/-! ### What settings say -/

/-- The columns are the names without repetitions, in the order in which each comes first. -/
structure AreFirstNamed (names columns : List String) : Prop where
  distinct : columns.Nodup
  mem_iff : ∀ column, column ∈ columns ↔ column ∈ names
  ordered : columns.Pairwise fun one other => names.idxOf one < names.idxOf other

/-- The column is set to the value, and not set again. -/
def IsLastSetting (settings : List Cell) (column value : String) : Prop :=
  ∃ before after, settings = before ++ (column, value) :: after ∧
    ∀ setting ∈ after, setting.1 ≠ column

/-- What a row holds after these settings. -/
structure Holds (settings : List Cell) (row : Row) : Prop where
  columns : AreFirstNamed (settings.map Prod.fst) row.columns
  size : row.size = (settings.map Prod.fst).toFinset.card
  value_iff : ∀ column value, row.get? column = some value ↔ IsLastSetting settings column value
  unset_iff : ∀ column, row.get? column = none ↔ ∀ setting ∈ settings, setting.1 ≠ column

/-- The names come first in the same order, and have the same last values. -/
structure SayTheSame (settings others : List Cell) : Prop where
  columns_iff : ∀ columns, AreFirstNamed (settings.map Prod.fst) columns ↔
    AreFirstNamed (others.map Prod.fst) columns
  value_iff : ∀ column value,
    IsLastSetting settings column value ↔ IsLastSetting others column value

/-- All columns but one have kept their values and their places. -/
structure KeepsOthers (column : String) (row after : Row) : Prop where
  values : ∀ other, other ≠ column → after.get? other = row.get? other
  places : ∀ other, other ≠ column → ∀ place : Nat,
    after.columns[place]? = some other ↔ row.columns[place]? = some other

/-! ### Names -/

namespace AreFirstNamed

theorem nil : AreFirstNamed [] [] where
  distinct := List.nodup_nil
  mem_iff := by simp
  ordered := .nil

variable {names columns : List String} (first : AreFirstNamed names columns)
include first

/-- A name at the end changes no earlier place. -/
theorem ordered_concat (name : String) :
    columns.Pairwise fun one other =>
      (names ++ [name]).idxOf one < (names ++ [name]).idxOf other := by
  refine first.ordered.imp_of_mem ?_
  intro one other among later before
  rw [List.idxOf_append_of_mem ((first.mem_iff one).mp among),
    List.idxOf_append_of_mem ((first.mem_iff other).mp later)]
  exact before

theorem concat_of_mem {name : String} (known : name ∈ columns) :
    AreFirstNamed (names ++ [name]) columns where
  distinct := first.distinct
  mem_iff column := by
    rw [List.mem_append, List.mem_singleton, ← first.mem_iff, iff_self_or]
    rintro rfl
    exact known
  ordered := first.ordered_concat name

theorem concat_of_not_mem {name : String} (new : name ∉ columns) :
    AreFirstNamed (names ++ [name]) (columns ++ [name]) where
  distinct := by simpa using first.distinct.concat new
  mem_iff column := by rw [List.mem_append, List.mem_append, first.mem_iff]
  ordered := by
    refine List.pairwise_append.mpr ⟨first.ordered_concat name, List.pairwise_singleton _ _, ?_⟩
    intro one among other last
    rw [List.mem_singleton] at last
    subst last
    -- The new name has no earlier place than the last one.
    have unnamed : other ∉ names := fun named => new ((first.mem_iff other).mpr named)
    have named := (first.mem_iff one).mp among
    rw [List.idxOf_append_of_mem named, List.idxOf_append_of_notMem unnamed]
    exact Nat.lt_add_right _ (List.idxOf_lt_length_of_mem named)

theorem unique {others : List String} (second : AreFirstNamed names others) : columns = others := by
  have perm : columns.Perm others := by
    rw [List.perm_ext_iff_of_nodup first.distinct second.distinct]
    intro column
    rw [first.mem_iff, second.mem_iff]
  refine perm.eq_of_pairwise ?_ first.ordered second.ordered
  intro one other _ _ before after
  exact absurd after (Nat.lt_asymm before)

end AreFirstNamed

/-! ### Values -/

/-- One more setting is the last one of its own column, and changes nothing for the others. -/
theorem isLastSetting_concat_iff (settings : List Cell) (setting : Cell) (column value : String) :
    IsLastSetting (settings ++ [setting]) column value ↔
      setting = (column, value) ∨ setting.1 ≠ column ∧ IsLastSetting settings column value := by
  constructor
  · rintro ⟨before, after, split, last⟩
    -- Either the column is set at the end, or the end is one of the settings that do not set it.
    cases after using List.reverseRecOn with
    | nil => exact .inl (List.singleton_inj.mp (List.append_inj' split rfl).2)
    | append_singleton init final =>
      rw [← List.cons_append, ← List.append_assoc] at split
      obtain ⟨front, ends⟩ := List.append_inj' split rfl
      rw [List.singleton_inj] at ends
      subst ends
      have others : ∀ earlier ∈ init, earlier.1 ≠ column := fun earlier among =>
        last earlier (List.mem_append_left _ among)
      exact .inr ⟨last setting List.mem_concat_self, before, init, front, others⟩
  · rintro (rfl | ⟨unlike, before, after, rfl, others⟩)
    · exact ⟨settings, [], rfl, List.forall_mem_nil _⟩
    · refine ⟨before, after ++ [setting], List.append_assoc _ _ _, ?_⟩
      intro later among
      rcases List.mem_append.mp among with earlier | final
      · exact others later earlier
      · rw [List.mem_singleton.mp final]
        exact unlike

/-! ### Rows -/

namespace Row

theorem size_eq (row : Row) : row.size = row.columns.length :=
  (List.length_map _).symm

theorem keepsOthers_set (row : Row) (column value : String) :
    KeepsOthers column row (row.set column value) where
  values other unlike := by rw [get?_set, if_neg unlike]
  places other unlike place := by
    rw [columns_set]
    split
    next => rfl
    next =>
      rw [List.getElem?_append]
      split
      next => rfl
      next beyond =>
        -- Behind the old columns there is only the new one.
        rw [List.getElem?_eq_none (Nat.not_lt.mp beyond), List.getElem?_singleton]
        split <;> simp [Ne.symm unlike]

end Row

namespace Holds

theorem empty : Holds [] Row.empty where
  columns := .nil
  size := rfl
  value_iff column value := by
    simp [Row.get?, Row.empty, IsLastSetting]
  unset_iff column := by simp [Row.get?, Row.empty]

variable {settings : List Cell} {row : Row} (holds : Holds settings row)
include holds

/-- One more setting. -/
theorem set (column value : String) :
    Holds (settings ++ [(column, value)]) (row.set column value) := by
  have columns : AreFirstNamed ((settings ++ [(column, value)]).map Prod.fst)
      (row.set column value).columns := by
    rw [Row.columns_set, List.map_append]
    split
    next known => exact holds.columns.concat_of_mem known
    next new => exact holds.columns.concat_of_not_mem new
  constructor
  · exact columns
  · have same := List.toFinset.ext columns.mem_iff
    rw [Row.size_eq, ← same, List.toFinset_card_of_nodup columns.distinct]
  · intro name new
    rw [Row.get?_set, isLastSetting_concat_iff, Prod.mk.injEq]
    split
    next same => simp [same]
    next unlike => simp [Ne.symm unlike, holds.value_iff]
  · intro name
    rw [Row.get?_set, List.forall_mem_append, List.forall_mem_singleton]
    split
    next same => simp [same]
    next unlike =>
      rw [holds.unset_iff, and_iff_left (Ne.symm unlike)]

end Holds

namespace Row

/-- A row holds what its settings say, however many they are. -/
theorem holds_ofCells (settings : List Cell) : Holds settings (ofCells settings) := by
  induction settings using List.reverseRecOn with
  | nil => exact .empty
  | append_singleton init setting ih =>
    rw [ofCells_append_singleton]
    exact ih.set setting.1 setting.2

theorem areFirstNamed_iff (settings : List Cell) (columns : List String) :
    AreFirstNamed (settings.map Prod.fst) columns ↔ columns = (ofCells settings).columns := by
  constructor
  · intro first
    exact first.unique (holds_ofCells settings).columns
  · rintro rfl
    exact (holds_ofCells settings).columns

theorem ofCells_eq_iff (settings others : List Cell) :
    ofCells settings = ofCells others ↔ SayTheSame settings others := by
  constructor
  · intro same
    constructor
    · intro columns
      rw [areFirstNamed_iff, areFirstNamed_iff, same]
    · intro column value
      rw [← (holds_ofCells settings).value_iff, ← (holds_ofCells others).value_iff, same]
  · intro same
    have columns : (ofCells settings).columns = (ofCells others).columns :=
      (areFirstNamed_iff others _).mp ((same.columns_iff _).mp (holds_ofCells settings).columns)
    refine eq_of_get? columns fun column _ => Option.ext fun value => ?_
    rw [(holds_ofCells settings).value_iff, (holds_ofCells others).value_iff]
    exact same.value_iff column value

/-- Whatever is set in an empty row, in whatever order, the row is a map in order of insertion. -/
theorem ofCells_keeps_insertion_order (settings : List Cell) :
    Holds settings (ofCells settings) ∧
    (∀ others, ofCells settings = ofCells others ↔ SayTheSame settings others) ∧
    ∀ column value, KeepsOthers column (ofCells settings) ((ofCells settings).set column value) :=
  ⟨holds_ofCells settings, ofCells_eq_iff settings, keepsOthers_set (ofCells settings)⟩

/-- A column that is set again stays in front of the ones set since. -/
example : ofCells [("iteration", "1"), ("benchmark", "sum"), ("iteration", "2")] =
    ofCells [("iteration", "2"), ("benchmark", "sum")] := by decide

end Row

end BoardBench.Telemetry
