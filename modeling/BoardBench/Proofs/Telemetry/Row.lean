import BoardBench.Telemetry.Row
import Mathlib.Data.List.Basic
import Mathlib.Data.List.Induction

/-!
# Rows built cell by cell

A row keeps its columns in the order in which they were first set, and under each of them the value
that was set last. So a row that is built cell by cell is told by the list of these cells.
-/
namespace BoardBench.Telemetry

/-! ### One cell -/

/-- Setting a column that is there keeps the columns, setting another one puts it at the end. -/
theorem names_setCell (column value : String) (cells : List Cell) :
    (setCell column value cells).map Prod.fst =
      if column ∈ cells.map Prod.fst then cells.map Prod.fst
      else cells.map Prod.fst ++ [column] := by
  induction cells with
  | nil => rfl
  | cons cell rest ih =>
    obtain ⟨name, old⟩ := cell
    rw [setCell]
    split
    next same => simp [same]
    next differ =>
      have unlike : column ≠ name := Ne.symm differ
      simp only [List.map_cons, ih, List.mem_cons, unlike, false_or]
      split <;> rfl

theorem lookup_cell (name value other : String) (rest : List Cell) :
    ((name, value) :: rest).lookup other =
      if other = name then some value else rest.lookup other := by
  rw [List.lookup_cons]
  by_cases here : other = name
  · simp [here]
  · have unlike : (other == name) = false := by simpa using here
    simp [here, unlike]

theorem lookup_setCell (column value other : String) (cells : List Cell) :
    (setCell column value cells).lookup other =
      if other = column then some value else cells.lookup other := by
  induction cells with
  | nil => exact lookup_cell column value other []
  | cons cell rest ih =>
    obtain ⟨name, old⟩ := cell
    rw [setCell, lookup_cell]
    split
    -- The cell is replaced where it is, which only its own column can see.
    next same =>
      subst same
      rw [lookup_cell]
      split <;> rfl
    next differ =>
      rw [lookup_cell, ih]
      by_cases here : other = name
      · simp [here, differ]
      · simp [here]

/-- A search for other columns does not see that a column is set. -/
theorem find?_setCell (sought : String → Bool) {column : String} (unlike : sought column = false)
    (value : String) (cells : List Cell) :
    (setCell column value cells).find? (fun cell => sought cell.1) =
      cells.find? fun cell => sought cell.1 := by
  induction cells with
  | nil => simp [setCell, unlike]
  | cons cell rest ih =>
    obtain ⟨name, old⟩ := cell
    rw [setCell]
    split
    next same =>
      subst same
      simp [unlike]
    next => simp only [List.find?_cons, ih]

/-! ### Rows -/

namespace Row

@[simp]
theorem columns_set (row : Row) (column value : String) :
    (row.set column value).columns =
      if column ∈ row.columns then row.columns else row.columns ++ [column] :=
  names_setCell column value row.cells

@[simp]
theorem get?_set (row : Row) (column value other : String) :
    (row.set column value).get? other = if other = column then some value else row.get? other :=
  lookup_setCell column value other row.cells

theorem iteration?_set (row : Row) {column : String}
    (unlike : sameIgnoringCase column iterationColumn = false) (value : String) :
    (row.set column value).iteration? = row.iteration? := by
  have found : (row.set column value).cells.find?
        (fun cell => sameIgnoringCase cell.1 iterationColumn) =
      row.cells.find? fun cell => sameIgnoringCase cell.1 iterationColumn :=
    find?_setCell (fun name => sameIgnoringCase name iterationColumn) unlike value row.cells
  rw [iteration?, found]
  rfl

/-! ### Cells set one after the other -/

/-- The row with some cells set in turn. -/
def setAll (row : Row) (cells : List Cell) : Row :=
  cells.foldl (fun row cell => row.set cell.1 cell.2) row

@[simp] theorem setAll_nil (row : Row) : row.setAll [] = row := rfl

@[simp] theorem setAll_cons (row : Row) (cell : Cell) (cells : List Cell) :
    row.setAll (cell :: cells) = (row.set cell.1 cell.2).setAll cells := rfl

/-- The columns keep their order, and those that are new come after them. -/
theorem columns_setAll (row : Row) {cells : List Cell} (apart : (cells.map Prod.fst).Nodup) :
    (row.setAll cells).columns =
      row.columns ++ (cells.map Prod.fst).filter (· ∉ row.columns) := by
  induction cells generalizing row with
  | nil => simp
  | cons cell rest ih =>
    obtain ⟨fresh, distinct⟩ := List.nodup_cons.mp apart
    rw [setAll_cons, ih _ distinct, columns_set, List.map_cons]
    split
    next known => simp [known]
    next new =>
      -- The names that follow are not the one that was just added.
      have same : (rest.map Prod.fst).filter (· ∉ row.columns ++ [cell.1]) =
          (rest.map Prod.fst).filter (· ∉ row.columns) := by
        refine List.filter_congr fun name among => ?_
        have unlike : name ≠ cell.1 := fun same => fresh (same ▸ among)
        simp [unlike]
      rw [same, List.filter_cons_of_pos (by simpa using new), List.append_assoc]
      rfl

theorem get?_setAll_of_not_mem (row : Row) {cells : List Cell} {column : String}
    (other : column ∉ cells.map Prod.fst) : (row.setAll cells).get? column = row.get? column := by
  induction cells generalizing row with
  | nil => rfl
  | cons cell rest ih =>
    rw [List.map_cons, List.mem_cons, not_or] at other
    rw [setAll_cons, ih _ other.2, get?_set, if_neg other.1]

theorem get?_setAll_of_mem (row : Row) {cells : List Cell} (apart : (cells.map Prod.fst).Nodup)
    {cell : Cell} (member : cell ∈ cells) :
    (row.setAll cells).get? cell.1 = some cell.2 := by
  induction cells generalizing row with
  | nil => cases member
  | cons first rest ih =>
    obtain ⟨fresh, distinct⟩ := List.nodup_cons.mp apart
    rw [setAll_cons]
    rcases List.mem_cons.mp member with rfl | later
    · rw [get?_setAll_of_not_mem _ fresh, get?_set, if_pos rfl]
    · exact ih _ distinct later

theorem iteration?_setAll (row : Row) {cells : List Cell}
    (unlike : ∀ cell ∈ cells, sameIgnoringCase cell.1 iterationColumn = false) :
    (row.setAll cells).iteration? = row.iteration? := by
  induction cells generalizing row with
  | nil => rfl
  | cons cell rest ih =>
    have both := List.forall_mem_cons.mp unlike
    rw [setAll_cons, ih _ both.2, iteration?_set row both.1]

/-! ### Rows from cells -/

theorem ofCells_append_singleton (cells : List Cell) (cell : Cell) :
    ofCells (cells ++ [cell]) = (ofCells cells).set cell.1 cell.2 := by
  rw [ofCells, List.foldl_append]
  rfl

/-- The columns are the distinct names, in the order in which they first appear. -/
theorem columns_ofCells (cells : List Cell) :
    (ofCells cells).columns = (cells.map Prod.fst).eraseDups := by
  induction cells using List.reverseRecOn with
  | nil => rfl
  | append_singleton init cell ih =>
    rw [ofCells_append_singleton, columns_set, ih, List.map_append, List.eraseDups_append]
    by_cases known : cell.1 ∈ init.map Prod.fst
    · simp [List.removeAll, known]
    · simp [List.removeAll, known, List.eraseDups_cons]

/-- What is set after the last mention of a column does not count for it. -/
theorem get?_ofCells {before after : List Cell} {column value : String}
    (last : column ∉ after.map Prod.fst) :
    (ofCells (before ++ (column, value) :: after)).get? column = some value := by
  induction after using List.reverseRecOn with
  | nil => rw [ofCells_append_singleton, get?_set, if_pos rfl]
  | append_singleton init cell ih =>
    simp only [List.map_append, List.mem_append, not_or] at last
    have unlike : column ≠ cell.1 := by simpa using last.2
    rw [← List.cons_append, ← List.append_assoc, ofCells_append_singleton, get?_set,
      if_neg unlike, ih last.1]

/-- A row is known by its columns and the values under them. -/
theorem eq_of_get? {row other : Row} (columns : row.columns = other.columns)
    (values : ∀ column ∈ row.columns, row.get? column = other.get? column) : row = other := by
  obtain ⟨cells, distinct⟩ := row
  obtain ⟨others, distinctOthers⟩ := other
  simp only [mk.injEq]
  simp only [Row.columns, get?] at columns values
  induction cells generalizing others with
  | nil => simpa using columns.symm
  | cons cell rest ih =>
    cases others with
    | nil => simp at columns
    | cons next more =>
      obtain ⟨name, value⟩ := cell
      obtain ⟨_, second⟩ := next
      simp only [List.map_cons, List.cons.injEq] at columns distinct distinctOthers
      obtain ⟨rfl, tails⟩ := columns
      have same : value = second := by simpa [lookup_cell] using values name (by simp)
      rw [List.nodup_cons] at distinct distinctOthers
      subst same
      refine congrArg (_ :: ·) (ih distinct.2 more distinctOthers.2 tails ?_)
      -- The first column does not come again, so it hides none of the others.
      intro column member
      have unlike : column ≠ name := by
        rintro rfl
        exact distinct.1 member
      have behind := values column (by simp [member])
      simpa [lookup_cell, unlike] using behind

end Row

end BoardBench.Telemetry
