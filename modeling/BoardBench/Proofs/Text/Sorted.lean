import BoardBench.Text.Search
import BoardBench.Text.Sorted
import Mathlib.Data.List.Induction

/-!
# The keys of sorted lists

An association list that was built by adjusting has its keys in strictly ascending order, and they
are the keys that were adjusted, whatever was done to the values.
-/
namespace BoardBench

variable {κ ν α : Type} {before : κ → κ → Bool}

/-- A strict order in which any two keys can be compared. -/
structure IsOrder (before : κ → κ → Bool) : Prop where
  irrefl : ∀ key, before key key = false
  trans : ∀ {low middle high : κ},
    before low middle = true → before middle high = true → before low high = true
  connected : ∀ {one other : κ}, before one other = false → before other one = false → one = other

theorem isOrder_textBefore : IsOrder textBefore where
  irrefl key := decide_eq_false (String.lt_irrefl key)
  trans := by
    intro low middle high first second
    simp only [textBefore, decide_eq_true_eq] at first second ⊢
    exact String.lt_trans first second
  connected := by
    intro one other first second
    simp only [textBefore, decide_eq_false_iff_not, String.not_lt] at first second
    exact String.le_antisymm second first

def IsSorted (before : κ → κ → Bool) (entries : List (κ × ν)) : Prop :=
  (entries.map Prod.fst).Pairwise fun low high => before low high = true

/-! ### One adjustment -/

theorem mem_keys_adjust (order : IsOrder before) (key other : κ) (change : Option ν → ν)
    (entries : List (κ × ν)) :
    other ∈ (adjust before key change entries).map Prod.fst ↔
      other = key ∨ other ∈ entries.map Prod.fst := by
  induction entries with
  | nil => simp [adjust]
  | cons entry rest ih =>
    obtain ⟨first, value⟩ := entry
    rw [adjust]
    split
    next => simp
    next notBefore =>
      split
      next => simp only [List.map_cons, List.mem_cons, ih, or_left_comm]
      next notAfter =>
        -- The key is the first one, so nothing is added.
        have same : key = first :=
          order.connected (Bool.eq_false_iff.mpr notBefore) (Bool.eq_false_iff.mpr notAfter)
        simp [same]

theorem IsSorted.adjust (order : IsOrder before) {entries : List (κ × ν)}
    (sorted : IsSorted before entries) (key : κ) (change : Option ν → ν) :
    IsSorted before (adjust before key change entries) := by
  induction entries with
  | nil => simp [IsSorted, BoardBench.adjust]
  | cons entry rest ih =>
    obtain ⟨first, value⟩ := entry
    have tail := List.pairwise_cons.mp sorted
    rw [BoardBench.adjust]
    split
    next isBefore =>
      apply List.pairwise_cons.mpr
      refine ⟨?_, sorted⟩
      intro later member
      rcases List.mem_cons.mp member with rfl | member
      · exact isBefore
      · exact order.trans isBefore (tail.1 later member)
    next =>
      split
      next isAfter =>
        apply List.pairwise_cons.mpr
        refine ⟨?_, ih tail.2⟩
        intro later member
        rcases (mem_keys_adjust order key later change rest).mp member with rfl | member
        · exact isAfter
        · exact tail.1 later member
      next => exact sorted

/-! ### Many adjustments -/

section Fold

variable (order : IsOrder before) (key : α → κ) (change : α → Option ν → ν) (items : List α)
include order

theorem mem_keys_foldl_adjust (other : κ) (entries : List (κ × ν)) :
    other ∈ (items.foldl (fun entries item => adjust before (key item) (change item) entries)
        entries).map Prod.fst ↔
      (∃ item ∈ items, key item = other) ∨ other ∈ entries.map Prod.fst := by
  induction items generalizing entries with
  | nil => simp
  | cons item rest ih =>
    rw [List.foldl_cons, ih, mem_keys_adjust order]
    simp only [List.mem_cons, exists_eq_or_imp, eq_comm (a := other)]
    exact or_left_comm.trans or_assoc.symm

theorem isSorted_foldl_adjust {entries : List (κ × ν)} (sorted : IsSorted before entries) :
    IsSorted before
      (items.foldl (fun entries item => adjust before (key item) (change item) entries)
        entries) := by
  induction items generalizing entries with
  | nil => exact sorted
  | cons item rest ih => exact ih (sorted.adjust order (key item) (change item))

end Fold

/-- An entry in order stands behind the smaller keys and in front of the greater ones. -/
theorem IsSorted.exists_split {entries : List (κ × ν)} (sorted : IsSorted before entries)
    {entry : κ × ν} (member : entry ∈ entries) :
    ∃ front back, entries = front ++ entry :: back ∧
      (∀ other ∈ front, before other.1 entry.1 = true) ∧
      ∀ other ∈ back, before entry.1 other.1 = true := by
  obtain ⟨front, back, rfl⟩ := List.append_of_mem member
  rw [IsSorted, List.map_append, List.pairwise_append, List.map_cons, List.pairwise_cons] at sorted
  obtain ⟨-, ⟨after, -⟩, across⟩ := sorted
  refine ⟨front, back, rfl, ?_, ?_⟩
  · intro other earlier
    exact across other.1 (List.mem_map_of_mem earlier) entry.1 List.mem_cons_self
  · intro other later
    exact after other.1 (List.mem_map_of_mem later)

/-! ### Entries in order -/

theorem isSorted_sortedEntries (order : IsOrder before) (entries : List (κ × ν)) :
    IsSorted before (sortedEntries before entries) :=
  isSorted_foldl_adjust order Prod.fst (fun entry _ => entry.2) entries List.Pairwise.nil

/-- A key in front of all others is not among them. -/
theorem forall_ne_of_before (order : IsOrder before) {key first : κ} {old : ν}
    {rest : List (κ × ν)} (sorted : IsSorted before ((first, old) :: rest))
    (isBefore : before key first = true) : ∀ entry ∈ (first, old) :: rest, entry.1 ≠ key := by
  have tail := List.pairwise_cons.mp sorted
  rintro entry member rfl
  rcases List.mem_cons.mp member with rfl | member
  · rw [order.irrefl] at isBefore
    cases isBefore
  · have cycle := order.trans isBefore (tail.1 entry.1 (List.mem_map_of_mem member))
    rw [order.irrefl] at cycle
    cases cycle

/-- The key that was adjusted has its new value, the other keys keep theirs. -/
theorem mem_adjust_iff [BEq κ] [LawfulBEq κ] (order : IsOrder before) {entries : List (κ × ν)}
    (sorted : IsSorted before entries) (key other : κ) (change : Option ν → ν) (value : ν) :
    (other, value) ∈ adjust before key change entries ↔
      other = key ∧ value = change (entries.lookup key) ∨
        other ≠ key ∧ (other, value) ∈ entries := by
  induction entries with
  | nil => simp [adjust]
  | cons entry rest ih =>
    obtain ⟨first, old⟩ := entry
    have tail := List.pairwise_cons.mp sorted
    rw [adjust]
    split
    next isBefore =>
      have apart := forall_ne_of_before order sorted isBefore
      have absent : ((first, old) :: rest).lookup key = none :=
        List.lookup_eq_none_iff.mpr fun entry member => bne_iff_ne.mpr (apart entry member).symm
      rw [List.mem_cons, Prod.mk.injEq, absent]
      exact or_congr_right (iff_and_self.mpr fun member => apart (other, value) member)
    next notBefore =>
      split
      next isAfter =>
        have apart : first ≠ key := by
          rintro rfl
          rw [order.irrefl] at isAfter
          cases isAfter
        have further : ((first, old) :: rest).lookup key = rest.lookup key := by
          rw [List.lookup_cons, beq_eq_false_iff_ne.mpr apart.symm]
        rw [List.mem_cons, ih tail.2, List.mem_cons, Prod.mk.injEq, further]
        grind
      next notAfter =>
        have same : key = first :=
          order.connected (Bool.eq_false_iff.mpr notBefore) (Bool.eq_false_iff.mpr notAfter)
        subst same
        have apart (member : (other, value) ∈ rest) : other ≠ key := by
          rintro rfl
          have self := tail.1 other (List.mem_map_of_mem member)
          rw [order.irrefl] at self
          cases self
        rw [List.mem_cons, List.mem_cons, Prod.mk.injEq, Prod.mk.injEq, List.lookup_cons_self]
        grind

/-- Of the entries with one key the last one is kept. -/
theorem mem_sortedEntries_iff [BEq κ] [LawfulBEq κ] (order : IsOrder before)
    (entries : List (κ × ν)) (key : κ) (value : ν) :
    (key, value) ∈ sortedEntries before entries ↔ entries.reverse.lookup key = some value := by
  induction entries using List.reverseRecOn with
  | nil => simp [sortedEntries]
  | append_singleton earlier entry ih =>
    have last : sortedEntries before (earlier ++ [entry]) =
        adjust before entry.1 (fun _ => entry.2) (sortedEntries before earlier) := by
      simp [sortedEntries]
    rw [last, mem_adjust_iff order (isSorted_sortedEntries order earlier), ih, List.reverse_concat,
      List.lookup_cons]
    by_cases own : key = entry.1
    · simp [own, eq_comm]
    · simp [own, beq_eq_false_iff_ne.mpr own]

/-- A key behind all others is added at the end. -/
theorem adjust_of_forall_before (order : IsOrder before) {entries : List (κ × ν)} {key : κ}
    (last : ∀ entry ∈ entries, before entry.1 key = true) (change : Option ν → ν) :
    adjust before key change entries = entries ++ [(key, change none)] := by
  induction entries with
  | nil => rfl
  | cons entry rest ih =>
    have both := List.forall_mem_cons.mp last
    have notBefore : ¬before key entry.1 = true := by
      intro isBefore
      have cycle := order.trans isBefore both.1
      rw [order.irrefl] at cycle
      cases cycle
    rw [adjust, if_neg notBefore, if_pos both.1, ih both.2, List.cons_append]

/-- Entries that are in order stay as they are. -/
theorem sortedEntries_eq_self (order : IsOrder before) {entries : List (κ × ν)}
    (sorted : IsSorted before entries) : sortedEntries before entries = entries := by
  induction entries using List.reverseRecOn with
  | nil => rfl
  | append_singleton earlier entry ih =>
    rw [IsSorted, List.map_append, List.pairwise_append] at sorted
    obtain ⟨front, -, across⟩ := sorted
    have last : ∀ other ∈ earlier, before other.1 entry.1 = true := by
      intro other among
      exact across other.1 (List.mem_map_of_mem among) entry.1 (by simp)
    have adjusted := adjust_of_forall_before order last fun _ => entry.2
    rw [← ih front] at adjusted
    rw [sortedEntries, List.foldl_append]
    exact adjusted.trans (by rw [ih front])

/-! ### Members in order -/

theorem mem_sortedMembers_iff (order : IsOrder before) (item : κ) (items : List κ) :
    item ∈ sortedMembers before items ↔ item ∈ items := by
  rw [sortedMembers, sortedEntries, mem_keys_foldl_adjust order]
  simp

theorem pairwise_sortedMembers (order : IsOrder before) (items : List κ) :
    (sortedMembers before items).Pairwise fun low high => before low high = true :=
  isSorted_foldl_adjust order _ _ _ List.Pairwise.nil

/-! ### Groups -/

section Groups

variable (order : IsOrder before) (key : α → κ)
include order

theorem isSorted_groupsBy (items : List α) : IsSorted before (groupsBy before key items) :=
  isSorted_foldl_adjust order key (fun item group => group.getD [] ++ [item]) items
    List.Pairwise.nil

theorem mem_keys_groupsBy_iff (items : List α) (shared : κ) :
    shared ∈ (groupsBy before key items).map Prod.fst ↔ ∃ item ∈ items, key item = shared := by
  rw [groupsBy, mem_keys_foldl_adjust order]
  simp

variable [DecidableEq κ]

/-- A group consists of all items with its key, in order; every item is in some group. -/
theorem mem_groupsBy_iff (items : List α) (shared : κ) (members : List α) :
    (shared, members) ∈ groupsBy before key items ↔
      members = items.filter (fun item => key item = shared) ∧ members ≠ [] := by
  induction items using List.reverseRecOn generalizing shared members with
  | nil => simp [groupsBy]
  | append_singleton earlier item ih =>
    have last : groupsBy before key (earlier ++ [item]) =
        adjust before (key item) (fun group => group.getD [] ++ [item])
          (groupsBy before key earlier) := by
      simp [groupsBy]
    -- A key without a group so far is that of no earlier item.
    have found : ((groupsBy before key earlier).lookup (key item)).getD [] =
        earlier.filter fun other => key other = key item := by
      cases group : (groupsBy before key earlier).lookup (key item) with
      | none =>
        have absent := List.lookup_eq_none_iff.mp group
        by_contra filled
        have present := (ih (key item) _).mpr ⟨rfl, Ne.symm filled⟩
        simpa using absent _ present
      | some others =>
        obtain ⟨front, back, split, -⟩ := List.lookup_eq_some_iff.mp group
        have present : (key item, others) ∈ groupsBy before key earlier := by
          rw [split]
          exact List.mem_append_right _ List.mem_cons_self
        exact ((ih (key item) others).mp present).1
    rw [last, mem_adjust_iff order (isSorted_groupsBy order key earlier), found, ih,
      List.filter_append]
    by_cases own : key item = shared
    · subst own
      simp only [ne_eq, not_true_eq_false, false_and, or_false, true_and, decide_true,
        List.filter_cons_of_pos, List.filter_nil]
      apply iff_self_and.mpr
      rintro rfl
      exact List.append_ne_nil_of_right_ne_nil _ (List.cons_ne_nil _ _)
    · simp [own, Ne.symm own]

end Groups

end BoardBench
