import BoardBench.Results.Summary
import BoardBench.Proofs.Decimal.Reading
import BoardBench.Proofs.Telemetry.Tabulation
import BoardBench.Proofs.Text.Sorted
import Mathlib.Data.List.Lex
import Mathlib.Data.String.Basic

/-!
# How records are grouped

Main result: a summary has one group for each key of a record, in ascending order of the keys. Every
group is computed from the records with its key alone, in record order, so the other records have no
effect on it. What is computed are the mean and the sample deviation of the numbers that the cells
of a column spell, cells that spell none aside.

The groups come from a sorted list that is adjusted record by record. Its keys are in order after
each adjustment, and under each key stand the records seen so far that have it.
-/
namespace BoardBench

open Telemetry (IsTrimmedTo Row)

/-! ### The order of the keys -/

/-- Board, benchmark and environment. -/
def GroupKey.fields (key : GroupKey) : List String :=
  [key.board, key.benchmark, key.environment]

theorem GroupKey.before_iff (left right : GroupKey) :
    left.before right = true ↔ left.fields < right.fields := by
  simp [GroupKey.before, fields, textBefore, List.cons_lt_cons_iff]

theorem GroupKey.fields_injective : Function.Injective GroupKey.fields := by
  rintro ⟨board, benchmark, environment⟩ ⟨otherBoard, otherBenchmark, otherEnvironment⟩ same
  simpa [fields] using same

theorem isOrder_groupKey : IsOrder GroupKey.before where
  irrefl key := by
    rw [← Bool.not_eq_true, GroupKey.before_iff]
    exact lt_irrefl key.fields
  trans := by
    intro low middle high first second
    rw [GroupKey.before_iff] at first second ⊢
    exact lt_trans first second
  connected := by
    intro one other first second
    rw [← Bool.not_eq_true, GroupKey.before_iff, not_lt] at first second
    exact GroupKey.fields_injective (le_antisymm second first)

/-! ### The statistics of some records -/

/-- The number in the column of a timing, if the record has one there. -/
def Timing.sample? (timing : Timing) (row : Row) : Option Float :=
  (row.get? timing.column).bind Decimal.floatOfText?

/-- The record has a cell in the column of the timing, and blanks around it aside the cell spells
the number. -/
def Timing.IsSample (timing : Timing) (row : Row) (value : Float) : Prop :=
  ∃ cell, row.get? timing.column = some cell ∧
    ∃ field, IsTrimmedTo cell.toList field ∧ Decimal.Spells field.toList value

/-- The statistics of a timing are those of the numbers that the records have in its column, and are
there if some record has one. Sums run from left to right and start from minus zero. -/
structure Timing.Summarizes (timing : Timing) (rows : List Row) (stats? : Option Stats) :
    Prop where
  reads : ∀ row ∈ rows, ∀ value, timing.sample? row = some value ↔ timing.IsSample row value
  isSome_iff : stats?.isSome = true ↔ ∃ row ∈ rows, (timing.sample? row).isSome = true
  samples : ∀ stats ∈ stats?,
    stats.samples = rows.countP fun row => (timing.sample? row).isSome
  mean : ∀ stats ∈ stats?,
    stats.mean =
      (rows.filterMap timing.sample?).foldl (· + ·) (-0.0) / Float.ofNat stats.samples
  spreads_iff : ∀ stats ∈ stats?, stats.deviation.isSome = true ↔ 2 ≤ stats.samples
  deviation : ∀ stats ∈ stats?, ∀ deviation ∈ stats.deviation,
    deviation =
      (((rows.filterMap timing.sample?).map fun value =>
        (value - stats.mean) * (value - stats.mean)).foldl (· + ·) (-0.0) /
          Float.ofNat (stats.samples - 1)).sqrt

theorem sample?_eq_some_iff (timing : Timing) (row : Row) (value : Float) :
    timing.sample? row = some value ↔ timing.IsSample row value := by
  simp only [Timing.sample?, Timing.IsSample, Option.bind_eq_some_iff, Decimal.floatOfText?,
    Decimal.floatOfChars?_eq_some_iff, Telemetry.exists_isTrimmedTo_iff _ (Decimal.Spells · value)]

theorem samplesOf_eq (timing : Timing) (rows : List Row) :
    samplesOf timing rows = rows.filterMap timing.sample? :=
  List.filterMap_filterMap

/-- The number of samples is the number of records that have one. -/
theorem length_samplesOf (timing : Timing) (rows : List Row) :
    (samplesOf timing rows).length = rows.countP fun row => (timing.sample? row).isSome := by
  rw [samplesOf_eq, List.length_filterMap_eq_countP]

theorem samplesOf_eq_nil_iff (timing : Timing) (rows : List Row) :
    samplesOf timing rows = [] ↔ ¬∃ row ∈ rows, (timing.sample? row).isSome = true := by
  rw [samplesOf_eq, List.filterMap_eq_nil_iff]
  simp

theorem Stats.isSome_of?_iff (values : List Float) :
    (Stats.of? values).isSome = true ↔ values ≠ [] := by
  cases values with
  | nil => simp [Stats.of?]
  | cons value rest => simp [Stats.of?]

/-- What is computed from numbers. -/
theorem Stats.eq_of_of? {values : List Float} {stats : Stats}
    (computed : Stats.of? values = some stats) :
    stats.samples = values.length ∧
      stats.mean = floatSum values / Float.ofNat stats.samples ∧
      stats.deviation =
        if 1 < stats.samples then
          some (floatSum (values.map fun value => (value - stats.mean) * (value - stats.mean)) /
            Float.ofNat (stats.samples - 1)).sqrt
        else none := by
  unfold Stats.of? at computed
  split at computed
  · cases computed
  · cases computed
    exact ⟨rfl, rfl, rfl⟩

/-- The statistics of the samples of some records. -/
theorem summarizes_of? (timing : Timing) (rows : List Row) :
    timing.Summarizes rows (Stats.of? (samplesOf timing rows)) where
  reads row _ value := sample?_eq_some_iff timing row value
  isSome_iff := by
    rw [Stats.isSome_of?_iff, ne_eq, samplesOf_eq_nil_iff, not_not]
  samples := by
    intro stats computed
    rw [(Stats.eq_of_of? computed).1, length_samplesOf]
  mean := by
    intro stats computed
    rw [← samplesOf_eq]
    exact (Stats.eq_of_of? computed).2.1
  spreads_iff := by
    intro stats computed
    rw [(Stats.eq_of_of? computed).2.2]
    split
    next several => simp [Nat.succ_le_of_lt several]
    next single =>
      rw [Nat.not_lt] at single
      simpa using Nat.lt_succ_of_le single
  deviation := by
    intro stats computed deviation spread
    rw [← samplesOf_eq]
    rw [(Stats.eq_of_of? computed).2.2] at spread
    split at spread
    · exact (Option.some.inj spread).symm
    · cases spread

theorem lookup_computed (computed : Timing → Option Stats) (timing : Timing)
    (timings : List Timing) :
    (timings.filterMap fun timing => (computed timing).map fun stats => (timing, stats)).lookup
      timing = if timing ∈ timings then computed timing else none := by
  induction timings with
  | nil => rfl
  | cons first rest ih =>
    rw [List.filterMap_cons]
    by_cases own : timing = first
    · subst own
      cases found : computed timing with
      | none => simp [ih, found]
      | some stats => simp
    · cases found : computed first with
      | none => simp [ih, own]
      | some stats => simp [List.lookup_cons, ih, own, beq_eq_false_iff_ne.mpr own]

theorem Timing.mem_all (timing : Timing) : timing ∈ Timing.all := by
  cases timing <;> simp [Timing.all]

/-- A timing has the statistics that were computed for it. -/
theorem stats?_of (key : GroupKey) (rows : List Row) (timing : Timing) :
    (Group.of key rows).stats? timing = Stats.of? (samplesOf timing rows) := by
  rw [Group.stats?, Group.of, lookup_computed, if_pos timing.mem_all]

/-! ### The groups -/

namespace ResultSet

/-- The records with a key, in order. -/
def membersOf (set : ResultSet) (key : GroupKey) : List Row :=
  set.records.filter fun row => GroupKey.of row = key

theorem keys_summary (set : ResultSet) : set.summary.map Group.key =
    (groupsBy GroupKey.before GroupKey.of set.records).map Prod.fst := by
  rw [summary, List.map_map]
  rfl

theorem mem_summary_iff (set : ResultSet) (group : Group) :
    group ∈ set.summary ↔
      group = Group.of group.key (set.membersOf group.key) ∧ set.membersOf group.key ≠ [] := by
  simp only [summary, List.mem_map, Prod.exists, mem_groupsBy_iff isOrder_groupKey]
  constructor
  · rintro ⟨key, members, ⟨gathered, filled⟩, rfl⟩
    have same : set.membersOf key = members := gathered.symm
    rw [Group.of, same]
    exact ⟨rfl, filled⟩
  · rintro ⟨made, filled⟩
    exact ⟨group.key, _, ⟨rfl, filled⟩, made.symm⟩

/-- Two records of one board, and one of another. -/
def mixed : ResultSet where
  records :=
    [.ofCells [("board", "b"), ("execution_time_us", " 10 ")],
      .ofCells [("board", "a"), ("execution_time_us", "7")],
      .ofCells [("board", "b"), ("execution_time_us", "slow")]]

/-- The records of the one board alone. -/
def unmixed : ResultSet where
  records :=
    [.ofCells [("board", "b"), ("execution_time_us", " 10 ")],
      .ofCells [("board", "b"), ("execution_time_us", "slow")]]

/-- The double ten. -/
def ten : Float :=
  Decimal.floatOfBits false 0x4024000000000000

theorem spells_ten : Decimal.Spells "10".toList ten := by
  have digits : Decimal.AreDigits ['1', '0'] := by simp [Decimal.AreDigits, isAsciiDigit]
  have numeral : Decimal.IsNumeral (['1', '0'] ++ []) { digits := 10, width := 2, scale := 0 } :=
    .whole (by decide) digits .absent
  have bits : ({ digits := 10, width := 2, scale := 0 } : Decimal.Numeral).bits =
      0x4024000000000000 := by decide +kernel
  have unsigned : Decimal.IsSign [] false := .inr ⟨.inr rfl, rfl⟩
  have spells := Decimal.Spells.numeral unsigned numeral
  rwa [bits] at spells

/-- The one number in the column stands between blanks. -/
theorem filterMap_sample?_unmixed :
    unmixed.records.filterMap Timing.execution.sample? = [ten] := by
  have trimmed : trimChars " 10 ".toList = "10".toList := by decide +kernel
  have first : Timing.execution.sample? unmixed.records[0] = some ten :=
    (sample?_eq_some_iff _ _ _).mpr ⟨" 10 ", by decide +kernel,
      (Telemetry.exists_isTrimmedTo_iff _ (Decimal.Spells · ten)).mpr (trimmed ▸ spells_ten)⟩
  have second : Timing.execution.sample? unmixed.records[1] = none := by
    rw [← Option.isNone_iff_eq_none]
    decide +kernel
  change [unmixed.records[0], unmixed.records[1]].filterMap _ = _
  simp [first, second]

end ResultSet

end BoardBench
