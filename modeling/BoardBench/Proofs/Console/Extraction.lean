import BoardBench.Proofs.Console.Written

/-!
# Recovering a table from a console stream

Between the lines of a table other lines may stand, before and after it anything at all. The scanner
recovers the table from all this, since what stands between its lines is taken for none of them.
-/
namespace BoardBench.Console

open Telemetry (Row fieldsOf isHeader rowOf? parseRows)

/-! ### Lines between the lines of a table -/

/-- A line inside the window that does not close it, and whose text, if it is captured, `disturbs`
nothing. -/
structure IsNoise (disturbs : String → Prop) (line : Bytes) : Prop where
  isRun : IsRun line
  unclosing : isClosing (normalLine line) = false
  harmless : isCaptured (normalLine line) = true → ¬disturbs (normalLine line)

instance (disturbs : String → Prop) [DecidablePred disturbs] (line : Bytes) :
    Decidable (IsNoise disturbs line) :=
  decidable_of_iff (IsRun line ∧ isClosing (normalLine line) = false ∧
      (isCaptured (normalLine line) = true → ¬disturbs (normalLine line)))
    ⟨fun all => ⟨all.1, all.2.1, all.2.2⟩, fun all => ⟨all.isRun, all.unclosing, all.harmless⟩⟩

/-- The rows in order, with noise before, between and after them. Noise must not look like a row. -/
inductive RowLines (columns : List String) : List (List String) → List Bytes → Prop
  | done : RowLines columns [] []
  | row {cells : List String} {line : Bytes} {rows : List (List String)} {more : List Bytes} :
    IsWritten cells line → RowLines columns rows more →
      RowLines columns (cells :: rows) (line :: more)
  | noise {line : Bytes} {rows : List (List String)} {more : List Bytes} :
    IsNoise (fun text => (fieldsOf text).length = columns.length) line →
      RowLines columns rows more → RowLines columns rows (line :: more)

/-- The header, then the rows. Noise before the header must not look like a header. -/
inductive TableLines (columns : List String) (rows : List (List String)) : List Bytes → Prop
  | header {line : Bytes} {more : List Bytes} :
    IsWritten columns line → RowLines columns rows more → TableLines columns rows (line :: more)
  | noise {line : Bytes} {more : List Bytes} :
    IsNoise (fun text => isHeader text = true) line → TableLines columns rows more →
      TableLines columns rows (line :: more)

/-- What the window keeps of the lines. -/
def kept (group : List Bytes) : List String :=
  (group.map normalLine).filter isCaptured

theorem kept_cons (line : Bytes) (more : List Bytes) :
    kept (line :: more) = [normalLine line].filter isCaptured ++ kept more := by
  rw [kept, kept, List.map_cons, ← List.filter_append, List.singleton_append]

section Table

variable {columns : List String} (wide : 2 ≤ columns.length)
include wide

theorem RowLines.filterMap_kept {rows : List (List String)} {group : List Bytes}
    (rowLines : RowLines columns rows group) (even : ∀ row ∈ rows, row.length = columns.length)
    (sound : ∀ row ∈ rows, IsTableLine row) :
    (kept group).filterMap (rowOf? columns) =
      rows.map fun row => Row.ofCells (columns.zip row) := by
  induction rowLines with
  | done => rfl
  | @row cells line rows more written _ ih =>
    simp only [List.mem_cons, forall_eq_or_imp] at even sound
    have cellsWide : 2 ≤ cells.length := even.1 ▸ wide
    have fields := written.fieldsOf_eq cellsWide sound.1
    -- The line is captured and yields its row.
    have here : rowOf? columns (normalLine line) = some (Row.ofCells (columns.zip cells)) := by
      rw [Telemetry.rowOf?_eq_some wide (by rw [fields, even.1]), fields]
    rw [kept_cons, List.filterMap_append, ih even.2 sound.2]
    simp [written.isCaptured_eq_true cellsWide sound.1, here]
  | @noise line rows more noise _ ih =>
    -- Noise is not captured, or it has another number of cells and is passed over.
    rw [kept_cons, List.filterMap_append, ih even sound]
    by_cases captured : isCaptured (normalLine line) = true
    · simp [captured, Telemetry.rowOf?_eq_none (noise.harmless captured)]
    · simp [captured]

theorem RowLines.quiet {rows : List (List String)} {group : List Bytes}
    (rowLines : RowLines columns rows group) (even : ∀ row ∈ rows, row.length = columns.length)
    (sound : ∀ row ∈ rows, IsTableLine row) :
    ∀ line ∈ group, IsRun line ∧ isClosing (normalLine line) = false := by
  induction rowLines with
  | done => simp
  | row written _ ih =>
    simp only [List.mem_cons, forall_eq_or_imp] at even sound ⊢
    exact ⟨⟨written.isRun sound.1, written.isClosing_eq_false (even.1 ▸ wide) sound.1⟩,
      ih even.2 sound.2⟩
  | noise noise _ ih =>
    simp only [List.mem_cons, forall_eq_or_imp]
    exact ⟨⟨noise.isRun, noise.unclosing⟩, ih even sound⟩

end Table

/-- A table as a device has it: two columns or more with distinct names, a header line, and rows
with one cell for each column. -/
structure Table where
  columns : List String
  rows : List (List String)
  wide : 2 ≤ columns.length
  distinct : columns.Nodup
  headed : isHeader (tableLine columns) = true
  even : ∀ row ∈ rows, row.length = columns.length
  sound : ∀ cells ∈ columns :: rows, IsTableLine cells

namespace Table

/-- The lines inside a window that shows the table. -/
abbrev Shows (table : Table) (within : List Bytes) : Prop :=
  TableLines table.columns table.rows within

variable {table : Table} {within : List Bytes}

theorem quiet (shows : table.Shows within) :
    ∀ line ∈ within, IsRun line ∧ isClosing (normalLine line) = false := by
  have soundHeader : IsTableLine table.columns := table.sound _ (by simp)
  induction shows with
  | header written rowLines =>
    have rest := rowLines.quiet table.wide table.even fun row member =>
      table.sound row (by simp [member])
    simp only [List.mem_cons, forall_eq_or_imp]
    exact ⟨⟨written.isRun soundHeader, written.isClosing_eq_false table.wide soundHeader⟩, rest⟩
  | noise noise _ ih =>
    simp only [List.mem_cons, forall_eq_or_imp]
    exact ⟨⟨noise.isRun, noise.unclosing⟩, ih⟩

theorem parseRows_kept (shows : table.Shows within) :
    parseRows (kept within) = table.rows.map fun row => Row.ofCells (table.columns.zip row) := by
  have soundHeader : IsTableLine table.columns := table.sound _ (by simp)
  induction shows with
  | @header line more written rowLines =>
    have captured := written.isCaptured_eq_true table.wide soundHeader
    have isHead := (written.isHeader_eq table.wide soundHeader).trans table.headed
    have rest := rowLines.filterMap_kept table.wide table.even fun row member =>
      table.sound row (by simp [member])
    -- The header is the first line that is captured from here on.
    rw [kept_cons, List.filter_singleton, captured, cond_true, ← List.nil_append ([_] ++ _),
      List.singleton_append, Telemetry.parseRows_header (by simp) isHead,
      written.fieldsOf_eq table.wide soundHeader, rest]
  | @noise line more noise _ ih =>
    rw [kept_cons]
    by_cases captured : isCaptured (normalLine line) = true
    · have headless := noise.harmless captured
      simp only [List.filter_singleton, captured, cond_true, List.singleton_append, parseRows]
      rw [if_neg headless, ih]
    · simp [captured, ih]

/-- The table with its cells under their columns. -/
def cells (table : Table) : List (List Telemetry.Cell) :=
  table.rows.map table.columns.zip

theorem cells_parseRows_kept (shows : table.Shows within) :
    (parseRows (kept within)).map Row.cells = table.cells := by
  rw [parseRows_kept shows, cells, List.map_map]
  -- The columns are distinct, so no cell of a row replaces another one.
  refine List.map_congr_left fun row member => Telemetry.cells_ofCells ?_
  rw [List.map_fst_zip (table.even row member).ge]
  exact table.distinct

end Table

/-! ### The whole stream -/

/-- A stream that shows a table in its first window. What comes after the line that closes the
window may be anything, and so may the rest of the lines, as long as they do not open the window
before the table or disturb it. -/
structure Recording (table : Table) where
  before : List Bytes
  opening : Bytes
  within : List Bytes
  closing : Bytes
  rest : Bytes
  areRuns : ∀ line ∈ opening :: closing :: before, IsRun line
  unopened : ∀ line ∈ before, isOpening (normalLine line) = false
  opens : isOpening (normalLine opening) = true
  shows : table.Shows within
  closes : isClosing (normalLine closing) = true
  ends : rest = [] ∨ ∃ more, rest = lineFeed :: more

namespace Recording

variable {table : Table}

def bytes (recording : Recording table) : Bytes :=
  ended recording.before ++ (recording.opening ++ lineFeed ::
    (ended recording.within ++ (recording.closing ++ recording.rest)))

theorem lines_closing (recording : Recording table) :
    ∃ after, lines (recording.closing ++ recording.rest) = lineText recording.closing :: after := by
  have run : IsRun recording.closing := recording.areRuns _ (by simp)
  rcases recording.ends with empty | ⟨more, split⟩
  -- A last line without a line feed counts unless it is empty, and the closing line is not.
  · refine ⟨[], ?_⟩
    have some : recording.closing ≠ [] := by
      intro none
      have closes := recording.closes
      rw [none] at closes
      exact absurd closes (by decide)
    rw [empty, List.append_nil, lines_run run, if_neg some]
  · exact ⟨lines more, by rw [split, lines_run_append run]⟩

theorem lines_bytes (recording : Recording table) :
    ∃ after, lines recording.bytes =
      recording.before.map lineText ++ lineText recording.opening ::
        recording.within.map lineText ++ lineText recording.closing :: after := by
  obtain ⟨after, closing⟩ := recording.lines_closing
  have runBefore : ∀ line ∈ recording.before, IsRun line := fun line member =>
    recording.areRuns line (by simp [member])
  have runWithin : ∀ line ∈ recording.within, IsRun line := fun line member =>
    (Table.quiet recording.shows line member).1
  refine ⟨after, ?_⟩
  rw [bytes, lines_ended_append runBefore, lines_run_append (recording.areRuns _ (by simp)),
    lines_ended_append runWithin, closing]
  simp

/-- From a stream that shows a table, in whatever chunks it arrives, the scanner recovers that
table: its rows in order, each cell under its column. -/
theorem rows_of_recording (recording : Recording table) (source : Source)
    (arrives : source.bytes = recording.bytes) :
    (({} : Window).feedAll source.drain.1).isFinished = true ∧
      (({} : Window).feedAll source.drain.1).rows.map Row.cells = table.cells := by
  obtain ⟨after, split⟩ := recording.lines_bytes
  have texts : source.drain.1.map normalize =
      recording.before.map normalLine ++ normalLine recording.opening ::
        recording.within.map normalLine ++ normalLine recording.closing :: after.map normalize := by
    rw [(drain_spec source).1, arrives, split]
    simp only [List.map_append, List.map_cons, List.map_map]
    rfl
  have unopened : ∀ text ∈ recording.before.map normalLine, isOpening text = false := by
    simpa using recording.unopened
  have unclosed : ∀ text ∈ recording.within.map normalLine, isClosing text = false := by
    simpa using fun line member => (Table.quiet recording.shows line member).2
  -- Only the lines inside are captured: the ones before do not open, the ones after come too late.
  have scanned : ({} : Window).feedAll source.drain.1 =
      { phase := .finished, captured := kept recording.within } := by
    rw [Window.feedAll_eq_scan, texts,
      Window.scan_closed unopened recording.opens unclosed recording.closes]
    rfl
  rw [scanned]
  exact ⟨rfl, Table.cells_parseRows_kept recording.shows⟩

/-- A table of two rows, one of them with an empty cell. -/
def tableSample : Table where
  columns := ["iteration", "time"]
  rows := [["1", "20"], ["2", ""]]
  wide := by decide
  distinct := by decide
  headed := by decide
  even := by decide
  sound := by decide

/-- A stream with half a character, a garbled row, a timestamp and a carriage return in it. -/
def sample : Recording tableSample where
  before := [encode "booting\r", [0xFF, 0x3B]]
  opening := encode "# === Benchmark Begins ==="
  within := [[0xC3], encode "2024-01-01 00:00:00,100 # iteration ;time", encode "1;2;3",
    encode "#1; 20\r", encode "2;"]
  closing := encode "=== Benchmark End ==="
  rest := [lineFeed, 0x31]
  areRuns := by decide +kernel
  unopened := by decide +kernel
  opens := by decide +kernel
  closes := by decide +kernel
  ends := Or.inr ⟨_, rfl⟩
  shows := by
    have header : IsWritten ["iteration", "time"]
        (encode "2024-01-01 00:00:00,100 # iteration ;time") :=
      ⟨{ stamp := "2024-01-01 00:00:00,100 # ".toList, isStamp := Or.inr (by decide) },
        ["iteration ".toList, "time".toList], [],
        .cons ⟨[], [' '], by decide, by decide, by decide, by decide, by decide⟩
          (.cons ⟨[], [], by decide, by decide, by decide, by decide, by decide⟩ .nil),
        Or.inl rfl, congrArg encode (by decide)⟩
    have first : IsWritten ["1", "20"] (encode "#1; 20\r") :=
      ⟨{ hash := true, isStamp := Or.inl rfl }, ["1".toList, " 20".toList], ['\r'],
        .cons ⟨[], [], by decide, by decide, by decide, by decide, by decide⟩
          (.cons ⟨[' '], [], by decide, by decide, by decide, by decide, by decide⟩ .nil),
        Or.inr rfl, congrArg encode (by decide)⟩
    have second : IsWritten ["2", ""] (encode "2;") :=
      ⟨{ isStamp := Or.inl rfl }, ["2".toList, []], [],
        .cons ⟨[], [], by decide, by decide, by decide, by decide, by decide⟩
          (.cons ⟨[], [], by decide, by decide, by decide, by decide, by decide⟩ .nil),
        Or.inl rfl, congrArg encode (by decide)⟩
    exact .noise (by decide +kernel)
      (.header header (.noise (by decide +kernel) (.row first (.row second .done))))

theorem rows_of_sample :
    (Source.ofBytes sample.bytes).bytes = sample.bytes ∧
      (({} : Window).feedAll (Source.ofBytes sample.bytes).drain.1).rows.map Row.cells =
        [[("iteration", "1"), ("time", "20")], [("iteration", "2"), ("time", "")]] := by
  have arrives : (Source.ofBytes sample.bytes).bytes = sample.bytes := List.append_nil _
  exact ⟨arrives, (sample.rows_of_recording (Source.ofBytes sample.bytes) arrives).2⟩

end Recording

end BoardBench.Console
