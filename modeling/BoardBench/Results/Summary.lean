import BoardBench.Results.Csv
import BoardBench.Decimal.Reading

/-!
# Summary statistics

The records of a result set fall into groups by board, benchmark and environment. For each timing
column with at least one number in the group there is a mean, and from two numbers on a sample
standard deviation. Sums run from left to right.
-/
namespace BoardBench

open Telemetry (Row)

/-- The timings that a summary covers, in the order of its columns. -/
inductive Timing where
  | execution
  | initialization
  | loading
  deriving Repr, DecidableEq

def Timing.all : List Timing :=
  [.execution, .initialization, .loading]

def Timing.column : Timing → String
  | .execution => "execution_time_us"
  | .initialization => "init_runtime_us"
  | .loading => "load_program_us"

structure Stats where
  samples : Nat
  mean : Float
  /-- Absent with fewer than two samples. -/
  deviation : Option Float

/-- The sum from left to right; its neutral start is minus zero. -/
def floatSum (values : List Float) : Float :=
  values.foldl (· + ·) (-0.0)

def Stats.of? (values : List Float) : Option Stats :=
  if values.isEmpty then none
  else
    let count := values.length
    let mean := floatSum values / Float.ofNat count
    let squares := values.map fun value => (value - mean) * (value - mean)
    let deviation :=
      if 1 < count then some (floatSum squares / Float.ofNat (count - 1)).sqrt else none
    some { samples := count, mean, deviation }

/-- What a group of records has in common. -/
structure GroupKey where
  board : String
  benchmark : String
  environment : String
  deriving Repr, DecidableEq

def GroupKey.of (row : Row) : GroupKey where
  board := row.getD "board"
  benchmark := row.getD "benchmark"
  environment := row.getD "environment"

/-- Board first, then benchmark, then environment, each by code point. -/
def GroupKey.before (left right : GroupKey) : Bool :=
  textBefore left.board right.board ||
    left.board == right.board &&
      (textBefore left.benchmark right.benchmark ||
        left.benchmark == right.benchmark && textBefore left.environment right.environment)

structure Group where
  key : GroupKey
  stats : List (Timing × Stats)

/-- The numbers in a column, in record order. -/
def samplesOf (timing : Timing) (rows : List Row) : List Float :=
  (rows.filterMap fun row => row.get? timing.column).filterMap Decimal.floatOfText?

def Group.of (key : GroupKey) (rows : List Row) : Group where
  key := key
  stats := Timing.all.filterMap fun timing =>
    (Stats.of? (samplesOf timing rows)).map fun stats => (timing, stats)

def Group.stats? (group : Group) (timing : Timing) : Option Stats :=
  group.stats.lookup timing

/-- One group per distinct key, in ascending order. -/
def ResultSet.summary (set : ResultSet) : List Group :=
  (groupsBy GroupKey.before GroupKey.of set.records).map fun (key, rows) => Group.of key rows

end BoardBench
