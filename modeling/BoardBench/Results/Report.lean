import BoardBench.Results.Summary
import BoardBench.Decimal.Writing

/-!
# The printed summary

A table of fixed-width columns: one line per group, means and deviations to two places.
-/
namespace BoardBench

def ruler (char : Char) : String :=
  String.ofList (List.replicate 100 char)

def meanCell (text : String) : String :=
  padLeft 12 text

def deviationCell (text : String) : String :=
  padLeft 10 text

/-- The two cells of one timing. -/
def Stats.cells (stats : Option Stats) : List String :=
  match stats with
  | none => [meanCell "-", deviationCell "-"]
  | some stats =>
    [meanCell (Decimal.fixed 2 stats.mean),
      deviationCell ((stats.deviation.map (Decimal.fixed 2)).getD "-")]

def summaryLine (board benchmark environment : String) (cells : List String) : String :=
  join " " ([padRight 16 board, padRight 14 benchmark, padRight 16 environment] ++ cells)

def Group.line (group : Group) : String :=
  summaryLine group.key.board group.key.benchmark group.key.environment
    (Timing.all.flatMap fun timing => Stats.cells (group.stats? timing))

def summaryHeader : String :=
  summaryLine "BOARD" "BENCHMARK" "ENVIRONMENT"
    (["EXEC", "INIT", "LOAD"].flatMap fun timing =>
      [meanCell (timing ++ "_MEAN"), deviationCell (timing ++ "_STD")])

/-- The lines of the printed summary. -/
def ResultSet.summaryLines (set : ResultSet) : List String :=
  match set.summary with
  | [] => ["NO RESULTS COLLECTED"]
  | groups =>
    ["", ruler '=', "AGGREGATED BENCHMARK RESULTS", ruler '=', summaryHeader, ruler '-'] ++
      groups.map Group.line ++ ["TOTAL DATA POINTS: " ++ toString set.size]

end BoardBench
