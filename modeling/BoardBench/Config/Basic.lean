import BoardBench.Text.Search

/-!
# Configurations

What a sweep works from: one entry for each benchmark on each board, with the environments that
build it there, and the commands of the three phases.
-/
namespace BoardBench

structure PhaseCommands where
  build : List String
  flash : List String
  run : List String
  deriving Repr, DecidableEq

/-- One way to build and run a benchmark, in a directory of its own. -/
structure Environment where
  /-- The directory, relative to the working directory. -/
  name : String
  label? : Option String := none
  disabled : Bool := false
  bindings : List (String × String) := []
  deriving Repr, DecidableEq

def Environment.label (environment : Environment) : String :=
  environment.label?.getD environment.name

/-- One benchmark on one board. -/
structure Benchmark where
  name : String
  filename : String
  scaleFactor : UInt64
  iterations : UInt64
  board : String
  environments : List Environment
  deriving Repr, DecidableEq

structure Config where
  benchmarks : List Benchmark
  commands : PhaseCommands
  deriving Repr, DecidableEq

/-- The entries for a board, whose name is compared without regard to ASCII case. -/
def Config.forBoard (config : Config) (board : String) : List Benchmark :=
  config.benchmarks.filter fun benchmark => sameIgnoringCase benchmark.board board

end BoardBench
