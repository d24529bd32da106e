import BoardBench.Config.Basic
import BoardBench.Decimal.Writing
import BoardBench.Fault
import BoardBench.Text.Sorted
import BoardBench.Text.Blank
import BoardBench.Text.Digit

/-!
# Descriptors

The tree that a descriptor document spells out, and its expansion into a configuration. Texts are
trimmed, entries without a name are left out, absent parts get their defaults. The first thing
that is wrong, in a fixed order, is the error.
-/
namespace BoardBench.Descriptor

/-- A command as one line, or as its arguments. -/
inductive Command where
  | line (text : String)
  | arguments (items : List String)
  deriving Repr, DecidableEq

/-- A count as a number, or as text that should be one. -/
inductive Count where
  | number (value : UInt64)
  | text (text : String)
  deriving Repr, DecidableEq

inductive Variable where
  | bool (value : Bool)
  | int (value : Int)
  | float (value : Float)
  | text (value : String)

/-- An environment by its name only, or with its particulars. -/
inductive Environment where
  | name (name : String)
  | entry (name : String) (label? : Option String) (disabled : Bool)
      (bindings : List (String × Variable))

structure Board where
  name? : Option String := none
  environments : List Environment := []

structure Benchmark where
  name? : Option String := none
  filename? : Option String := none
  scaleFactor? : Option Count := none
  iterations? : Option Count := none
  /-- Items that are null are kept as absent. -/
  boards : List (Option Board) := []

structure Commands where
  build? : Option Command := none
  flash? : Option Command := none
  run? : Option Command := none
  deriving Repr, DecidableEq

def Command.words : Command → List String
  | line text => BoardBench.words text
  | arguments items => items

def defaultBuild : List String := ["make", "all"]
def defaultFlash : List String := ["make", "flash"]
def defaultRun : List String := ["make", "term"]

def Commands.phases (commands : Commands) : PhaseCommands where
  build := (commands.build?.map Command.words).getD defaultBuild
  flash := (commands.flash?.map Command.words).getD defaultFlash
  run := (commands.run?.map Command.words).getD defaultRun

/-- The trimmed text, unless it is blank. -/
def nonBlank? (text? : Option String) : Option String :=
  (text?.map trim).filter fun text => !text.isEmpty

/-- The text that a command sees in the variable. -/
def Variable.render : Variable → String
  | bool value => if value then "true" else "false"
  | int value => toString value
  | float value => Decimal.shortest value
  | text value => value

/-- The variables in ascending order of their names; of two of one name the last one counts. -/
def sortedBindings (bindings : List (String × Variable)) : List (String × String) :=
  sortedEntries textBefore (bindings.map fun (name, value) => (name, value.render))

def Environment.expand : Environment → BoardBench.Environment
  | .name directory => { name := trim directory }
  | .entry directory label? disabled bindings =>
    { name := trim directory, label?, disabled, bindings := sortedBindings bindings }

/-- The value of a count; an absent one is 1. -/
def Count.resolve (benchmark field : String) : Option Count → Except ConfigError UInt64
  | none => .ok 1
  | some (.number value) => .ok value
  | some (.text written) =>
    match countOfText? (trimChars written.toList) with
    | some value => .ok value
    | none => .error (.badCount benchmark field written)

/-- The entry of a board, if it has a name. -/
def Board.expand? (entry : String → List BoardBench.Environment → BoardBench.Benchmark)
    (board : Board) : Option BoardBench.Benchmark :=
  (nonBlank? board.name?).map fun name =>
    entry name (board.environments.map Environment.expand)

/-- The entries of a benchmark, one for each board; none without a name. -/
def Benchmark.expand (benchmark : Benchmark) : Except ConfigError (List BoardBench.Benchmark) :=
  match nonBlank? benchmark.name? with
  | none => .ok []
  | some name => do
    let scaleFactor ← Count.resolve name "scale_factor" benchmark.scaleFactor?
    let iterations ← Count.resolve name "iterations" benchmark.iterations?
    let filename := (nonBlank? benchmark.filename?).getD name
    return (benchmark.boards.filterMap id).filterMap <| Board.expand? fun board environments =>
      { name, filename, scaleFactor, iterations, board, environments }

def expandAll : List Benchmark → Except ConfigError (List BoardBench.Benchmark)
  | [] => .ok []
  | benchmark :: rest => do
    let entries ← benchmark.expand
    let more ← expandAll rest
    return entries ++ more

def hasEmpty (commands : PhaseCommands) : Bool :=
  commands.build.isEmpty || commands.flash.isEmpty || commands.run.isEmpty

end Descriptor

structure Descriptor where
  /-- Absent when the document has no such section. -/
  benchmarks? : Option (List Descriptor.Benchmark) := none
  commands : Descriptor.Commands := {}

/-- The configuration that a descriptor stands for. -/
def Descriptor.expand (descriptor : Descriptor) : Except ConfigError Config :=
  match descriptor.benchmarks? with
  | none => .error .missingBenchmarks
  | some benchmarks =>
    let commands := descriptor.commands.phases
    if Descriptor.hasEmpty commands then .error .emptyCommand
    else do
      let entries ← Descriptor.expandAll benchmarks
      return { benchmarks := entries, commands }

end BoardBench
