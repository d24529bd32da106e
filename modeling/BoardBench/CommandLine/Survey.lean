import BoardBench.CommandLine.Arguments
import BoardBench.Config.Basic
import BoardBench.Host.Machine

/-!
# Surveys

The paths that a program looks at, so that they can be looked up before it starts: first the file
that it reads, then, with the configuration in that file, the directories of the environments and
the places where the programs of the phases may be.
-/
namespace BoardBench.CommandLine

/-- The place that a path names if nothing on the way to it is a link. -/
def placeOf (current : List String) (path : String) : List String :=
  (Path.parts path).foldl
    (fun place part => if part = ".." then place.dropLast else place ++ [part])
    (if Path.isAbsolute path then [] else current)

/-- The places from the root down to a place. -/
def placesTo (place : List String) : List (List String) :=
  (List.range place.length).map fun depth => place.take (depth + 1)

namespace Invocation

/-- The file that is read first. -/
def source? : Invocation → Option String
  | run options => some options.config
  | check config .. => some config
  | parse input? => input?

/-- Whether the standard input is read. -/
def readsInput : Invocation → Bool
  | run options => options.prompts
  | check .. => false
  | parse input? => input?.isNone

/-- The file that is written. -/
def target? : Invocation → Option String
  | run options => some options.csv
  | _ => none

/-- The directory that holds the environment directories. -/
def workdir? : Invocation → Option String
  | run options => some options.workdir
  | check _ _ workdir => some workdir
  | parse _ => none

end Invocation

/-- The programs of the phases, each with its directory part if it has one. -/
def phasePrograms (commands : PhaseCommands) : List String :=
  [commands.build, commands.flash, commands.run].filterMap List.head?

/-- Where a program may be: along the search path, or in one of the directories. -/
def programPaths (search directories : List String) (program : String) : List String :=
  (if Path.isBare program then search else directories).map fun directory =>
    Path.join directory program

/-- The paths that matter once the configuration is known. -/
def surveyedPaths (search : List String) (workdir : String) (config : Config) : List String :=
  let environments := config.benchmarks.flatMap Benchmark.environments
  let directories := environments.map fun environment => Path.join workdir environment.name
  workdir :: directories ++
    (phasePrograms config.commands).flatMap (programPaths search (directories ++ [workdir]))

end BoardBench.CommandLine
