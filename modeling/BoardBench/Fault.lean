import BoardBench.SystemError

/-!
# Faults

What can go wrong around a command, as opposed to what a command makes of its run. Each cause is a
constructor, each wording is in one `message` function. A fatal fault ends a whole sweep, any other
one only the pair that it struck.
-/
namespace BoardBench

/-- Why a descriptor was not accepted. -/
inductive ConfigError where
  | unreadable (path : String) (cause : SystemError)
  | invalidDocument
  | missingBenchmarks
  | emptyCommand
  | badCount (benchmark field text : String)
  | custom (text : String)
  deriving Repr, DecidableEq

def ConfigError.message : ConfigError → String
  | unreadable path cause => "cannot read " ++ path ++ ": " ++ cause.message
  | invalidDocument => "invalid YAML"
  | missingBenchmarks => "no 'benchmarks' section found in configuration file"
  | emptyCommand => "phase commands must not be empty"
  | badCount benchmark field text =>
    "benchmark '" ++ benchmark ++ "': " ++ field ++ " must be a non-negative integer, got '" ++
      text ++ "'"
  | custom text => text

inductive Fault where
  | spawn (program : String) (cause : SystemError)
  | workDir (path : String)
  | emptyCommand
  | interrupted
  | config (cause : ConfigError)
  | system (cause : SystemError)
  deriving Repr, DecidableEq

namespace Fault

def message : Fault → String
  | spawn program cause => "spawn failed for `" ++ program ++ "`: " ++ cause.message
  | workDir path => "working directory not accessible: " ++ path
  | emptyCommand => "empty command"
  | interrupted => "interrupted"
  | config cause => "config: " ++ cause.message
  | system cause => "io error: " ++ cause.message

/-- A fatal fault ends the whole sweep. -/
def isFatal : Fault → Bool
  | interrupted | config _ => true
  | _ => false

end Fault

end BoardBench
