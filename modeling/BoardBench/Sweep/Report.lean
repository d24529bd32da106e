import BoardBench.Fault
import BoardBench.Results.Csv

/-!
# Sweep reports

What became of each pair of a benchmark and an environment, and the rows that were collected.
-/
namespace BoardBench.Sweep

/-- Why a pair has no rows. -/
inductive Failure where
  | spawn (reason : String)
  | build (code? : Option Int)
  | flash (code? : Option Int)
  | noTelemetry (attempts : UInt32)
  | declined (attempts : UInt32)
  deriving Repr, DecidableEq

def codeText (code? : Option Int) : String :=
  (code?.map toString).getD "signal/timeout"

def Failure.message : Failure → String
  | spawn reason => "could not start command: " ++ reason
  | build code? => "build failed (exit " ++ codeText code? ++ ")"
  | flash code? => "flash failed (exit " ++ codeText code? ++ ")"
  | noTelemetry attempts =>
    "no benchmark data after " ++ toString attempts.toNat ++ " attempt(s)"
  | declined attempts => "retry declined after " ++ toString attempts.toNat ++ " attempt(s)"

inductive SkipReason where
  | disabled
  | missingDirectory (path : String)
  deriving Repr, DecidableEq

inductive PairStatus where
  | collected (rows : Nat) (attempts : UInt32)
  | skipped (reason : SkipReason)
  | failed (failure : Failure)
  deriving Repr, DecidableEq

def PairStatus.isFailed : PairStatus → Bool
  | failed _ => true
  | _ => false

def PairStatus.isSkipped : PairStatus → Bool
  | skipped _ => true
  | _ => false

structure PairReport where
  benchmark : String
  environment : String
  status : PairStatus
  deriving Repr, DecidableEq

structure Report where
  results : ResultSet := {}
  pairs : List PairReport := []
  interrupted : Bool := false
  deriving DecidableEq

def Report.failures (report : Report) : List PairReport :=
  report.pairs.filter fun pair => pair.status.isFailed

end BoardBench.Sweep
