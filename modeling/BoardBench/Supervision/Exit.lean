import BoardBench.Telemetry.Row

/-!
# Exits

How a process ended, how an execution ended, and what an execution yields.
-/
namespace BoardBench.Supervision

open Telemetry (Row)

/-- How a process ended. -/
inductive Status where
  | code (code : Int)
  | signal (number : Int)
  deriving Repr, DecidableEq

/-- Reads a wait status: the low seven bits are the signal, zero for an exit, whose code is the
next byte. All of them set is neither. -/
def Status.ofRaw (raw : Int) : Status :=
  let word := (raw % 0x100000000).toNat
  let low := word % 128
  if low = 0 then .code (word / 256 % 256)
  else if low = 127 then .signal 0
  else .signal low

/-- How an execution ended: as its process did, or by running out of time. -/
inductive Exit where
  | ended (status : Status)
  | timedOut
  deriving Repr, DecidableEq

namespace Exit

def isSuccess (exit : Exit) : Bool :=
  exit == .ended (.code 0)

def code? : Exit → Option Int
  | ended (.code code) => some code
  | _ => none

def text : Exit → String
  | ended (.code code) => toString code
  | ended (.signal number) => "signal " ++ toString number
  | timedOut => "timeout"

end Exit

structure Outcome where
  exit : Exit
  transcript : List String
  rows : List Row
  deriving DecidableEq

def Outcome.hasTelemetry (outcome : Outcome) : Bool :=
  !outcome.rows.isEmpty

/-- One command to run. Bindings overlay the inherited ones, later entries win. -/
structure Request where
  command : List String
  cwd : String
  bindings : List (String × String) := []
  monitored : Bool := false
  /-- Milliseconds for reading the output. -/
  deadline : Option Nat := none
  deriving Repr, DecidableEq

def Request.display (request : Request) : String :=
  String.intercalate " " request.command

end BoardBench.Supervision
