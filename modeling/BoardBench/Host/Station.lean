import BoardBench.Host.Machine
import BoardBench.Supervision.Execution
import BoardBench.Retry.Decider
import BoardBench.Sweep.Run

/-!
# Stations

A machine with a decider and a shutdown flag: the world that a sweep on this host changes.
-/
namespace BoardBench.Host

open Supervision (Patience Request Run)
open Sweep (Execution Workbench)

structure Station where
  machine : Machine
  desk : Retry.Desk
  patience : Patience := {}
  /-- A prompt shows its questions on the console of the sweep. -/
  sharesConsole : Bool := false
  /-- Some background process was alive after its command had been torn down. -/
  survivors : Bool := false

namespace Station

/-- Executes a command. `raisesOn n` tells that the flag is raised while line `n` is observed. -/
def run (raisesOn : Nat → Bool) (request : Request) (station : Station) :
    Execution × Option Run × Station :=
  match launched : station.machine.launch request with
  | (.error fault, machine) =>
    ({ seen := []
       result := .error fault
       unconfigured := fun cause same => station.machine.launch_unconfigured request cause
        ((congrArg Prod.fst launched).trans (congrArg _ (Except.error.inj same))) },
      none, { station with machine })
  | (.ok child, machine) =>
    let done := Supervision.execute station.patience request raisesOn station.desk.flag child
    ({ seen := done.session.seen
       result := done.result
       unconfigured := Supervision.execute_unconfigured _ _ _ _ _ }, some done,
      { station with
        machine
        desk := { station.desk with flag := done.session.isInterrupted }
        survivors := station.survivors || done.session.handle.hasSurvivors })

/-- The station as the workbench of a sweep. `raisesOn n` tells that the flag is raised while
question `n` is put to a list of answers. -/
def workbench (raisesOn : Nat → Bool) : Workbench Station where
  isDirectory path station := station.machine.files.isDirectory path
  execute request station :=
    let (execution, _, after) := station.run (fun _ => false) request
    (execution, after)
  decide attempt maxAttempts station :=
    let (answer, desk) := station.desk.decide raisesOn attempt maxAttempts
    let shown := if station.sharesConsole then desk.written else ""
    let written := if station.sharesConsole then "" else desk.written
    ({ answer, shown }, { station with desk := { desk with written } })

end Station

end BoardBench.Host
