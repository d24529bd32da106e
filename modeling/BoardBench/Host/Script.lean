import BoardBench.Host.Bindings
import BoardBench.Supervision.Child

/-!
# Described programs

Programs given by what they do, step by step, instead of by a file. Playing one yields the process
group that it would be: when it writes what, which children it starts, how it answers SIGTERM, and
how it ends. Every step but a pause takes no time.
-/
namespace BoardBench.Host

open Supervision

inductive Action where
  | write (bytes : Bytes)
  | finish (code : Int)
  | signal (number : Int)
  | pause (milliseconds : Nat)
  | trap (response : Response)
  | closeOutput
  | background (holdsStream : Bool)
  | raiseFlag
  deriving Repr, DecidableEq, Inhabited

inductive Step where
  | act (action : Action)
  /-- Writes a variable and a line feed. -/
  | showVariable (name : String)
  /-- Chooses by how often the program ran before; the last alternative repeats. -/
  | byTurn (alternatives : List (List Step))
  | byVariable (name : String) (cases : List (String × List Step)) (otherwise : List Step)
  deriving Inhabited

def shown (value? : Option String) : Bytes :=
  encode (value?.getD "(unset)" ++ "\n")

/-! ## Choosing -/

mutual
/-- What the steps come to for given variables on a given turn. -/
def Step.actions (bindings : Bindings) (turn : Nat) : Step → List Action
  | .act action => [action]
  | .showVariable name => [.write (shown (bindings.get? name))]
  | .byTurn alternatives => onTurn bindings turn turn alternatives
  | .byVariable name cases otherwise =>
    match inCase bindings turn (bindings.get? name) cases with
    | some actions => actions
    | none => actionsOf bindings turn otherwise

def actionsOf (bindings : Bindings) (turn : Nat) : List Step → List Action
  | [] => []
  | step :: rest => step.actions bindings turn ++ actionsOf bindings turn rest

def onTurn (bindings : Bindings) (turn countdown : Nat) : List (List Step) → List Action
  | [] => []
  | steps :: rest =>
    if countdown = 0 || rest.isEmpty then actionsOf bindings turn steps
    else onTurn bindings turn (countdown - 1) rest

def inCase (bindings : Bindings) (turn : Nat) (value? : Option String) :
    List (String × List Step) → Option (List Action)
  | [] => none
  | (value, steps) :: rest =>
    if value? = some value then some (actionsOf bindings turn steps)
    else inCase bindings turn value? rest
end

/-! ## Playing -/

/-- How long a background process lives. -/
def backgroundLife : Nat := 30000

/-- Signals that do nothing to a process that has not asked for them, or that would stop it if its
group had anyone to resume it. -/
def harmlessSignals : List Int := [0, 17, 18, 20, 21, 22, 23, 28]

/-- The signal that stops a process for good, so that only SIGKILL ends it. -/
def sigstop : Int := 19

/-- How long a process stays that was stopped for good. -/
def stoppedLife : Nat := 1000000000

/-- A program under way. -/
structure Play where
  clock : Nat := 0
  closed : Option Nat := none
  response : Response := .die
  traps : List (Nat × Response) := []
  writes : List (Nat × Bytes) := []
  descendants : List Descendant := []
  raises : List Raise := []
  ended : Option Status := none

namespace Play

/-- A child process inherits that SIGTERM is ignored, and nothing else. -/
def start (play : Play) (holdsStream : Bool) : Descendant where
  member :=
    { born := play.clock
      ends := play.clock + backgroundLife
      status := .code 0
      traps := if play.response = .ignore then [(play.clock, .ignore)] else [] }
  holdsStream := holdsStream && play.closed.isNone

def act (play : Play) (action : Action) : Play :=
  if play.ended.isSome then play
  else
    match action with
    | .write bytes =>
      if play.closed.isSome then play
      else { play with writes := play.writes ++ [(play.clock, bytes)] }
    | .finish code => { play with ended := some (.code (code % 256)) }
    | .signal number =>
      if harmlessSignals.contains number then play
      else if number = sigterm then
        match play.response with
        | .die => { play with ended := some (.signal number) }
        | .ignore => play
        | .finish _ code => { play with ended := some (.code code) }
      else if number = sigstop then
        { play with
          traps := play.traps ++ [(play.clock, .ignore)]
          clock := play.clock + stoppedLife
          ended := some (.code 0) }
      else { play with ended := some (.signal number) }
    | .pause milliseconds => { play with clock := play.clock + milliseconds }
    | .trap response =>
      { play with response, traps := play.traps ++ [(play.clock, response)] }
    | .closeOutput => { play with closed := some (play.closed.getD play.clock) }
    | .background holdsStream =>
      { play with descendants := play.descendants ++ [play.start holdsStream] }
    | .raiseFlag =>
      { play with raises := play.raises ++ [{ time := play.clock, byLeader := true }] }

/-- The process group of a program that was played to its end. -/
def child (play : Play) : Child where
  leader :=
    { ends := play.clock, status := play.ended.getD (.code 0), traps := play.traps }
  writes := play.writes
  closed := play.closed
  descendants := play.descendants
  raises := play.raises

end Play

def childOf (actions : List Action) : Child :=
  (actions.foldl Play.act {}).child

end BoardBench.Host
