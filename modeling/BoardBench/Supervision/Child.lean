import BoardBench.Supervision.Exit
import BoardBench.Console.Line

/-!
# Process groups

A command as it is seen from outside: a leader and its descendants, what each of them writes and
when, and what it does on SIGTERM. Times are milliseconds since the launch. Nothing can refuse
SIGKILL.
-/
namespace BoardBench.Supervision

/-- What a process does on SIGTERM. -/
inductive Response where
  | die
  | ignore
  | finish (delay : Nat) (code : Int)
  deriving Repr, DecidableEq

def sigterm : Int := 15
def sigkill : Int := 9

/-- A process that lives from `born` until just before `ends`. -/
structure Member where
  born : Nat := 0
  ends : Nat
  status : Status := .code 0
  /-- From when on which response is in force, in order of time. -/
  traps : List (Nat × Response) := []
  deriving Repr, DecidableEq

namespace Member

def isAlive (member : Member) (now : Nat) : Bool :=
  member.born ≤ now && now < member.ends

/-- Of the writes that a process is meant to make, those for which it is there. -/
def makes (member : Member) (writes : List (Nat × Bytes)) : List (Nat × Bytes) :=
  writes.filter fun write => member.born ≤ write.1 && write.1 ≤ member.ends

def responseAt (member : Member) (now : Nat) : Response :=
  ((member.traps.filter fun trap => trap.1 ≤ now).getLast?.map Prod.snd).getD .die

/-- The process after SIGTERM. -/
def terminated (now : Nat) (member : Member) : Member :=
  if member.isAlive now then
    match member.responseAt now with
    | .die => { member with ends := now, status := .signal sigterm }
    | .ignore => member
    | .finish delay code =>
      if now + delay < member.ends then { member with ends := now + delay, status := .code code }
      else member
  else member

/-- The process after SIGKILL. -/
def killed (now : Nat) (member : Member) : Member :=
  if member.isAlive now then { member with ends := now, status := .signal sigkill } else member

@[simp]
theorem born_terminated (now : Nat) (member : Member) :
    (member.terminated now).born = member.born := by
  unfold terminated
  split
  · split
    · rfl
    · rfl
    · split <;> rfl
  · rfl

@[simp]
theorem born_killed (now : Nat) (member : Member) : (member.killed now).born = member.born := by
  unfold killed
  split <;> rfl

theorem not_isAlive_killed (now : Nat) (member : Member) :
    (member.killed now).isAlive now = false := by
  unfold killed
  split
  · simp [isAlive]
  · next dead => simpa using dead

end Member

/-- A process started by the leader, and whether it keeps the output stream open. -/
structure Descendant where
  member : Member
  holdsStream : Bool
  /-- What it is meant to write, in order of time. -/
  writes : List (Nat × Bytes) := []
  deriving Repr, DecidableEq

/-- A moment at which the shutdown flag is raised, by the leader or by anyone else. -/
structure Raise where
  time : Nat
  byLeader : Bool := false
  deriving Repr, DecidableEq

structure Child where
  leader : Member
  /-- What the leader is meant to write, in order of time. -/
  writes : List (Nat × Bytes) := []
  /-- When the leader closes its output before it ends. -/
  closed : Option Nat := none
  descendants : List Descendant := []
  raises : List Raise := []
  /-- The leader is there from the launch on. -/
  leads : leader.born = 0 := by rfl
  deriving Repr, DecidableEq

namespace Child

/-- When the last writer of the output stream lets go of it. -/
def closesAt (child : Child) : Nat :=
  let own := min child.leader.ends (child.closed.getD child.leader.ends)
  (child.descendants.filter Descendant.holdsStream).foldl
    (fun latest descendant => max latest descendant.member.ends) own

/-- Puts a write among others, behind those that are made no later. -/
def insertWrite (write : Nat × Bytes) : List (Nat × Bytes) → List (Nat × Bytes)
  | [] => [write]
  | first :: rest =>
    if first.1 ≤ write.1 then first :: insertWrite write rest else write :: first :: rest

/-- What the leader and the descendants that hold the stream write to it, as long as each of them
is there. -/
def delivered (child : Child) : List (Nat × Bytes) :=
  let others := (child.descendants.filter Descendant.holdsStream).flatMap fun descendant =>
    descendant.member.makes descendant.writes
  others.foldl (fun writes write => insertWrite write writes) (child.leader.makes child.writes)

/-- The bytes that reach the stream, each with the time of its arrival. -/
def stream (child : Child) : List (Nat × UInt8) :=
  child.delivered.flatMap fun (time, bytes) => bytes.map fun byte => (time, byte)

/-- The lines of a stream with the times at which they are complete. `line` is the beginning of a
line under way, reversed; a last line without a line feed is complete when the stream closes. -/
def arrivalsFrom (closes : Nat) (line : Bytes) : List (Nat × UInt8) → List (Nat × String)
  | [] => if line.isEmpty then [] else [(closes, Console.lineText line.reverse)]
  | (time, byte) :: rest =>
    if byte == Console.lineFeed then
      (time, Console.lineText line.reverse) :: arrivalsFrom closes [] rest
    else arrivalsFrom closes (byte :: line) rest

def arrivals (child : Child) : List (Nat × String) :=
  arrivalsFrom child.closesAt [] child.stream

def isAlive (child : Child) (now : Nat) : Bool :=
  child.leader.isAlive now ||
    child.descendants.any fun descendant => descendant.member.isAlive now

/-- Something done to every member of the group. -/
def map (change : Member → Member) (keeps : ∀ member, (change member).born = member.born)
    (child : Child) : Child :=
  { child with
    leader := change child.leader
    descendants := child.descendants.map fun descendant =>
      { descendant with member := change descendant.member }
    leads := (keeps child.leader).trans child.leads }

/-- SIGTERM to the whole group. -/
def terminated (now : Nat) (child : Child) : Child :=
  child.map (Member.terminated now) (Member.born_terminated now)

/-- SIGKILL to the whole group. -/
def killed (now : Nat) (child : Child) : Child :=
  child.map (Member.killed now) (Member.born_killed now)

/-- Without its leader a group starts no more descendants. -/
def settled (now : Nat) (child : Child) : Child :=
  { child with descendants := child.descendants.filter fun descendant =>
      descendant.member.born ≤ now }

/-- The shutdown flag has been raised. Anyone else may do so at any time, the leader only while it
is there. -/
def hasRaised (child : Child) (now : Nat) : Bool :=
  child.raises.any fun raise =>
    raise.time ≤ now && (!raise.byLeader || raise.time ≤ child.leader.ends)

end Child

end BoardBench.Supervision
