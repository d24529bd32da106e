import BoardBench.Files.Path
import BoardBench.Text.Utf8
import BoardBench.Fault

/-!
# File trees

Directories, files and devices by their places, and a current directory. A place is given by the
parts of its absolute path. Walking a path asks for a directory at every step, so `..` leads back
only from a directory that is there. Directories that are missing are made one by one from the top.
-/
namespace BoardBench

inductive Entry where
  | directory
  | file (content : Bytes) (executable : Bool)
  /-- Holds nothing; what is written to it is lost, or refused when it is full. -/
  | device (isFull : Bool)
  deriving Repr, DecidableEq

/-- The absolute path of a place. -/
def Path.ofPlace (place : List String) : String :=
  "/" ++ ofSegments place

structure Files where
  /-- What stands at absolute paths; of two entries of one path the first one counts. -/
  entries : List (String × Entry) := []
  current : List String := []
  deriving Repr, DecidableEq

namespace Files

def entry? (files : Files) (place : List String) : Option Entry :=
  if place.isEmpty then some .directory else files.entries.lookup (Path.ofPlace place)

def put (files : Files) (place : List String) (entry : Entry) : Files :=
  { files with entries := (Path.ofPlace place, entry) :: files.entries }

/-- The place that segments lead to from a directory. The place itself need not exist. -/
def walk (files : Files) (start : List String) : List String → Except SystemError (List String)
  | [] => .ok start
  | segment :: rest =>
    match files.entry? start with
    | none => .error .notFound
    | some (.file ..) | some (.device _) => .error .notADirectory
    | some .directory =>
      if Path.isIdle segment then files.walk start rest
      else if segment = ".." then files.walk start.dropLast rest
      else if Path.isLongPart segment then .error .nameTooLong
      else files.walk (start ++ [segment]) rest

/-- Where a path starts. -/
def startOf (files : Files) (path : String) : List String :=
  if Path.isAbsolute path then [] else files.current

/-- What is wrong with a path, whatever files there are. -/
def flaw? (path : String) : Option SystemError :=
  if Path.hasNul path then some .nulInName
  else if path.isEmpty then some .notFound
  else if Path.isLong path then some .nameTooLong
  else none

/-- The place that a path names. -/
def locate (files : Files) (path : String) : Except SystemError (List String) :=
  match flaw? path with
  | some cause => .error cause
  | none => files.walk (files.startOf path) (Path.segments path)

def lookup (files : Files) (path : String) : Except SystemError Entry := do
  match files.entry? (← files.locate path) with
  | some entry => return entry
  | none => throw .notFound

def isDirectory (files : Files) (path : String) : Bool :=
  match files.lookup path with
  | .ok .directory => true
  | _ => false

def isExecutable (files : Files) (path : String) : Bool :=
  match files.lookup path with
  | .ok (.file _ executable) => executable
  | _ => false

/-- The content of a file. -/
def read (files : Files) (path : String) : Except SystemError Bytes := do
  match ← files.lookup path with
  | .directory => throw .isADirectory
  | .file content _ => return content
  | .device _ => return []

/-- Makes the directories on a way that starts at a directory. Once one has been made, each further
one is asked for on its own, so a file in the way is then a directory that cannot be made. -/
def makeWay (files : Files) (made : Bool) (place : List String) :
    List String → Except SystemError Files
  | [] => .ok files
  | segment :: rest =>
    if Path.isIdle segment then files.makeWay made place rest
    else if segment = ".." then files.makeWay made place.dropLast rest
    else if Path.isLongPart segment then .error .nameTooLong
    else
      match files.entry? (place ++ [segment]) with
      | some .directory => files.makeWay made (place ++ [segment]) rest
      | some (.file ..) | some (.device _) =>
        .error (if made || rest.isEmpty then .alreadyExists else .notADirectory)
      | none => (files.put (place ++ [segment]) .directory).makeWay true (place ++ [segment]) rest

/-- Makes the directories on a way that is not too long to be named. -/
def makeAll (files : Files) (start way : List String) : Except SystemError Files :=
  if Path.hasNul (Path.ofSegments way) then .error .nulInName
  else if Path.isLong (Path.ofSegments way) then .error .nameTooLong
  else files.makeWay false start way

/-- Makes a directory and those above it. -/
def makeDirectory (files : Files) (path : String) : Except SystemError Files :=
  files.makeAll (files.startOf path) (Path.way path)

/-- Writes a file in a directory that is there. -/
def writeIn (files : Files) (above : List String) (name : String) (content : Bytes) :
    Except SystemError Files :=
  if Path.isLongPart name then .error .nameTooLong
  else
    match files.entry? (above ++ [name]) with
    | some .directory => .error .isADirectory
    | some (.device isFull) => if isFull then .error .noSpace else .ok files
    | some (.file _ executable) => .ok (files.put (above ++ [name]) (.file content executable))
    | none => .ok (files.put (above ++ [name]) (.file content false))

/-- Writes a file whose directory exists. A path that ends in a slash names no file. -/
def write (files : Files) (path : String) (content : Bytes) : Except SystemError Files := do
  if let some cause := flaw? path then throw cause
  let segments := dropEndWhile (· == "") (Path.segments path)
  let above ← files.walk (files.startOf path) segments.dropLast
  match files.entry? above, segments.getLast? with
  | none, _ => throw .notFound
  | some (.file ..), _ | some (.device _), _ => throw .notADirectory
  | some .directory, none => throw .isADirectory
  | some .directory, some name =>
    if name = "." || name = ".." || Path.endsInSlash path then throw .isADirectory
    else files.writeIn above name content

/-- Writes a file and makes the directories above it. -/
def writeDeep (files : Files) (path : String) (content : Bytes) : Except SystemError Files := do
  (← files.makeAll (files.startOf path) (Path.wayAbove path)).write path content

end Files

end BoardBench
