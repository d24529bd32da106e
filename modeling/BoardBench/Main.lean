import BoardBench.CommandLine.Program
import BoardBench.CommandLine.Survey

/-!
# The command line program

Looks up on the host what the program will look at, performs it, prints what it prints, writes the
file that it leaves, and ends with its exit code.
-/
namespace BoardBench.CommandLine

/-- How much of a program is read; a longer one is not played. -/
def scriptLimit : Nat := 65536

def scriptOf (content : Bytes) : Bytes :=
  if content.contains 0 || scriptLimit ≤ content.length then [] else content

/-- What the host has at a place. A directory can be opened but not read. -/
def probe (place : List String) : IO (Option Entry) := do
  match ← (IO.FS.Handle.mk (Path.ofPlace place) .read).toBaseIO with
  | .error _ => return none
  | .ok handle =>
    match ← (handle.read scriptLimit.toUSize).toBaseIO with
    | .error _ => return some .directory
    | .ok content => return some (.file (scriptOf content.toList) true)

/-- Adds what lies on the way to a path. -/
def look (files : Files) (path : String) : IO Files := do
  let mut files := files
  for place in placesTo (placeOf files.current path) do
    if (files.entry? place).isNone then
      if let some entry ← probe place then
        files := files.put place entry
  return files

/-- Adds what lies on the way to a program and to the programs that are named in its first line. -/
def lookForProgram (levels : Nat) (files : Files) (path : String) : IO Files := do
  let files ← look files path
  match levels, files.entry? (placeOf files.current path) with
  | levels + 1, some (.file content _) =>
    match Host.interpreter? content with
    | some (interpreter, _) => lookForProgram levels files interpreter
    | none => return files
  | _, _ => return files

/-- Adds what lies on the way to a path, with the whole content of the file there. -/
def lookInside (files : Files) (path : String) : IO Files := do
  let files ← look files path
  let place := placeOf files.current path
  match files.entry? place with
  | some (.file ..) =>
    let content ← IO.FS.readBinFile (Path.ofPlace place)
    return files.put place (.file content.toList true)
  | _ => return files

partial def readInput (stream : IO.FS.Stream) (start : ByteArray) : IO ByteArray := do
  let chunk ← stream.read scriptLimit.toUSize
  if chunk.isEmpty then return start else readInput stream (start ++ chunk)

/-- What the program will find on the host. -/
def survey (invocation : Invocation) (search : List String) (files : Files) : IO Files := do
  let mut files := files
  if let some path := invocation.target? then
    files ← look files path
  if let some path := invocation.source? then
    files ← lookInside files path
    if let some workdir := invocation.workdir? then
      if let .ok config := loadConfig files path then
        for other in surveyedPaths search workdir config do
          files ← lookForProgram Host.nestingLimit files other
  return files

/-- Writes the file that the program left, if it is not what was there before. -/
def writeTarget (before after : Files) (path : String) : IO Unit := do
  if let .ok content := after.read path then
    if (before.read path).toOption ≠ some content then
      let place := placeOf after.current path
      IO.FS.createDirAll (Path.ofPlace place.dropLast)
      IO.FS.writeBinFile (Path.ofPlace place) ⟨content.toArray⟩

def lookUpVariable (name : String) : IO Host.Bindings := do
  return ((← IO.getEnv name).map fun value => (name, value)).toList

/-- Performs the program with its arguments on this host. -/
def performHere (arguments : List String) : IO UInt32 := do
  let inherited := (← lookUpVariable Host.searchVariable) ++ (← lookUpVariable attemptsVariable)
  let current := Path.parts (toString (← IO.currentDir))
  let search := Host.searchDirectories ((inherited.find? Host.searchVariable).getD "")
  let invocation? := invocation? (inherited.find? attemptsVariable) arguments
  let files ← match invocation? with
    | some invocation => survey invocation search { current }
    | none => pure { current }
  let input ←
    if invocation?.any Invocation.readsInput then readInput (← IO.getStdin) .empty
    else pure .empty
  let situation : Situation := { machine := { files, inherited }, input := input.toList }
  let ending := situation.perform arguments
  IO.print ending.output
  IO.eprint ending.errors
  if let some path := invocation?.bind Invocation.target? then
    writeTarget files ending.files path
  return ending.exit.toUInt32

end BoardBench.CommandLine

def main (arguments : List String) : IO UInt32 :=
  BoardBench.CommandLine.performHere arguments
