import BoardBench.Host.Bindings
import BoardBench.Files.Tree

/-!
# Program images

What runs when a program is launched. The machine has a few tools; any other program is a script,
whose first line may name the program that reads it. A name without a slash is looked for along a
search path. A file in no known format is left to the shell.
-/
namespace BoardBench.Host

/-- A tool of the machine, the name that it is called by, and its arguments. -/
structure Image where
  tool : String
  name : String
  arguments : List String
  deriving Repr, DecidableEq

def shell : String := "sh"

/-- The path of the shell that unknown programs are left to. -/
def shellPath : String := "/bin/sh"

/-- The tools that come with the machine and are not scripts. -/
def toolNames : List String :=
  [shell, "env", "true", "false", "echo", "sleep"]

/-- The tool that stands at a place; its content is not looked at. -/
def toolAt? (place : List String) (content : Bytes) : Option String :=
  match place with
  | ["bin", name] | ["usr", "bin", name] =>
    if content.isEmpty && toolNames.contains name then some name else none
  | _ => none

/-- How much of a program is looked at to find its interpreter, in bytes. -/
def headerSize : Nat := 256

def isHeaderBlank (char : Char) : Bool :=
  char == ' ' || char == '\t'

/-- The path that the first line of a script names after its mark, and the one argument that the
line may have. A path that may have been cut off does not count. -/
def interpreter? (content : Bytes) : Option (String × List String) :=
  match lossyChars (content.take headerSize) with
  | '#' :: '!' :: header =>
    let line := (header.takeWhile (· != '\n')).dropWhile isHeaderBlank
    let path := line.takeWhile fun char => !isHeaderBlank char
    let after := line.dropWhile fun char => !isHeaderBlank char
    let argument := dropEndWhile isHeaderBlank (after.dropWhile isHeaderBlank)
    let isCut := headerSize ≤ content.length && !header.contains '\n' && after.isEmpty
    if path.isEmpty || isCut then none
    else
      some (String.ofList path, if argument.isEmpty then [] else [String.ofList argument])
  | _ => none

/-- So many programs may be involved in starting one script. -/
def nestingLimit : Nat := 6

/-- The image of a program given by its path; `levels` more programs may be involved. -/
def load (files : Files) (levels : Nat) (path name : String) (arguments : List String) :
    Except SystemError Image :=
  match levels with
  | 0 => .error .tooManyLevels
  | levels + 1 => do
    match ← files.lookup path with
    | .file content true =>
      match toolAt? (← files.locate path) content, interpreter? content with
      | some tool, _ => return { tool, name, arguments }
      | none, some (interpreter, options) =>
        load files levels interpreter interpreter (options ++ path :: arguments)
      | none, none => throw .unknownFormat
    | _ => throw .accessDenied

/-- The image of a program, or the shell with the program for its script. -/
def loadOrScript (files : Files) (path name : String) (arguments : List String) :
    Except SystemError Image :=
  match load files nestingLimit path name arguments with
  | .ok image => .ok image
  | .error cause =>
    if cause = .unknownFormat then
      .ok { tool := shell, name := shellPath, arguments := path :: arguments }
    else .error cause

/-! ## Looking for programs -/

/-- Where programs are looked for without a search path. -/
def standardSearch : String := "/bin:/usr/bin"

def searchVariable : String := "PATH"

/-- The directories of a search path; an empty one is the current directory. -/
def searchDirectories (search : String) : List String :=
  (pieces (· == ':') search.toList).map String.ofList

/-- Causes after which the next directory is tried. -/
def isPassedOver (cause : SystemError) : Bool :=
  cause == .notFound || cause == .notADirectory || cause == .accessDenied

/-- The first program of a name in the directories. When there is none, a program that may not be
run is the cause, if one was seen, else the last cause. -/
def searchProgram (files : Files) (program : String) (arguments : List String) (denied : Bool)
    (last : SystemError) : List String → Except SystemError Image
  | [] => .error (if denied then .accessDenied else last)
  | directory :: rest =>
    match loadOrScript files (Path.join directory program) program arguments with
    | .ok image => .ok image
    | .error cause =>
      if isPassedOver cause then
        searchProgram files program arguments (denied || cause == .accessDenied) cause rest
      else .error cause

/-- The image of a program given by a path or a name. -/
def findImage (files : Files) (bindings : Bindings) (program : String) (arguments : List String) :
    Except SystemError Image :=
  if program.isEmpty then .error .notFound
  else if Path.isBare program then
    searchProgram files program arguments false .notFound
      (searchDirectories ((bindings.find? searchVariable).getD standardSearch))
  else loadOrScript files program program arguments

/-- No text that a process receives may have more bytes. -/
def textLimit : Nat := 131071

def isOversized (text : String) : Bool :=
  decide (textLimit < text.utf8ByteSize)

end BoardBench.Host
