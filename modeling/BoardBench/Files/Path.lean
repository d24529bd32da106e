import BoardBench.Text.Blank

/-!
# Paths

Path texts with `/` between their parts. Joining keeps the texts as they are; the parts of a path
leave out empty parts and single dots. A path and each of its parts have a greatest length.
-/
namespace BoardBench.Path

def slash : Char := '/'

def isAbsolute (path : String) : Bool :=
  path.toList.head? == some slash

def endsInSlash (path : String) : Bool :=
  path.toList.getLast? == some slash

/-- An absolute path replaces what it is joined to. -/
def join (base path : String) : String :=
  if isAbsolute path || base.isEmpty then path
  else if endsInSlash base then base ++ path
  else base ++ "/" ++ path

/-- The texts between slashes. -/
def segments (path : String) : List String :=
  (pieces (· == slash) path.toList).map String.ofList

/-- The text with the given texts between its slashes. -/
def ofSegments (segments : List String) : String :=
  String.intercalate "/" segments

/-- Segments that lead nowhere. -/
def isIdle (segment : String) : Bool :=
  segment == "" || segment == "."

/-- The parts that name something. -/
def parts (path : String) : List String :=
  (segments path).filter fun part => !isIdle part

/-- The segments up to the last part. -/
def way (path : String) : List String :=
  dropEndWhile isIdle (segments path)

/-- The segments up to the part in front of the last one. -/
def wayAbove (path : String) : List String :=
  dropEndWhile isIdle (way path).dropLast

def isBare (program : String) : Bool :=
  !program.toList.contains slash

/-- A part may have so many bytes. -/
def partLimit : Nat := 255

/-- A path must have fewer bytes. -/
def lengthLimit : Nat := 4096

def isLongPart (part : String) : Bool :=
  decide (partLimit < part.utf8ByteSize)

def isLong (path : String) : Bool :=
  decide (lengthLimit ≤ path.utf8ByteSize)

def nul : Char := Char.ofNat 0

def hasNul (text : String) : Bool :=
  text.toList.contains nul

end BoardBench.Path
