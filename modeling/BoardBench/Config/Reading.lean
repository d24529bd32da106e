import BoardBench.Config.Descriptor
import BoardBench.Yaml.Value
import BoardBench.Yaml.Document

/-!
# Reading descriptors

The descriptor that a YAML node spells out. Sections and plain texts are read by what is expected
of them: an empty value is an empty collection, any scalar is a text. Commands, counts and
environments may take several forms, so there the type of each value counts. Unknown keys are
passed over without a look at what they hold; a known key may stand only once.
-/
namespace BoardBench.Descriptor

open Yaml

variable (anchors : Anchors)

/-- How deep collections may be nested in one another. -/
def depthLimit : Nat := 128

/-- A reader for the values of one key. -/
abbrev Field (α : Type) := Node → Read α

def isEmptyPlain (style : Style) (text : String) : Bool :=
  style == .plain && text.isEmpty

/-- Reads any scalar as its text. -/
def readText : Field String := fun node => do
  match ← anchors.follow node with
  | .scalar _ _ _ text => return text
  | _ => Anchors.refuse

/-- Reads nothing from a null, else what `field` reads. -/
def readOptional {α : Type} (field : Field α) : Field (Option α) := fun node => do
  match ← anchors.follow node with
  | .scalar anchor tag .plain text =>
    let content : Node := .scalar anchor tag .plain text
    match tag with
    | none =>
      if text.isEmpty || isNullText text then return none else return some (← field content)
    | some tag =>
      if tag = standardTag "null" then if isNullText text then return none else Anchors.refuse
      else return some (← field content)
  | content => return some (← field content)

/-- Reads each item of a sequence. -/
def readList {α : Type} (field : Field α) : Field (List α) := fun node => do
  match ← anchors.follow node with
  | .sequence _ _ items => items.mapM field
  | .scalar _ _ style text => if isEmptyPlain style text then return [] else Anchors.refuse
  | _ => Anchors.refuse

/-- The entries of a mapping with the texts of their keys. -/
def readSection : Field (List (String × Node)) := fun node => do
  match ← anchors.follow node with
  | .mapping _ _ entries =>
    entries.mapM fun (key, value) => do return (← readText anchors key, value)
  | .scalar _ _ style text => if isEmptyPlain style text then return [] else Anchors.refuse
  | _ => Anchors.refuse

/-- The value of a key that may stand only once. -/
def unique (name : String) (entries : List (String × Node)) : Read (Option Node) :=
  match entries.filter fun entry => entry.1 == name with
  | [] => pure none
  | [entry] => pure (some entry.2)
  | _ => Anchors.refuse

def readField {α : Type} (name : String) (field : Field α) (entries : List (String × Node)) :
    Read (Option α) := do
  match ← unique name entries with
  | none => return none
  | some node => readOptional anchors field node

/-! ## Values of several forms -/

def commandOf? : Value → Option Command
  | .text line => some (.line line)
  | .list items => .arguments <$> items.mapM fun item =>
    match item with
    | .text argument => some argument
    | _ => none
  | _ => none

def countOf? : Value → Option Count
  | .natural value => some (.number value)
  | .signed value => if 0 ≤ value then some (.number (.ofNat value.toNat)) else none
  | .text text => some (.text text)
  | _ => none

def greatestSigned : Nat := Nat.pow 2 63 - 1

def variableOf? : Value → Option Variable
  | .bool value => some (.bool value)
  | .natural value =>
    if value.toNat ≤ greatestSigned then some (.int value.toNat)
    else some (.float (Decimal.nearest false value.toNat 1))
  | .signed value => some (.int value)
  | .float value => some (.float value)
  | .text value => some (.text value)
  | _ => none

def textKey? : Value → Option String
  | .text key => some key
  | _ => none

def bindingsOf? : Value → Option (List (String × Variable))
  | .map entries => entries.mapM fun (key, value) => do return (← textKey? key, ← variableOf? value)
  | _ => none

/-- The parts of an environment, in the order in which a number may stand for one. -/
def environmentKeys : List String :=
  ["name", "label", "disabled", "env"]

/-- The key of an environment part: its name, or its number. Other texts and numbers name parts
that are passed over. -/
def environmentKey? : Value → Option String
  | .text key => some key
  | .natural index => some ((environmentKeys[index.toNat]?).getD "")
  | _ => none

/-- The value of a part that may stand only once; `some none` when it is absent. -/
def uniqueValue? (name : String) (entries : List (String × Value)) : Option (Option Value) :=
  match entries.filter fun entry => entry.1 == name with
  | [] => some none
  | [entry] => some (some entry.2)
  | _ => none

def environmentText? : Value → Option String
  | .text text => some text
  | _ => none

def environmentLabel? : Option Value → Option (Option String)
  | none | some .null => some none
  | some (.text label) => some (some label)
  | _ => none

def environmentSwitch? : Option Value → Option Bool
  | none => some false
  | some (.bool value) => some value
  | _ => none

def environmentOf? : Value → Option Environment
  | .text name => some (.name name)
  | .map entries => do
    let entries ← entries.mapM fun (key, value) => do return (← environmentKey? key, value)
    let name ← environmentText? (← ← uniqueValue? "name" entries)
    let label ← environmentLabel? (← uniqueValue? "label" entries)
    let disabled ← environmentSwitch? (← uniqueValue? "disabled" entries)
    let bindings ← match ← uniqueValue? "env" entries with
      | none => some []
      | some value => bindingsOf? value
    return .entry name label disabled bindings
  | _ => none

/-- Reads a value and then what it stands for. -/
def readFormed {α : Type} (depth : Nat) (form : Value → Option α) : Field α := fun node => do
  let value ← anchors.value depth node
  liftM (form value)

/-! ## Sections -/

def readCommands : Field Commands := fun node => do
  let entries ← readSection anchors node
  let command := readFormed anchors (depthLimit - 2) commandOf?
  let phase (name : String) := readField anchors name command entries
  return { build? := ← phase "build", flash? := ← phase "flash", run? := ← phase "run" }

def readBoard : Field Board := fun node => do
  let entries ← readSection anchors node
  let name? ← readField anchors "board_name" (readText anchors) entries
  let environments ← readField anchors "supported_environments"
    (readList anchors (readFormed anchors (depthLimit - 6) environmentOf?)) entries
  return { name?, environments := environments.getD [] }

def readBenchmark : Field Benchmark := fun node => do
  let entries ← readSection anchors node
  let count := readFormed anchors (depthLimit - 3) countOf?
  let name? ← readField anchors "name" (readText anchors) entries
  let filename? ← readField anchors "filename" (readText anchors) entries
  let scaleFactor? ← readField anchors "scale_factor" count entries
  let iterations? ← readField anchors "iterations" count entries
  let board := readOptional anchors (readBoard anchors)
  let boards ← readField anchors "boards" (readList anchors board) entries
  return { name?, filename?, scaleFactor?, iterations?, boards := boards.getD [] }

def readRoot : Field Descriptor := fun node => do
  let entries ← readSection anchors node
  let benchmark := readBenchmark anchors
  let benchmarks? ← readField anchors "benchmarks" (readList anchors benchmark) entries
  let commands ← match ← unique "commands" entries with
    | none => pure {}
    | some node => readCommands anchors node
  return { benchmarks?, commands }

/-- The descriptor that a document tree spells out. -/
def ofNode? (node : Node) : Option Descriptor :=
  ((readRoot (Anchors.of node) node).run 0).map Prod.fst

/-- The descriptor in a YAML text. An empty text is an empty descriptor. -/
def ofYaml? (text : String) : Option Descriptor := do
  match ← document? text with
  | none => return {}
  | some node => ofNode? node

end Descriptor

/-- The configuration in a YAML text. -/
def Config.ofYaml (text : String) : Except ConfigError Config :=
  match Descriptor.ofYaml? text with
  | none => .error .invalidDocument
  | some descriptor => descriptor.expand

/-- The configuration in the bytes of a file. -/
def Config.ofBytes (path : String) (bytes : Bytes) : Except ConfigError Config :=
  match strictText? bytes with
  | none => .error (.unreadable path .invalidText)
  | some text => Config.ofYaml text

end BoardBench
