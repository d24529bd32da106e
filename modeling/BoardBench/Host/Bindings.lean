import BoardBench.Text.Search
import BoardBench.Text.Sorted

/-!
# Bindings

The environment variables of a process. A process receives them as texts in the order of their
names, each a name, an equals sign and a value. Whoever reads the texts takes the first equals sign
for the end of the name, so a name that holds one is read as another variable.
-/
namespace BoardBench.Host

/-- The variables that a process is given; of two of one name the last one counts. -/
abbrev Bindings := List (String × String)

namespace Bindings

def get? (bindings : Bindings) (name : String) : Option String :=
  (bindings.reverse.find? fun entry => entry.1 == name).map Prod.snd

/-- The texts that a process receives. -/
def block (bindings : Bindings) : List String :=
  (sortedEntries textBefore bindings).map fun entry => entry.1 ++ "=" ++ entry.2

/-- The name and the value that a text is read as. -/
def readBack (text : String) : String × String :=
  (String.ofList (text.toList.takeWhile (· != '=')),
    String.ofList ((text.toList.dropWhile (· != '=')).drop 1))

theorem readBack_text {name value : String} (plain : '=' ∉ name.toList) :
    readBack (name ++ "=" ++ value) = (name, value) := by
  have admitted : ∀ char ∈ name.toList, (char != '=') = true := by
    intro char member
    simp only [bne_iff_ne, ne_eq]
    rintro rfl
    exact plain member
  simp [readBack, List.takeWhile_append_of_pos admitted, List.dropWhile_append_of_pos admitted]

/-- The variables as they are read from the texts. -/
def received (bindings : Bindings) : Bindings :=
  (block bindings).map readBack

/-- What a process finds under a name: the first of the texts counts. -/
def find? (bindings : Bindings) (name : String) : Option String :=
  bindings.received.lookup name

/-- What a shell sets by itself, whatever it receives. -/
def ofShell (directory : String) : Bindings :=
  [("PWD", directory), ("IFS", " \t\n"), ("OPTIND", "1")]

/-- The variables of a shell that starts in a directory: the last of the texts counts. -/
def inShell (bindings : Bindings) (directory : String) : Bindings :=
  bindings.received ++ ofShell directory

end Bindings

end BoardBench.Host
