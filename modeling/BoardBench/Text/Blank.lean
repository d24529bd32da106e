/-!
# Blank characters

The Unicode property `White_Space`, and the operations that stand on it: trimming both ends of a
text and cutting it into its words. Everything works on lists of characters; `String` wrappers
close the module.
-/
namespace BoardBench

/-- The characters with the Unicode property `White_Space`. -/
def isBlank (char : Char) : Bool :=
  let code := char.toNat
  (0x9 ≤ code && code ≤ 0xD) || code == 0x20 || code == 0x85 || code == 0xA0 || code == 0x1680 ||
    (0x2000 ≤ code && code ≤ 0x200A) || code == 0x2028 || code == 0x2029 || code == 0x202F ||
    code == 0x205F || code == 0x3000

/-- Drops the longest tail whose members all satisfy `drop`. -/
def dropEndWhile {α : Type} (drop : α → Bool) : List α → List α
  | [] => []
  | item :: rest =>
    match dropEndWhile drop rest with
    | [] => if drop item then [] else [item]
    | kept => item :: kept

def trimChars (text : List Char) : List Char :=
  dropEndWhile isBlank (text.dropWhile isBlank)

/-- The maximal runs of items that `separates` refuses, empty runs included: one more than there
are separators. -/
def pieces {α : Type} (separates : α → Bool) : List α → List (List α)
  | [] => [[]]
  | item :: rest =>
    if separates item then [] :: pieces separates rest
    else
      match pieces separates rest with
      | [] => [[item]]
      | first :: more => (item :: first) :: more

theorem pieces_ne_nil {α : Type} (separates : α → Bool) (items : List α) :
    pieces separates items ≠ [] := by
  cases items with
  | nil => simp [pieces]
  | cons item rest =>
    rw [pieces]
    split
    · simp
    · split <;> simp

def wordsOf (text : List Char) : List (List Char) :=
  (pieces isBlank text).filter fun word => !word.isEmpty

def trim (text : String) : String :=
  String.ofList (trimChars text.toList)

/-- The words of a line, split at blanks of any kind and number. -/
def words (line : String) : List String :=
  (wordsOf line.toList).map String.ofList

end BoardBench
