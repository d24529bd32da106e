/-!
# Lists sorted by a key

Association lists in strictly ascending order of their keys. `adjust` is the one operation: it
changes the value of a key where the order puts it.
-/
namespace BoardBench

/-- Changes the value at `key`, or inserts one in front of the first greater key. -/
def adjust {κ ν : Type} (before : κ → κ → Bool) (key : κ) (change : Option ν → ν) :
    List (κ × ν) → List (κ × ν)
  | [] => [(key, change none)]
  | (other, value) :: rest =>
    if before key other then (key, change none) :: (other, value) :: rest
    else if before other key then (other, value) :: adjust before key change rest
    else (other, change (some value)) :: rest

/-- The entries of a list in ascending order of their keys; of equal keys the last one stays. -/
def sortedEntries {κ ν : Type} (before : κ → κ → Bool) (entries : List (κ × ν)) : List (κ × ν) :=
  entries.foldl (fun sorted entry => adjust before entry.1 (fun _ => entry.2) sorted) []

/-- The distinct members of a list in ascending order. -/
def sortedMembers {κ : Type} (before : κ → κ → Bool) (items : List κ) : List κ :=
  (sortedEntries before (items.map fun item => (item, ()))).map Prod.fst

/-- The members of each class of `items`, in order, under the key of the class; the classes in
ascending order of their keys. -/
def groupsBy {κ α : Type} (before : κ → κ → Bool) (key : α → κ) (items : List α) :
    List (κ × List α) :=
  items.foldl
    (fun groups item => adjust before (key item) (fun group => group.getD [] ++ [item]) groups) []

end BoardBench
