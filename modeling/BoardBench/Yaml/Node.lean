import BoardBench.Yaml.Scalar
import BoardBench.Text.Utf8

/-!
# Nodes

The tree that a YAML document denotes. An anchor is a number: how many distinct names had been
given out before. An alias names such a number, and stands for the last node of the document that
carries it. A tag is a string of bytes, which need not be text. An empty text denotes no tree at
all.
-/
namespace BoardBench.Yaml

inductive Node where
  | scalar (anchor : Option Nat) (tag : Option Bytes) (style : Style) (text : String)
  | sequence (anchor : Option Nat) (tag : Option Bytes) (items : List Node)
  | mapping (anchor : Option Nat) (tag : Option Bytes) (entries : List (Node × Node))
  | aliasOf (anchor : Nat)
  deriving Repr

namespace Node

def anchor? : Node → Option Nat
  | scalar anchor .. => anchor
  | sequence anchor .. => anchor
  | mapping anchor .. => anchor
  | aliasOf _ => none

/-- A node that is not there. -/
def missing : Node := scalar none none .plain ""

mutual
/-- The marks that a node makes in a linear reading: collections are opened and closed. -/
def size : Node → Nat
  | scalar .. => 1
  | aliasOf _ => 1
  | sequence _ _ items => 2 + sizeOfItems items
  | mapping _ _ entries => 2 + sizeOfEntries entries

def sizeOfItems : List Node → Nat
  | [] => 0
  | item :: rest => item.size + sizeOfItems rest

def sizeOfEntries : List (Node × Node) → Nat
  | [] => 0
  | (key, value) :: rest => key.size + value.size + sizeOfEntries rest
end

mutual
/-- The nodes that carry an anchor, the last one first, in front of those found before. -/
def anchored (found : List (Nat × Node)) (node : Node) : List (Nat × Node) :=
  let found := match node.anchor? with
    | some anchor => (anchor, node) :: found
    | none => found
  match node with
  | scalar .. => found
  | aliasOf _ => found
  | sequence _ _ items => anchoredItems found items
  | mapping _ _ entries => anchoredEntries found entries

def anchoredItems (found : List (Nat × Node)) : List Node → List (Nat × Node)
  | [] => found
  | item :: rest => anchoredItems (item.anchored found) rest

def anchoredEntries (found : List (Nat × Node)) : List (Node × Node) → List (Nat × Node)
  | [] => found
  | (key, value) :: rest => anchoredEntries (value.anchored (key.anchored found)) rest
end

end Node

end BoardBench.Yaml
