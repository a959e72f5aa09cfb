import Workflow.Yaml.Scalar

/-!
# Nodes

A YAML document is a tree of nodes.  A node may carry a mark, a number by which aliases elsewhere in
the document stand for it.  The same mark may be given more than once; then aliases stand for the
node that was given it last.
-/

namespace Workflow.Yaml

/-- A node of a document. -/
inductive Node where
  /-- Another node, by its mark. -/
  | reference (mark : Nat)
  | scalar (mark : Option Nat) (s : Scalar)
  | sequence (mark : Option Nat) (tag : Option Tag) (items : List Node)
  | mapping (mark : Option Nat) (tag : Option Tag) (entries : List (Node × Node))
  deriving Repr

namespace Node

/-- A node that was left out. -/
def missing : Node := scalar none {}

/-- The mark of a node. -/
def mark? : Node → Option Nat
  | reference _ => none
  | scalar m _ | sequence m _ _ | mapping m _ _ => m

mutual

/-- How large a node is: an alias and a scalar count once, a collection twice for its ends. -/
def size : Node → Nat
  | reference _ | scalar _ _ => 1
  | sequence _ _ items => 2 + sizeList items
  | mapping _ _ entries => 2 + sizeEntries entries

/-- The sizes of elements together. -/
def sizeList : List Node → Nat
  | [] => 0
  | n :: ns => size n + sizeList ns

/-- The sizes of keys and values together. -/
def sizeEntries : List (Node × Node) → Nat
  | [] => 0
  | (k, v) :: rest => size k + size v + sizeEntries rest

end

mutual

/-- The node below `n`, itself included, that is the last one in the text with a mark; `found` if
there is none. -/
def findLast (mark : Nat) (found : Option Node) (n : Node) : Option Node :=
  let found := if n.mark? = some mark then some n else found
  match n with
  | reference _ | scalar _ _ => found
  | sequence _ _ items => findLastList mark found items
  | mapping _ _ entries => findLastEntries mark found entries

/-- The last marked node below elements. -/
def findLastList (mark : Nat) (found : Option Node) : List Node → Option Node
  | [] => found
  | n :: ns => findLastList mark (findLast mark found n) ns

/-- The last marked node below keys and values. -/
def findLastEntries (mark : Nat) (found : Option Node) : List (Node × Node) → Option Node
  | [] => found
  | (k, v) :: rest =>
    findLastEntries mark (findLast mark (findLast mark found k) v) rest

end

end Node

end Workflow.Yaml
