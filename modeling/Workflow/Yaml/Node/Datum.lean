import Workflow.Yaml.Node.Grammar

/-!
# The data of nodes

A node is read into a datum by putting the nodes they stand for in the place of aliases.  Since an
alias may stand for a node around it, and aliases of aliases multiply, both the depth of the datum
and the number of aliases that are followed are limited.  The latter is given as a budget.
-/

namespace Workflow.Yaml

/-- A computation on nodes that may follow as many aliases as its state says. -/
abbrev Expansion (α : Type) := StateT Nat Option α

namespace Node

/-- How many aliases may be followed for each part of a document. -/
def aliasesPerPart : Nat := 100

/-- A node that is no alias: the node itself, or what it stands for below `root`. -/
def follow (n root : Node) : Expansion Node := do
  match n with
  | reference mark =>
    match ← get with
    | 0 => failure
    | budget + 1 =>
      set budget
      match findLast mark none root with
      | some n => return n
      | none => failure
  | n => return n

/-- The datum of a node below `root`, nested at most `levels` deep. -/
def datum (root : Node) (levels : Nat) (n : Node) : Expansion Datum := do
  match levels, ← n.follow root with
  | _, scalar _ s =>
    match s.datum? with
    | some d => return d
    | none => failure
  | levels + 1, sequence _ tag items =>
    if tag.any Tag.isPrivate then failure
    else return .list (← items.mapM (datum root levels))
  | levels + 1, mapping _ tag entries =>
    if tag.any Tag.isPrivate then failure
    else return .mapping (← entries.mapM fun (k, v) => do
      return (← datum root levels k, ← datum root levels v))
  | _, _ => failure

/-- The text of a node that is a scalar. -/
def text (n root : Node) : Expansion String := do
  match ← n.follow root with
  | scalar _ s => return s.text
  | _ => failure

end Node

end Workflow.Yaml
