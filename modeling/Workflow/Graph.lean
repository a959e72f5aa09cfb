import Workflow.Document

/-!
# Compiled processes

A graph is what a process document compiles to: the definitions of its activities, the start event
first, and its flows.  Live activities refer to their definitions by id.
-/

namespace Workflow

/-- A compiled process. -/
structure Graph where
  /-- The definition of the start event. -/
  start : Activity
  /-- The definitions of all other activities. -/
  others : List Activity
  /-- The flows. -/
  edges : List Flow
  deriving DecidableEq

namespace Graph

/-- Every definition, the start event first. -/
def activities (g : Graph) : List Activity := g.start :: g.others

/-- The definition with this id.  No two have the same, and the search stands for a table of ids: it
finds what such a table leads to (`Document.exists_arena`). -/
def activity? (g : Graph) (id : String) : Option Activity := g.activities.find? (·.id == id)

/-- The first definition with this name. -/
def activityNamed? (g : Graph) (name : String) : Option Activity :=
  g.activities.find? (·.hasName name)

/-- The first flow with this id. -/
def edge? (g : Graph) (id : String) : Option Flow := g.edges.find? (·.id == id)

/-- The flows that leave a node. -/
def edgesFrom (g : Graph) (source : String) : List Flow := g.edges.filter (·.source == source)

/-- The nodes that flows lead to, flow by flow; unknown flows lead nowhere. -/
def targetIds (g : Graph) (edges : List String) : List String :=
  (edges.filterMap g.edge?).map (·.target)

/-- A definition found by id has that id and is one of the graph. -/
theorem activity?_some {g : Graph} {id : String} {a : Activity} (h : g.activity? id = some a) :
    a ∈ g.activities ∧ a.id = id :=
  ⟨List.mem_of_find?_eq_some h, by simpa using List.find?_some h⟩

end Graph

end Workflow
