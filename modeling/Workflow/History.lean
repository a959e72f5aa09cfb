import Workflow.FirstMatch
import Workflow.Activity

/-!
# Live and completed activities

An engine keeps its live activities in `head`, one for each branch, and logs every completed one at
the end of `stack`.

A snapshot is what an engine saves: its course and its history.  The compiled process is not part of
it, so a snapshot can only be restored where the process has been built.
-/

namespace Workflow

/-- The live and the completed activities of a run. -/
structure History where
  /-- The live activities. -/
  head : List Activity := []
  /-- The completed activities, in the order of completion. -/
  stack : List Activity := []
  deriving DecidableEq

namespace History

/-- The first live activity with this id. -/
def headById? (h : History) (id : String) : Option Activity := h.head.find? (·.id == id)

/-- The first live activity with this name. -/
def headByName? (h : History) (name : String) : Option Activity := h.head.find? (·.hasName name)

/-- The activity with this id that completed last. -/
def lastCompleted? (h : History) (id : String) : Option Activity :=
  h.stack.reverse.find? (·.id == id)

/-- The history with the first live activity of an id changed. -/
def updateById (h : History) (id : String) (f : Activity → Activity) : History :=
  { h with head := updateFirst (·.id == id) f h.head }

/-- The history with the first live activity of a name changed. -/
def updateByName (h : History) (name : String) (f : Activity → Activity) : History :=
  { h with head := updateFirst (·.hasName name) f h.head }

/-- The history with an activity written over the live one of the same id. -/
def writeBack (h : History) (a : Activity) : History := h.updateById a.id fun _ => a

/-- The history with an activity logged and its branch gone. -/
def retire (h : History) (a : Activity) : History :=
  { head := h.head.filter (·.id != a.id), stack := h.stack ++ [a] }

/-- Live activities with one more, unless its id is live already. -/
def join (head : List Activity) (a : Activity) : List Activity :=
  if head.any (·.id == a.id) then head else head ++ [a]

/-- The history with activities joining the live ones, except those whose id is live already. -/
def merge (h : History) (successors : List Activity) : History :=
  { h with head := successors.foldl join h.head }

/-- The history with an activity live, in the place of the live one of the same id if there is
one. -/
def pushHead (h : History) (a : Activity) : History :=
  if h.head.any (·.id == a.id) then h.writeBack a else { h with head := h.head ++ [a] }

end History

/-- The saved state of an engine. -/
structure Snapshot where
  /-- The state of the engine and when it reached each state. -/
  course : Course
  /-- The live activities. -/
  head : List Activity
  /-- The completed activities. -/
  stack : List Activity
  deriving DecidableEq

end Workflow
