import Workflow.Graph

/-!
# Compiling a process document

The definitions of a graph are the document's activity records in a fixed order: the start event,
the tasks, the gateways, the end events, the throwing and then the catching intermediate events.  A
document is refused at the first fault in that order: a start event that is absent or a list, an
empty list of edges, an id met before, and, once tasks and gateways are through, the absence of end
events.
-/

namespace Workflow

namespace Document

/-- The tag of the first lane that lists a node. -/
def laneOf? (p : Document) (id : String) : Option LaneTag :=
  ((records p.lanes).find? (·.members.contains id)).map fun l => ⟨l.id, l.name⟩

/-- The first boundary event attached to a task. -/
def boundaryOf? (p : Document) (task : String) : Option BoundaryEvent :=
  ((records p.boundaryEvent).find? (·.attachedTo == task)).map fun b =>
    .define b.id b.attachedTo b.outgoing b.trigger

/-- The definition of a record, of the family `kind`, in its lane. -/
def definition (p : Document) (r : ActivityRecord) (kind : Kind) : Activity :=
  { Activity.define r.id r.name r.incoming r.outgoing kind with lane := p.laneOf? r.id }

/-- The definition of a start or end event. -/
def plainEvent (p : Document) (kind : EventKind) (r : ActivityRecord) : Activity :=
  p.definition r (.event (.plain kind))

/-- The definition of an intermediate event. -/
def intermediateEvent (p : Document) (kind : EventKind) (r : ActivityRecord) : Activity :=
  p.definition r (.event (.intermediate kind r.trigger))

/-- The definition of a task, with its boundary event. -/
def taskOf (p : Document) (kind : TaskKind) (r : ActivityRecord) : Activity :=
  p.definition r (.task ⟨kind, p.boundaryOf? r.id⟩)

/-- The definition of a gateway, at which nothing has arrived. -/
def gatewayOf (p : Document) (kind : GatewayKind) (r : ActivityRecord) : Activity :=
  p.definition r (.gateway (.ofRefs kind r.incoming r.outgoing))

/-- The definitions of the tasks, kind by kind. -/
def taskDefinitions (p : Document) : List Activity :=
  TaskKind.all.flatMap fun k => (records (p.tasksOf k)).map (p.taskOf k)

/-- The definitions of the gateways, kind by kind. -/
def gatewayDefinitions (p : Document) : List Activity :=
  GatewayKind.all.flatMap fun k => (records (p.gatewaysOf k)).map (p.gatewayOf k)

/-- The definitions of the end events. -/
def endDefinitions (p : Document) : List Activity := (records p.endEvent).map (p.plainEvent .finish)

/-- The definitions of the intermediate events, the throwing ones first. -/
def intermediateDefinitions (p : Document) : List Activity :=
  (records p.throwEvent).map (p.intermediateEvent .intermediateThrow) ++
    (records p.catchEvent).map (p.intermediateEvent .intermediateCatch)

/-- Refuses an empty list of edges on one side of an activity. -/
def checkRefs (id : String) (direction : Direction) (refs : Option EdgeRefs) : Except Error Unit :=
  match refs with
  | some (.many []) => .error (.emptyFlowList id direction)
  | _ => .ok ()

/-- The definitions accepted so far with one more, unless it has a fault. -/
def accept (accepted : List Activity) (a : Activity) : Except Error (List Activity) := do
  checkRefs a.id .incoming a.incoming
  checkRefs a.id .outgoing a.outgoing
  if accepted.any (·.id == a.id) then .error (.duplicateActivity a.id)
  else .ok (accepted ++ [a])

/-- The record of the start event, which has to be given bare. -/
def startRecord (p : Document) : Except Error ActivityRecord :=
  match p.startEvent with
  | none => .error .missingStartEvent
  | some (.many _) => .error .startEventIsList
  | some (.one r) => .ok r

/-- The graph of a document, or its first fault. -/
def compile (p : Document) : Except Error Graph := do
  let record ← p.startRecord
  let start := p.plainEvent .start record
  let first ← accept [] start
  let inner ← (p.taskDefinitions ++ p.gatewayDefinitions).foldlM accept first
  if p.endEvent.isNone then .error .missingEndEvent
  else
    let all ← (p.endDefinitions ++ p.intermediateDefinitions).foldlM accept inner
    .ok ⟨start, all.tail, records p.sequenceFlow⟩

end Document

end Workflow
