import Workflow.Activity

/-!
# Process documents

A process document lists the records of a diagram by collection: start and end events, five kinds of
tasks, four kinds of gateways, intermediate events, flows, lanes and boundary events.  Each
collection may be absent, a bare record, or a list, and the document keeps which it was.
-/

namespace Workflow

/-- The record of an activity. -/
structure ActivityRecord where
  /-- The id. -/
  id : String
  /-- The name. -/
  name : Option String := none
  /-- The edges that lead in. -/
  incoming : Option EdgeRefs := none
  /-- The edges that lead out. -/
  outgoing : Option EdgeRefs := none
  /-- What sets the activity off; it matters for intermediate events only. -/
  trigger : Option Trigger := none
  deriving DecidableEq, Repr

/-- A sequence flow from one node to another. -/
structure Flow where
  /-- The id, by which activities list the flow among their edges. -/
  id : String
  /-- The node it leaves. -/
  source : String
  /-- The node it leads to. -/
  target : String
  deriving DecidableEq, Repr

/-- The record of a lane. -/
structure Lane where
  /-- The id. -/
  id : String
  /-- The name. -/
  name : Option String
  /-- The ids of the nodes that lie in the lane. -/
  members : List String
  deriving DecidableEq, Repr

/-- The record of a boundary event. -/
structure BoundaryRecord where
  /-- The id. -/
  id : String
  /-- The task it is attached to. -/
  attachedTo : String
  /-- The edge that leads out of it. -/
  outgoing : String
  /-- What sets it off. -/
  trigger : Option Trigger
  deriving DecidableEq, Repr

/-- A process document. -/
structure Document where
  /-- The id of the process. -/
  id : String
  /-- Whether the diagram marks the process as executable, for information. -/
  executable : Bool := false
  /-- The start event. -/
  startEvent : Option (OneOrMany ActivityRecord) := none
  /-- The end events. -/
  endEvent : Option (OneOrMany ActivityRecord) := none
  /-- The lanes. -/
  lanes : Option (OneOrMany Lane) := none
  /-- The sequence flows. -/
  sequenceFlow : Option (OneOrMany Flow) := none
  /-- The boundary events. -/
  boundaryEvent : Option (OneOrMany BoundaryRecord) := none
  /-- The tasks of no special kind. -/
  task : Option (OneOrMany ActivityRecord) := none
  /-- The tasks done by a person at the engine. -/
  userTask : Option (OneOrMany ActivityRecord) := none
  /-- The tasks done without the engine. -/
  manualTask : Option (OneOrMany ActivityRecord) := none
  /-- The tasks done by a service. -/
  serviceTask : Option (OneOrMany ActivityRecord) := none
  /-- The tasks done by a script. -/
  scriptTask : Option (OneOrMany ActivityRecord) := none
  /-- The exclusive gateways. -/
  exclusiveGateway : Option (OneOrMany ActivityRecord) := none
  /-- The inclusive gateways. -/
  inclusiveGateway : Option (OneOrMany ActivityRecord) := none
  /-- The parallel gateways. -/
  parallelGateway : Option (OneOrMany ActivityRecord) := none
  /-- The complex gateways. -/
  complexGateway : Option (OneOrMany ActivityRecord) := none
  /-- The intermediate events that throw. -/
  throwEvent : Option (OneOrMany ActivityRecord) := none
  /-- The intermediate events that catch. -/
  catchEvent : Option (OneOrMany ActivityRecord) := none
  deriving DecidableEq, Repr

namespace Document

/-- The records of a collection, none when it is absent. -/
def records {α : Type} (collection : Option (OneOrMany α)) : List α :=
  match collection with
  | none => []
  | some c => c.toList

/-- The collection of the tasks of a kind. -/
def tasksOf (p : Document) : TaskKind → Option (OneOrMany ActivityRecord)
  | .normal => p.task
  | .user => p.userTask
  | .manual => p.manualTask
  | .service => p.serviceTask
  | .script => p.scriptTask

/-- The collection of the gateways of a kind. -/
def gatewaysOf (p : Document) : GatewayKind → Option (OneOrMany ActivityRecord)
  | .exclusive => p.exclusiveGateway
  | .inclusive => p.inclusiveGateway
  | .parallel => p.parallelGateway
  | .complex => p.complexGateway

end Document

end Workflow
