import Workflow.Document

/-!
# Building a process document

A builder collects nodes, flows, lanes and boundary events in any order and assembles a document
from them.  Nodes do not say which edges they have: the edges of a node are the flows that name it,
in the order in which the flows were added.  A node with one such flow refers to it bare, a node
with several lists them, and a node with none has no reference at all.
-/

namespace Workflow

/-- The collection of the document to which a node belongs. -/
inductive NodeGroup where
  | start
  | finish
  | task (kind : TaskKind)
  | gateway (kind : GatewayKind)
  | throwEvent
  | catchEvent
  deriving DecidableEq, Repr

/-- A node that was added to a builder. -/
structure BuilderNode where
  /-- The collection it belongs to. -/
  group : NodeGroup
  /-- The id. -/
  id : String
  /-- The name. -/
  name : Option String
  /-- What sets it off. -/
  trigger : Option Trigger := none
  deriving DecidableEq, Repr

/-- A boundary event that was added to a builder; its edge is found when the document is built. -/
structure BuilderBoundary where
  /-- The id, by which flows name it as their source. -/
  id : String
  /-- The task it is attached to. -/
  attachedTo : String
  /-- What sets it off. -/
  trigger : Option Trigger
  deriving DecidableEq, Repr

/-- What has been added so far, each list in the order of the additions. -/
structure Builder where
  /-- The id of the process. -/
  id : String
  /-- The nodes. -/
  nodes : List BuilderNode := []
  /-- The flows. -/
  flows : List Flow := []
  /-- The lanes. -/
  lanes : List Lane := []
  /-- The boundary events. -/
  boundaries : List BuilderBoundary := []
  deriving DecidableEq, Repr

namespace Builder

/-- A builder with one more node; the empty name is no name. -/
def addNode (b : Builder) (group : NodeGroup) (id name : String)
    (trigger : Option Trigger := none) : Builder :=
  let name := if name = "" then none else some name
  { b with nodes := b.nodes ++ [{ group, id, name, trigger }] }

/-- A builder with a start event added. -/
def start (b : Builder) (id name : String) : Builder := b.addNode .start id name

/-- A builder with an end event added. -/
def finish (b : Builder) (id name : String) : Builder := b.addNode .finish id name

/-- A builder with a task added. -/
def task (b : Builder) (kind : TaskKind) (id name : String) : Builder :=
  b.addNode (.task kind) id name

/-- A builder with a gateway added. -/
def gateway (b : Builder) (kind : GatewayKind) (id name : String) : Builder :=
  b.addNode (.gateway kind) id name

/-- A builder with a throwing intermediate event added. -/
def throwEvent (b : Builder) (id name : String) : Builder := b.addNode .throwEvent id name

/-- A builder with a catching intermediate event added. -/
def catchEvent (b : Builder) (id name : String) (trigger : Trigger) : Builder :=
  b.addNode .catchEvent id name (some trigger)

/-- A builder with a boundary event attached to a task. -/
def boundary (b : Builder) (id attachedTo : String) (trigger : Option Trigger) : Builder :=
  { b with boundaries := b.boundaries ++ [{ id, attachedTo, trigger }] }

/-- A builder with a lane added. -/
def lane (b : Builder) (id name : String) (members : List String) : Builder :=
  { b with lanes := b.lanes ++ [{ id, name := some name, members }] }

/-- A builder with a flow added. -/
def flow (b : Builder) (id source target : String) : Builder :=
  { b with flows := b.flows ++ [{ id, source, target }] }

/-- The flows that lead into a node, as it refers to them. -/
def incomingOf (b : Builder) (id : String) : Option EdgeRefs :=
  OneOrMany.ofList? ((b.flows.filter (·.target == id)).map (·.id))

/-- The flows that leave a node, as it refers to them. -/
def outgoingOf (b : Builder) (id : String) : Option EdgeRefs :=
  OneOrMany.ofList? ((b.flows.filter (·.source == id)).map (·.id))

/-- The record of a node. -/
def recordOf (b : Builder) (n : BuilderNode) : ActivityRecord :=
  { id := n.id, name := n.name, incoming := b.incomingOf n.id, outgoing := b.outgoingOf n.id,
    trigger := n.trigger }

/-- The collection of the nodes of a group: absent when there is none, bare for one. -/
def collection (b : Builder) (group : NodeGroup) : Option (OneOrMany ActivityRecord) :=
  OneOrMany.ofList? ((b.nodes.filter (·.group == group)).map b.recordOf)

/-- The record of a boundary event, whose edge is the first flow that leaves it. -/
def boundaryRecord (b : Builder) (e : BuilderBoundary) : BoundaryRecord :=
  { id := e.id, attachedTo := e.attachedTo,
    outgoing := ((b.flows.find? (·.source == e.id)).map (·.id)).getD "", trigger := e.trigger }

/-- A list as a collection: absent when empty, and a list even when it has one element. -/
def listed {α : Type} : List α → Option (OneOrMany α)
  | [] => none
  | as => some (.many as)

/-- The document of everything that was added. -/
def build (b : Builder) : Document where
  id := b.id
  executable := true
  startEvent := b.collection .start
  endEvent := b.collection .finish
  lanes := listed b.lanes
  sequenceFlow := listed b.flows
  boundaryEvent := listed (b.boundaries.map b.boundaryRecord)
  task := b.collection (.task .normal)
  userTask := b.collection (.task .user)
  manualTask := b.collection (.task .manual)
  serviceTask := b.collection (.task .service)
  scriptTask := b.collection (.task .script)
  exclusiveGateway := b.collection (.gateway .exclusive)
  inclusiveGateway := b.collection (.gateway .inclusive)
  parallelGateway := b.collection (.gateway .parallel)
  complexGateway := b.collection (.gateway .complex)
  throwEvent := b.collection .throwEvent
  catchEvent := b.collection .catchEvent

end Builder

end Workflow
