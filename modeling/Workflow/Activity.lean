import Workflow.Gateway

/-!
# Activities

An activity is a node of a process: a task, a gateway or an event.  The same type serves for the
definitions of a compiled process, which have no status, and for the live activities of an engine,
which have one.

A task may have a boundary event, which has a lifecycle of its own and redirects the flow when it is
taken.
-/

namespace Workflow

/-- The kinds of tasks. -/
inductive TaskKind where
  | normal
  | user
  | manual
  | service
  | script
  deriving DecidableEq, Repr

namespace TaskKind

/-- Every kind of task. -/
def all : List TaskKind := [normal, user, manual, service, script]

/-- The name of a kind, as records spell it. -/
def name : TaskKind → String
  | normal => "Normal"
  | user => "User"
  | manual => "Manual"
  | service => "Service"
  | script => "Script"

end TaskKind

/-- The kinds of events that are activities. -/
inductive EventKind where
  | start
  | intermediateThrow
  | intermediateCatch
  | finish
  deriving DecidableEq, Repr

namespace EventKind

/-- Every kind of event. -/
def all : List EventKind := [start, intermediateThrow, intermediateCatch, finish]

/-- The name of a kind, as records spell it. -/
def name : EventKind → String
  | start => "Start"
  | intermediateThrow => "IntermediateThrow"
  | intermediateCatch => "IntermediateCatch"
  | finish => "End"

end EventKind

/-- What sets off an intermediate or a boundary event. -/
inductive Trigger where
  | error
  | signal
  | message
  | timer
  | normal
  deriving DecidableEq, Repr

namespace Trigger

/-- Every trigger. -/
def all : List Trigger := [error, signal, message, timer, normal]

/-- The name of a trigger, as records spell it. -/
def name : Trigger → String
  | error => "Error"
  | signal => "Signal"
  | message => "Message"
  | timer => "Timer"
  | normal => "Normal"

end Trigger

/-- An event attached to a task, which redirects the flow along an edge of its own. -/
structure BoundaryEvent where
  /-- The event's id, which is the source of the edges it redirects along. -/
  id : String
  /-- The task it is attached to. -/
  attachedTo : String
  /-- The edge whose token a redirected gateway takes. -/
  outgoing : String
  /-- What sets it off. -/
  trigger : Option Trigger
  /-- Where it stands. -/
  lifecycle : Lifecycle
  deriving DecidableEq

namespace BoundaryEvent

/-- A boundary event that is not live; without a trigger it is a normal one. -/
def define (id attachedTo outgoing : String) (trigger : Option Trigger) : BoundaryEvent :=
  { id, attachedTo, outgoing, trigger := some (trigger.getD .normal), lifecycle := {} }

/-- The boundary event after reaching a status. -/
def set (b : BoundaryEvent) (s : Status) (now : Instant) : BoundaryEvent :=
  { b with lifecycle := b.lifecycle.set s now }

end BoundaryEvent

/-- What a task has beyond other activities. -/
structure Task where
  /-- The kind. -/
  kind : TaskKind
  /-- The event attached to it. -/
  boundary : Option BoundaryEvent
  deriving DecidableEq

/-- What an event has beyond other activities. -/
structure Event where
  /-- The kind. -/
  kind : EventKind
  /-- What sets it off; only intermediate events have one. -/
  trigger : Option Trigger
  deriving DecidableEq, Repr

namespace Event

/-- A start or end event. -/
def plain (kind : EventKind) : Event := ⟨kind, none⟩

/-- An intermediate event; without a trigger it is a normal one. -/
def intermediate (kind : EventKind) (trigger : Option Trigger) : Event :=
  ⟨kind, some (trigger.getD .normal)⟩

end Event

/-- The lane of an activity, for information. -/
structure LaneTag where
  /-- The lane's id. -/
  id : String
  /-- The lane's name. -/
  name : Option String
  deriving DecidableEq, Repr

/-- The family of an activity with what belongs to that family alone. -/
inductive Kind where
  | task (t : Task)
  | gateway (g : Gateway)
  | event (e : Event)
  deriving DecidableEq

/-- The family. -/
def Kind.category : Kind → Category
  | task _ => .task
  | gateway _ => .gateway
  | event _ => .event

/-- A node of a process, as a definition or live. -/
structure Activity where
  /-- The id, unique in a process. -/
  id : String
  /-- The name, by which handlers are registered. -/
  name : Option String
  /-- The edges that lead in. -/
  incoming : Option EdgeRefs
  /-- The edges that lead out. -/
  outgoing : Option EdgeRefs
  /-- The lane. -/
  lane : Option LaneTag
  /-- Where the activity stands. -/
  lifecycle : Lifecycle
  /-- The family. -/
  kind : Kind
  deriving DecidableEq

namespace Activity

/-- A definition outside any lane. -/
def define (id : String) (name : Option String) (incoming outgoing : Option EdgeRefs)
    (kind : Kind) : Activity :=
  { id, name, incoming, outgoing, lane := none, lifecycle := {}, kind }

/-- The status, absent for a definition. -/
def status (a : Activity) : Option Status := a.lifecycle.status

/-- Whether the activity has a status. -/
def isIn (a : Activity) (s : Status) : Bool := a.status == some s

/-- Whether the activity waits to be run. -/
def isEntered (a : Activity) : Bool := a.isIn .entered

/-- Whether the activity has this name. -/
def hasName (a : Activity) (name : String) : Bool := a.name == some name

/-- The family. -/
def category (a : Activity) : Category := a.kind.category

/-- The activity after reaching a status. -/
def set (a : Activity) (s : Status) (now : Instant) : Activity :=
  { a with lifecycle := a.lifecycle.set s now }

/-- The gateway part. -/
def gateway? (a : Activity) : Option Gateway :=
  match a.kind with
  | .gateway g => some g
  | _ => none

/-- The task part. -/
def task? (a : Activity) : Option Task :=
  match a.kind with
  | .task t => some t
  | _ => none

/-- The event part. -/
def event? (a : Activity) : Option Event :=
  match a.kind with
  | .event e => some e
  | _ => none

/-- The boundary event of a task. -/
def boundary? (a : Activity) : Option BoundaryEvent :=
  match a.kind with
  | .task t => t.boundary
  | _ => none

/-- The activity with its gateway part changed; other activities are left alone. -/
def mapGateway (f : Gateway → Gateway) (a : Activity) : Activity :=
  match a.kind with
  | .gateway g => { a with kind := .gateway (f g) }
  | _ => a

/-- The activity with its boundary event changed, if it has one. -/
def mapBoundary (f : BoundaryEvent → BoundaryEvent) (a : Activity) : Activity :=
  match a.kind with
  | .task t => { a with kind := .task { t with boundary := t.boundary.map f } }
  | _ => a

/-- A live activity of this definition, just entered: no stamp of earlier times stays, neither its
own nor its boundary event's. -/
def instantiate (a : Activity) (now : Instant) : Activity :=
  { a.mapBoundary ({ · with lifecycle := {} }) with
    lifecycle := ({} : Lifecycle).set .entered now }

/-- Whether a gateway's tokens stand for the edges of the activity; true of every other
activity. -/
def tokensMatch (a : Activity) : Bool :=
  match a.kind with
  | .gateway g => g.matchRefs a.incoming a.outgoing
  | _ => true

@[simp]
theorem id_set (a : Activity) (s : Status) (now : Instant) : (a.set s now).id = a.id := rfl

@[simp]
theorem status_set (a : Activity) (s : Status) (now : Instant) :
    (a.set s now).status = some s := by
  simp [set, status]

@[simp]
theorem id_mapGateway (f : Gateway → Gateway) (a : Activity) : (a.mapGateway f).id = a.id := by
  unfold mapGateway
  split <;> rfl

@[simp]
theorem id_mapBoundary (f : BoundaryEvent → BoundaryEvent) (a : Activity) :
    (a.mapBoundary f).id = a.id := by
  unfold mapBoundary
  split <;> rfl

@[simp]
theorem id_instantiate (a : Activity) (now : Instant) : (a.instantiate now).id = a.id :=
  id_mapBoundary _ a

end Activity

end Workflow
