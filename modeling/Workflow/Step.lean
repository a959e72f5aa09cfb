import Workflow.Activity.Edit
import Workflow.Graph
import Workflow.History

/-!
# Steps

A handler works on a step: a copy of the live activity it was called for, together with the graph
and the history of the engine.  It may set the status of the activity and of its boundary event,
work with the tokens of a gateway, select outgoing edges by the activities they lead to, take a
boundary event, and stop every other branch.  It cannot reach the stack or the graph.

While a handler works, the live activity in `head` is the one from before the call; the copy takes
its place when the handler returns, also when it fails.
-/

namespace Workflow

/-- What a handler works on. -/
structure Step where
  /-- The copy of the live activity. -/
  activity : Activity
  /-- The compiled process. -/
  graph : Graph
  /-- The live and completed activities. -/
  history : History
  /-- The instant of the call. -/
  now : Instant

namespace Step

/-- The step with its activity edited. -/
def edit (st : Step) (e : Edit) : Except Error Step :=
  match st.activity.edit st.now e with
  | .ok activity => .ok { st with activity }
  | .error e => .error e

/-- Selects the outgoing edge into an activity that was looked up in the process. -/
def selectOutgoing (st : Step) (operation : Operation) (key : String) (target : Option Activity) :
    Except Error Step :=
  match st.activity.kind with
  | .gateway _ => st.edit (.chooseOutgoing operation key (target.map (·.incoming)))
  | _ => .error (.notAGateway operation st.activity.id)

/-- Selects the outgoing edge into the activity with this id. -/
def takeOutgoingById (st : Step) (id : String) : Except Error Step :=
  st.selectOutgoing .takeOutgoingById id (st.graph.activity? id)

/-- Selects the outgoing edge into the first activity with this name. -/
def takeOutgoingByName (st : Step) (name : String) : Except Error Step :=
  st.selectOutgoing .takeOutgoingByName name (st.graph.activityNamed? name)

/-- Takes back every selection of an outgoing edge. -/
def refreshAllOutgoing (st : Step) : Except Error Step :=
  match st.activity.kind with
  | .gateway _ => st.edit .refreshOutgoing
  | _ => .error (.notAGateway .refreshAllOutgoing st.activity.id)

/-- The live activity to which a boundary event redirects the flow.  The instance that completed
last is entered again, with its tokens of arrival and without its choices; if there is none, a new
one is made.  A gateway takes the token of the boundary event's edge. -/
def redirected (completed : Option Activity) (definition : Activity) (edge : String)
    (now : Instant) : Activity :=
  match completed with
  | some previous =>
    (previous.set .entered now).mapGateway fun g => g.refreshOutgoing.takeIncoming (·.edge == edge)
  | none => (definition.instantiate now).mapGateway (·.takeIncoming (·.edge == edge))

/-- The history with the target of a flow out of a boundary event live; a flow to an unknown node
leads nowhere. -/
def redirectAlong (st : Step) (edge : String) (h : History) (flow : Flow) : History :=
  match st.graph.activity? flow.target with
  | none => h
  | some definition =>
    h.pushHead (redirected (h.lastCompleted? definition.id) definition edge st.now)

/-- Takes the boundary event of the task: every target of the flows that leave the event becomes
live, in the place of a live activity of the same id, and the event is finished. -/
def takeBoundaryEvent (st : Step) : Except Error Step :=
  match st.activity.kind with
  | .task t =>
    match t.boundary with
    | none => .error (.missingBoundaryEvent st.activity.id st.activity.name)
    | some b =>
      let history := (st.graph.edgesFrom b.id).foldl (st.redirectAlong b.outgoing) st.history
      .ok { st with history, activity := st.activity.mapBoundary (·.set .finished st.now) }
  | _ => .error (.notATask st.activity.id)

/-- Stops every other live activity. -/
def stopAllExceptThis (st : Step) : Step :=
  let stop := fun a : Activity => if a.id = st.activity.id then a else a.set .stopped st.now
  { st with history := { st.history with head := st.history.head.map stop } }

/-- Something that a handler may do to its step. -/
inductive Action where
  /-- Edit the activity. -/
  | edit (e : Edit)
  /-- Select an outgoing edge by the id of its target. -/
  | takeOutgoingById (id : String)
  /-- Select an outgoing edge by the name of its target. -/
  | takeOutgoingByName (name : String)
  /-- Take back every selection, refused unless the activity is a gateway. -/
  | refreshAllOutgoing
  /-- Take the boundary event. -/
  | takeBoundaryEvent
  /-- Stop every other branch. -/
  | stopAllExceptThis

/-- The step after an action, or the refusal, after which the step is as before. -/
def perform (st : Step) : Action → Except Error Step
  | .edit e => st.edit e
  | .takeOutgoingById id => st.takeOutgoingById id
  | .takeOutgoingByName name => st.takeOutgoingByName name
  | .refreshAllOutgoing => st.refreshAllOutgoing
  | .takeBoundaryEvent => st.takeBoundaryEvent
  | .stopAllExceptThis => .ok st.stopAllExceptThis

end Step

end Workflow
