import Workflow.Lifecycle
import Workflow.Text.Quoted

/-!
# Errors

Everything that compiling a process, calling an engine or a handler's operation can refuse, by
cause. `Error.message` is the one place where a cause is put into words.
-/

namespace Workflow

/-- The three families of activities. -/
inductive Category where
  | task
  | gateway
  | event
  deriving DecidableEq, Repr

/-- The name of a family, as records and messages spell it. -/
def Category.name : Category → String
  | task => "Task"
  | gateway => "Gateway"
  | event => "Event"

/-- The side of an activity on which edges are listed. -/
inductive Direction where
  | incoming
  | outgoing
  deriving DecidableEq, Repr

/-- The name of a side. -/
def Direction.name : Direction → String
  | incoming => "incoming"
  | outgoing => "outgoing"

/-- An operation on the outgoing tokens of a gateway, as named in a refusal. -/
inductive Operation where
  | takeOutgoingById
  | takeOutgoingByName
  | refreshAllOutgoing
  deriving DecidableEq, Repr

/-- The name of an operation. -/
def Operation.name : Operation → String
  | takeOutgoingById => "take_outgoing_by_id"
  | takeOutgoingByName => "take_outgoing_by_name"
  | refreshAllOutgoing => "refresh_all_outgoing"

/-- Why something was refused or went wrong. -/
inductive Error where
  /-- The document has no start event. -/
  | missingStartEvent
  /-- The document gives its start event as a list. -/
  | startEventIsList
  /-- The document has no end event. -/
  | missingEndEvent
  /-- Two records of the document have this id. -/
  | duplicateActivity (id : String)
  /-- A record lists its edges on a side as an empty list. -/
  | emptyFlowList (activity : String) (direction : Direction)
  /-- No live activity has this id. -/
  | headActivityNotFoundById (id : String)
  /-- No live activity has this name. -/
  | headActivityNotFoundByName (name : String)
  /-- No live activity has the name that a run was asked for. -/
  | runTargetNotFound (name : String)
  /-- A selection names an activity that the process does not have. -/
  | outgoingTargetNotFound (operation : Operation) (target : String)
  /-- The engine has no process or no handlers yet. -/
  | notInitialized
  /-- The engine is in a state in which it runs nothing. -/
  | invalidState (state : RunState)
  /-- The engine has finished. -/
  | alreadyFinished
  /-- The activity to run is not entered. -/
  | notEntered (id : String) (name : Option String) (status : Option Status)
  /-- A parallel gateway takes every outgoing edge and has none to select. -/
  | selectiveOutgoingUnsupported (operation : Operation) (target : String)
  /-- A gateway operation was asked of another activity. -/
  | notAGateway (operation : Operation) (id : String)
  /-- The default policy does not decide for a complex gateway. -/
  | complexForward (id : String)
  /-- A flow leads into a complex gateway. -/
  | complexTraversal (id : String)
  /-- The task has no boundary event to take. -/
  | missingBoundaryEvent (id : String) (name : Option String)
  /-- A boundary event was taken on an activity that is no task. -/
  | notATask (id : String)
  /-- A handler failed with an error of its own. -/
  | handler (activity : String) (source : String)
  /-- A record was saved as another family than the process gives its activity. -/
  | snapshotCategory (id : String) (recorded compiled : Category)
  /-- A record's tokens do not match the edges that the process gives its gateway. -/
  | snapshotTokens (id : String)
  /-- The worker that owned the engine no longer answers. -/
  | workerClosed (reason : String)
  deriving DecidableEq, Repr

/-- The words for an error. -/
def Error.message : Error → String
  | missingStartEvent => "Process should have exactly one start event"
  | startEventIsList => "process.startEvent should not be a list"
  | missingEndEvent => "Process should have at least one end event"
  | duplicateActivity id => "Duplicate activity id: " ++ id
  | emptyFlowList activity direction =>
    "Activity " ++ activity ++ " declares an empty " ++ direction.name ++ " edge list"
  | headActivityNotFoundById id => "Head activity with id " ++ id ++ " not found"
  | headActivityNotFoundByName name => "Head activity with name " ++ name ++ " not found"
  | runTargetNotFound name => "run([Activity " ++ name ++ "]) not found"
  | outgoingTargetNotFound operation target =>
    operation.name ++ "([Activity: " ++ target ++ "]) outgoing activity not found"
  | notInitialized => "Please initialize the engine with build() and bind() methods"
  | invalidState state =>
    "Current state is " ++ state.name ++ ", workflow only executes activities in the started state"
  | alreadyFinished => "This workflow is already finished"
  | notEntered id name status =>
    "execute() activity with name " ++ Text.quotedOption name ++ " and id " ++ id ++ " in " ++
      (match status with
        | none => "None"
        | some s => "Some(" ++ s.name ++ ")") ++
      " status can't be executed; change its status through the engine's " ++
      "head_activity_by_* accessors"
  | selectiveOutgoingUnsupported operation target =>
    operation.name ++ "([Activity: " ++ target ++
      "]) only works on inclusive, exclusive and complex gateways"
  | notAGateway operation id =>
    operation.name ++ "() called on " ++ id ++ ", which is not a gateway"
  | complexForward id => "forward([Activity: " ++ id ++ "]) complex gateways are not fast forwarded"
  | complexTraversal id =>
    "Complex gateway " ++ id ++ " cannot be reached through the shared traversal path"
  | missingBoundaryEvent id name =>
    id ++ " task with name " ++ Text.quotedOption name ++ " does not have a boundary event"
  | notATask id => "take_boundary_event() called on " ++ id ++ ", which is not a task"
  | handler activity source => "Handler for activity " ++ activity ++ " failed: " ++ source
  | snapshotCategory id recorded compiled =>
    "Snapshot record " ++ id ++ " is inconsistent with the compiled process: recorded as " ++
      recorded.name ++ ", compiled as " ++ compiled.name
  | snapshotTokens id =>
    "Snapshot record " ++ id ++ " is inconsistent with the compiled process: " ++
      "token set does not match the gateway's edges"
  | workerClosed reason => "Engine worker is gone: " ++ reason

end Workflow
