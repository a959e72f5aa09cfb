import Workflow.Graph.Compile
import Workflow.Graph.Routing
import Workflow.Handler
import Workflow.HandlerTable
import Workflow.History.Restore

/-!
# Engines

An engine runs one process.  It is ready when a process has been built and handlers have been bound,
and it starts by itself as soon as both are there.  Its state may be set from outside: a paused,
stopped or canceled engine keeps its branches and runs nothing.

This module holds the engine and everything that runs no handler.  Running is in
`Workflow.Engine.Dispatch`, for a single activity, and in `Workflow.Engine.Run`, for whole calls.
-/

namespace Workflow

/-- An engine whose handlers remember values of `σ`. -/
structure Engine (σ : Type) where
  /-- The state and when each state was last reached. -/
  course : Course
  /-- The process, once built. -/
  graph : Option Graph
  /-- The live and completed activities. -/
  history : History
  /-- The handlers, once bound. -/
  handlers : Option (HandlerTable (Handler σ))

namespace Engine

variable {σ : Type}

/-- An engine without process and handlers. -/
def new (now : Instant) : Engine σ :=
  { course := ({ state := .init } : Course).set .init now, graph := none, history := {},
    handlers := none }

/-- The state. -/
def state (e : Engine σ) : RunState := e.course.state

/-- Whether the engine is in a state. -/
def isIn (e : Engine σ) (s : RunState) : Bool := e.state == s

/-- The engine after reaching a state. -/
def set (e : Engine σ) (s : RunState) (now : Instant) : Engine σ :=
  { e with course := e.course.set s now }

/-- Whether a process has been built and handlers have been bound. -/
def isReady (e : Engine σ) : Bool := e.graph.isSome && e.handlers.isSome

/-- The engine, started if it is ready and was not started before. -/
def startIfReady (e : Engine σ) (now : Instant) : Engine σ :=
  if e.isReady && e.isIn .init then e.set .started now else e

/-- The engine with a process built: its start event is entered and nothing is completed. -/
def build (e : Engine σ) (p : Document) (now : Instant) : Except Error (Engine σ) :=
  match p.compile with
  | .error err => .error err
  | .ok graph =>
    let history : History := { head := [graph.start.instantiate now] }
    .ok ({ e with graph := some graph, history }.startIfReady now)

/-- The engine with handlers bound. -/
def bind (e : Engine σ) (handlers : HandlerTable (Handler σ)) (now : Instant) : Engine σ :=
  { e with handlers := some handlers }.startIfReady now

/-- A new engine with a process built and handlers bound. -/
def withProcess (p : Document) (handlers : HandlerTable (Handler σ)) (now : Instant) :
    Except Error (Engine σ) :=
  match (new now : Engine σ).build p now with
  | .error err => .error err
  | .ok e => .ok (e.bind handlers now)

/-- The engine, started or started again; refused until it is ready. -/
def start (e : Engine σ) (now : Instant) : Except Error (Engine σ) :=
  if e.isReady then .ok (e.set .started now) else .error .notInitialized

/-- The engine, paused. -/
def pause (e : Engine σ) (now : Instant) : Engine σ := e.set .paused now

/-- The engine, stopped. -/
def stop (e : Engine σ) (now : Instant) : Engine σ := e.set .stopped now

/-- The engine, canceled. -/
def cancel (e : Engine σ) (now : Instant) : Engine σ := e.set .canceled now

/-- The first live activity with this id. -/
def headById (e : Engine σ) (id : String) : Except Error Activity :=
  match e.history.headById? id with
  | some a => .ok a
  | none => .error (.headActivityNotFoundById id)

/-- The first live activity with this name. -/
def headByName (e : Engine σ) (name : String) : Except Error Activity :=
  match e.history.headByName? name with
  | some a => .ok a
  | none => .error (.headActivityNotFoundByName name)

/-- The engine with the first live activity of an id edited. -/
def editById (e : Engine σ) (id : String) (edit : Edit) (now : Instant) :
    Except Error (Engine σ) :=
  match e.headById id with
  | .error err => .error err
  | .ok a =>
    match a.edit now edit with
    | .error err => .error err
    | .ok a => .ok { e with history := e.history.updateById id fun _ => a }

/-- The engine with the first live activity of a name edited. -/
def editByName (e : Engine σ) (name : String) (edit : Edit) (now : Instant) :
    Except Error (Engine σ) :=
  match e.headByName name with
  | .error err => .error err
  | .ok a =>
    match a.edit now edit with
    | .error err => .error err
    | .ok a => .ok { e with history := e.history.updateByName name fun _ => a }

/-- What the engine saves. -/
def save (e : Engine σ) : Snapshot := ⟨e.course, e.history.head, e.history.stack⟩

/-- The engine with a saved course and history; refused until a process has been built. -/
def restore (e : Engine σ) (s : Snapshot) : Except Error (Engine σ) :=
  match e.graph with
  | none => .error .notInitialized
  | some graph =>
    match History.restore graph s.head s.stack with
    | .error err => .error err
    | .ok history => .ok { e with course := s.course, history }

end Engine

end Workflow
