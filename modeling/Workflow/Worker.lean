import Workflow.Engine.Run

/-!
# Workers

A worker owns an engine and serves requests one at a time, so that callers who share an engine never
meet inside a handler.  When the last of them is gone, the worker gives its engine back.  A worker
that was ended before its time answers no request and gives nothing back.
-/

namespace Workflow

/-- A request to a worker. -/
inductive Request (σ : Type) where
  /-- Run an activity by name. -/
  | run (name : String) (payload : Json)
  /-- Run an activity by id with a handler. -/
  | execute (id : String) (handler : Handler σ) (payload : Json)
  /-- Go forward. -/
  | advance (payload : Json)
  /-- Save the engine. -/
  | snapshot
  /-- Ask for the engine's state. -/
  | state

/-- What a worker answers. -/
inductive Answer where
  /-- The answer of a call. -/
  | reply (r : Reply)
  /-- The saved engine. -/
  | snapshot (s : Snapshot)
  /-- The engine's state. -/
  | state (s : RunState)

/-- A worker, with its engine until it is ended. -/
inductive Worker (σ : Type) where
  | serving (engine : Engine σ)
  | ended

/-- What serving a request leaves. -/
structure Served (σ : Type) where
  /-- The worker. -/
  worker : Worker σ
  /-- What handlers remember. -/
  memory : σ
  /-- The answer. -/
  answer : Answer
  /-- The calls of handlers, in order. -/
  invocations : List (Invocation σ)

namespace Engine

variable {σ : Type}

/-- Serves a request. -/
def serve (e : Engine σ) (request : Request σ) (memory : σ) (o : Occasion) : Served σ :=
  let ofTurn (t : Turn σ) : Served σ :=
    ⟨.serving t.engine, t.memory, .reply t.reply, t.invocations⟩
  match request with
  | .run name payload => ofTurn (e.run name payload memory o)
  | .execute id handler payload => ofTurn (e.execute id handler payload memory o)
  | .advance payload => ofTurn (e.advance payload memory o)
  | .snapshot => ⟨.serving e, memory, .snapshot e.save, []⟩
  | .state => ⟨.serving e, memory, .state e.state, []⟩

end Engine

namespace Worker

variable {σ : Type}

/-- What is left to say of a worker that was ended. -/
def closed : Error := .workerClosed "Engine channel closed: channel closed"

/-- Serves a request, unless the worker was ended. -/
def serve (w : Worker σ) (request : Request σ) (memory : σ) (o : Occasion) : Served σ :=
  match w with
  | serving e => e.serve request memory o
  | ended => ⟨.ended, memory, .reply (.error closed), []⟩

/-- The engine that the worker gives back when nobody can reach it any more. -/
def engine? (w : Worker σ) : Option (Engine σ) :=
  match w with
  | serving e => some e
  | ended => none

end Worker

end Workflow
