import Workflow.Engine.Dispatch

/-!
# Calls of an engine

A call runs at most one activity that its caller names and then goes forward: again and again it
runs the first live activity that is entered and may run unattended, until there is none, the engine
is no longer started, or a handler or a target refuses.  An activity that its own handler has
entered again is settled and not run a second time in the same call.

A process with a cycle can go forward for ever.  So a call is given a limit on the handlers it may
run while going forward, and says when there was more to do at the limit.
-/

namespace Workflow

/-- The circumstances of a call. -/
structure Occasion where
  /-- The instant of the call, which stamps everything that happens in it. -/
  now : Instant
  /-- How many handlers the call may run while it goes forward. -/
  limit : Nat

/-- What a call answers. -/
inductive Reply where
  /-- The payload, as the handlers left it. -/
  | payload (value : Json)
  /-- Why the call was refused or ended early. -/
  | error (e : Error)
  /-- There was more to do at the limit. -/
  | unfinished

/-- What a call leaves. -/
structure Turn (σ : Type) where
  /-- The engine. -/
  engine : Engine σ
  /-- What handlers remember. -/
  memory : σ
  /-- The answer. -/
  reply : Reply
  /-- The calls of handlers, in order. -/
  invocations : List (Invocation σ)

namespace Engine

variable {σ : Type}

/-- The first live activity that is entered, not settled, and may run unattended, with the handler
that runs it. -/
def nextAutomatic? (e : Engine σ) (settled : List String) :
    Option (String × Choice (Handler σ)) :=
  match e.handlers with
  | none => none
  | some table => e.history.head.findSome? fun a =>
    if a.isEntered && !settled.contains a.id then (table.forForward a.name).map (a.id, ·) else none

/-- The ids that are settled after an activity was run: it too, if it is entered again. -/
def settle (e : Engine σ) (settled : List String) (id : String) : List String :=
  match e.history.headById? id with
  | some a => if a.isEntered then id :: settled else settled
  | none => settled

/-- Goes forward, running at most `limit` handlers. -/
def forward (now : Instant) (limit : Nat) (settled : List String) (e : Engine σ) (payload : Json)
    (memory : σ) : Turn σ :=
  match if e.isIn .started then e.nextAutomatic? settled else none, limit with
  | none, _ => ⟨e, memory, .payload payload, []⟩
  | some _, 0 => ⟨e, memory, .unfinished, []⟩
  | some (id, choice), limit + 1 =>
    let d := e.dispatch id choice.origin choice.handler payload memory now
    match d.reply with
    | .error err => ⟨d.engine, d.memory, .error err, d.invocations⟩
    | .ok payload =>
      let turn := forward now limit (d.engine.settle settled id) d.engine payload d.memory
      { turn with invocations := d.invocations ++ turn.invocations }

/-- Refuses a call. -/
def refuse (e : Engine σ) (memory : σ) (err : Error) : Turn σ := ⟨e, memory, .error err, []⟩

/-- Why an engine that has not finished runs nothing. -/
def checkStarted (e : Engine σ) : Except Error Unit :=
  match e.state with
  | .started => .ok ()
  | .init => .error .notInitialized
  | s => .error (.invalidState s)

/-- Goes forward.  A finished engine answers the payload as it is. -/
def advance (e : Engine σ) (payload : Json) (memory : σ) (o : Occasion) : Turn σ :=
  if e.isIn .finished then ⟨e, memory, .payload payload, []⟩
  else
    match e.checkStarted with
    | .error err => e.refuse memory err
    | .ok () => forward o.now o.limit [] e payload memory

/-- Runs the live activity of an id with a handler and goes forward. -/
def runWith (e : Engine σ) (id : String) (origin : Origin) (handler : Handler σ) (payload : Json)
    (memory : σ) (o : Occasion) : Turn σ :=
  if e.isIn .finished then ⟨e, memory, .payload payload, []⟩
  else
    match e.checkStarted with
    | .error err => e.refuse memory err
    | .ok () =>
      let d := e.dispatch id origin handler payload memory o.now
      match d.reply with
      | .error err => ⟨d.engine, d.memory, .error err, d.invocations⟩
      | .ok payload =>
        let turn := forward o.now o.limit [] d.engine payload d.memory
        { turn with invocations := d.invocations ++ turn.invocations }

/-- Runs the live activity of an id with a handler that the caller brings and goes forward.  A
finished engine answers the payload as it is. -/
def execute (e : Engine σ) (id : String) (handler : Handler σ) (payload : Json) (memory : σ)
    (o : Occasion) : Turn σ :=
  e.runWith id .given handler payload memory o

/-- The handler for a run by name. -/
def choiceFor (e : Engine σ) (name : String) : Choice (Handler σ) :=
  match e.handlers with
  | some table => table.forRun name
  | none => .default

/-- Runs the first live activity of a name with the handler registered for that name and goes
forward. -/
def run (e : Engine σ) (name : String) (payload : Json) (memory : σ) (o : Occasion) : Turn σ :=
  if e.isIn .finished then e.refuse memory .alreadyFinished
  else
    match e.history.headByName? name with
    | none => e.refuse memory (.runTargetNotFound name)
    | some a =>
      let choice := e.choiceFor name
      e.runWith a.id choice.origin choice.handler payload memory o

end Engine

end Workflow
