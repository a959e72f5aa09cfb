import Workflow.Engine

/-!
# Running one activity

To run an entered activity, a copy of it is started and given to a handler.  When the handler
returns, the copy takes the place of the live activity, also when the handler failed.  A failure
ends the dispatch there.  Otherwise the status that the handler left decides: a canceled activity is
logged and its branch ends; a finished one is logged and the flow goes on along its edges, except
that a gateway whose join does not hold is paused instead; any other activity stays as it is.  When
no branch is left, the engine has finished.
-/

namespace Workflow

/-- Why a handler was the one to run. -/
inductive Origin where
  /-- The caller brought it. -/
  | given
  /-- It is registered on this tier for the activity's name. -/
  | tier (t : Tier)
  /-- It is the default policy. -/
  | default
  deriving DecidableEq, Repr

namespace Choice

variable {σ : Type}

/-- Why a chosen handler is the one to run. -/
def origin : Choice (Handler σ) → Origin
  | registered tier _ => .tier tier
  | default => .default

/-- The handler of a choice. -/
def handler : Choice (Handler σ) → Handler σ
  | registered _ h => h
  | default => Handler.default

end Choice

/-- A call of a handler. -/
structure Invocation (σ : Type) where
  /-- The live activity as it was before the call. -/
  activity : Activity
  /-- Why the handler was the one to run. -/
  origin : Origin
  /-- The handler. -/
  handler : Handler σ
  /-- The payload it was given. -/
  payload : Json

namespace Activity

/-- The edges along which the flow goes on when the activity is finished, and the activity after
that; absent while the join of a gateway waits. -/
def routes? (a : Activity) : Option (List String × Activity) :=
  match a.kind with
  | .gateway g => g.routes?.map fun (route, g) => (route, { a with kind := .gateway g })
  | _ => some (Document.records a.outgoing, a)

end Activity

/-- What running one activity leaves. -/
structure Dispatched (σ : Type) where
  /-- The engine. -/
  engine : Engine σ
  /-- What handlers remember. -/
  memory : σ
  /-- The payload, or why the dispatch ended early. -/
  reply : Except Error Json
  /-- The call of the handler, absent when it was refused. -/
  invocations : List (Invocation σ)

namespace Engine

variable {σ : Type}

/-- The process and the live activity to run; refused unless the activity is entered. -/
def toRun (e : Engine σ) (id : String) : Except Error (Graph × Activity) :=
  match e.graph with
  | none => .error .notInitialized
  | some graph =>
    match e.history.headById? id with
    | none => .error (.headActivityNotFoundById id)
    | some a =>
      if a.isEntered then .ok (graph, a) else .error (.notEntered a.id a.name a.status)

/-- The engine, finished if no branch is left. -/
def finishIfDone (e : Engine σ) (now : Instant) : Engine σ :=
  if e.history.head.isEmpty then e.set .finished now else e

/-- The engine after a live activity has finished, and the refusal of a target. -/
def complete (e : Engine σ) (graph : Graph) (a : Activity) (now : Instant) :
    Engine σ × Option Error :=
  match a.routes? with
  | none => ({ e with history := e.history.writeBack (a.set .paused now) }, none)
  | some (route, a) =>
    let history := e.history.retire a
    let onward := graph.advance route history.head now
    let history := { history with head := onward.head }
    match onward.fresh with
    | .ok fresh => ({ e with history := history.merge fresh }, none)
    | .error err => ({ e with history }, some err)

/-- The engine after a handler has left an activity behind without failing, and the refusal of a
target. -/
def conclude (e : Engine σ) (graph : Graph) (a : Activity) (now : Instant) :
    Engine σ × Option Error :=
  match a.status with
  | some .canceled => ({ e with history := e.history.retire a }.finishIfDone now, none)
  | some .finished =>
    match e.complete graph a now with
    | (e, none) => (e.finishIfDone now, none)
    | (e, some err) => (e, some err)
  | _ => (e.finishIfDone now, none)

/-- Runs a live activity with a handler. -/
def dispatch (e : Engine σ) (id : String) (origin : Origin) (handler : Handler σ)
    (payload : Json) (memory : σ) (now : Instant) : Dispatched σ :=
  match e.toRun id with
  | .error err => ⟨e, memory, .error err, []⟩
  | .ok (graph, found) =>
    let step : Step :=
      { activity := found.set .started now, graph, history := e.history, now }
    let ((memory, outcome), step) := (handler step payload memory).run step
    let e := { e with history := step.history.writeBack step.activity }
    let invocations := [⟨found, origin, handler, payload⟩]
    match outcome with
    | .error failure => ⟨e, memory, .error (failure.surface step.activity.id), invocations⟩
    | .ok payload =>
      match e.conclude graph step.activity now with
      | (e, none) => ⟨e, memory, .ok payload, invocations⟩
      | (e, some err) => ⟨e, memory, .error err, invocations⟩

end Engine

end Workflow
