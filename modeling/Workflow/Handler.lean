import Workflow.Json
import Workflow.Step

/-!
# Handlers

A handler gives an activity its behaviour.  It is called with a step and a payload and does finitely
many actions, each chosen in view of what the ones before have led to; then it returns a payload or
fails.  A program is such a course of actions as a tree, so that a statement about all handlers is
one about all trees.

Handlers may remember things between calls.  What they remember is a value of a type `σ`, which a
call of an engine hands from handler to handler.
-/

namespace Workflow

/-- A course of actions that ends in a value. -/
inductive Program (α : Type) where
  /-- Ends. -/
  | done (a : α)
  /-- Does an action and goes on in view of the refusal, if there is one, and of the step. -/
  | act (action : Step.Action) (next : Option Error → Step → Program α)

namespace Program

variable {α β : Type}

/-- One course of actions after another. -/
def bind : Program α → (α → Program β) → Program β
  | done a, f => f a
  | act action next, f => act action fun refusal st => (next refusal st).bind f

instance : Monad Program where
  pure := done
  bind := bind

/-- Does one action. -/
def perform (action : Step.Action) : Program (Option Error × Step) :=
  act action fun refusal st => done (refusal, st)

/-- The value that a course of actions ends in and the step it leaves. -/
def run : Program α → Step → α × Step
  | done a, st => (a, st)
  | act action next, st =>
    match st.perform action with
    | .ok st => (next none st).run st
    | .error e => (next (some e) st).run st

/-- Whether every action that the program may come to is allowed. -/
def Within (allowed : Step.Action → Prop) : Program α → Prop
  | done _ => True
  | act action next => allowed action ∧ ∀ refusal st, (next refusal st).Within allowed

end Program

/-- Why a handler failed. -/
inductive Failure where
  /-- With an error of the engine's own, which callers see unchanged. -/
  | error (e : Error)
  /-- With a reason of its own. -/
  | reason (text : String)
  deriving DecidableEq, Repr

/-- The error that a caller sees when the handler of an activity fails. -/
def Failure.surface (activity : String) : Failure → Error
  | error e => e
  | reason text => .handler activity text

/-- The words for a failure. -/
def Failure.message : Failure → String
  | error e => e.message
  | reason text => text

/-- The behaviour of an activity: from the step, the payload and what is remembered, a course of
actions that ends with what is remembered next and a payload or a failure. -/
abbrev Handler (σ : Type) := Step → Json → σ → Program (σ × Except Failure Json)

/-- The actions of the default policy, which finishes a task or an event and finishes or pauses a
gateway as its tokens say; refused for a complex gateway. -/
def defaultPolicy (st : Step) : Program (Except Failure Unit) :=
  let completes := match st.activity.kind with
    | .gateway g => g.defaultCompletes st.activity.id
    | _ => .ok true
  match completes with
  | .error e => .done (.error (.error e))
  | .ok true => .act (.edit (.setStatus .finished)) fun _ _ => .done (.ok ())
  | .ok false => .act (.edit (.setStatus .paused)) fun _ _ => .done (.ok ())

/-- The handler of activities that have none of their own. -/
def Handler.default {σ : Type} : Handler σ := fun st payload memory => do
  match ← defaultPolicy st with
  | .ok () => return (memory, .ok payload)
  | .error e => return (memory, .error e)

end Workflow
