import Workflow.Instant

/-!
# Lifecycles

A live activity has a status and remembers when it last reached each status.  Setting a status is
never refused here: which changes are legal is decided where an engine runs an activity.  An engine
has a course of the same shape, with states of its own.
-/

namespace Workflow

/-- Where a live activity stands. -/
inductive Status where
  | entered
  | started
  | paused
  | stopped
  | finished
  | canceled
  deriving DecidableEq, Repr

namespace Status

/-- Every status, in the order in which records list them. -/
def all : List Status := [entered, started, paused, stopped, finished, canceled]

/-- The name of a status, as records and messages spell it. -/
def name : Status → String
  | entered => "Entered"
  | started => "Started"
  | paused => "Paused"
  | stopped => "Stopped"
  | finished => "Finished"
  | canceled => "Canceled"

end Status

/-- A status and the instant at which each status was last reached.  A definition that is not live
has neither. -/
structure Lifecycle where
  /-- The status, absent for a definition. -/
  status : Option Status := none
  /-- When the activity was last entered. -/
  enteredAt : Option Instant := none
  /-- When the activity was last started. -/
  startedAt : Option Instant := none
  /-- When the activity was last paused. -/
  pausedAt : Option Instant := none
  /-- When the activity was last stopped. -/
  stoppedAt : Option Instant := none
  /-- When the activity was last finished. -/
  finishedAt : Option Instant := none
  /-- When the activity was last canceled. -/
  canceledAt : Option Instant := none
  deriving DecidableEq

namespace Lifecycle

/-- The instant at which a status was last reached. -/
def reachedAt (l : Lifecycle) : Status → Option Instant
  | .entered => l.enteredAt
  | .started => l.startedAt
  | .paused => l.pausedAt
  | .stopped => l.stoppedAt
  | .finished => l.finishedAt
  | .canceled => l.canceledAt

/-- The lifecycle after reaching a status at an instant. -/
def set (l : Lifecycle) (s : Status) (now : Instant) : Lifecycle :=
  match s with
  | .entered => { l with status := some s, enteredAt := some now }
  | .started => { l with status := some s, startedAt := some now }
  | .paused => { l with status := some s, pausedAt := some now }
  | .stopped => { l with status := some s, stoppedAt := some now }
  | .finished => { l with status := some s, finishedAt := some now }
  | .canceled => { l with status := some s, canceledAt := some now }

@[simp]
theorem status_set (l : Lifecycle) (s : Status) (now : Instant) :
    (l.set s now).status = some s := by
  cases s <;> rfl

/-- Reaching a status stamps it and leaves the other stamps alone. -/
theorem reachedAt_set (l : Lifecycle) (s s' : Status) (now : Instant) :
    (l.set s now).reachedAt s' = if s' = s then some now else l.reachedAt s' := by
  cases s <;> cases s' <;> rfl

end Lifecycle

/-- Where an engine stands. -/
inductive RunState where
  | init
  | started
  | paused
  | stopped
  | finished
  | canceled
  deriving DecidableEq, Repr

namespace RunState

/-- Every state of an engine. -/
def all : List RunState := [init, started, paused, stopped, finished, canceled]

/-- The name of a state, as records and messages spell it. -/
def name : RunState → String
  | init => "Init"
  | started => "Started"
  | paused => "Paused"
  | stopped => "Stopped"
  | finished => "Finished"
  | canceled => "Canceled"

end RunState

/-- The state of an engine and the instant at which each state was last reached. -/
structure Course where
  /-- The state the engine is in. -/
  state : RunState
  /-- When the engine was made. -/
  initAt : Option Instant := none
  /-- When the engine was last started. -/
  startAt : Option Instant := none
  /-- When the engine was last paused. -/
  pauseAt : Option Instant := none
  /-- When the engine was last stopped. -/
  stopAt : Option Instant := none
  /-- When the engine finished. -/
  finishAt : Option Instant := none
  /-- When the engine was last canceled. -/
  cancelAt : Option Instant := none
  deriving DecidableEq

namespace Course

/-- The instant at which a state was last reached. -/
def reachedAt (c : Course) : RunState → Option Instant
  | .init => c.initAt
  | .started => c.startAt
  | .paused => c.pauseAt
  | .stopped => c.stopAt
  | .finished => c.finishAt
  | .canceled => c.cancelAt

/-- The course after reaching a state at an instant. -/
def set (c : Course) (s : RunState) (now : Instant) : Course :=
  match s with
  | .init => { c with state := s, initAt := some now }
  | .started => { c with state := s, startAt := some now }
  | .paused => { c with state := s, pauseAt := some now }
  | .stopped => { c with state := s, stopAt := some now }
  | .finished => { c with state := s, finishAt := some now }
  | .canceled => { c with state := s, cancelAt := some now }

@[simp]
theorem state_set (c : Course) (s : RunState) (now : Instant) : (c.set s now).state = s := by
  cases s <;> rfl

/-- Reaching a state stamps it and leaves the other stamps alone. -/
theorem reachedAt_set (c : Course) (s s' : RunState) (now : Instant) :
    (c.set s now).reachedAt s' = if s' = s then some now else c.reachedAt s' := by
  cases s <;> cases s' <;> rfl

end Course

end Workflow
