import Workflow.Graph

/-!
# Routing

When an activity completes, the flow goes on along a list of edges.  Their targets are visited in
the order of the edges.  A target that is already live is updated where it stands; any other is made
anew from its definition.  A task or an event is entered by every arrival, and so is a task's
boundary event.  A gateway takes the token of an edge of the route that it has not taken yet, and is
entered when its join holds and paused otherwise.

A complex gateway cannot be reached this way.  The refusal ends the visit; what has been done to
live activities by then stays done.
-/

namespace Workflow

namespace Gateway

/-- The gateway after an arrival along one of the edges of a route. -/
def arrive (g : Gateway) (route : List String) : Gateway :=
  g.takeIncoming fun t => !t.taken && route.contains t.edge

end Gateway

namespace Activity

/-- The activity after an arrival along one of the edges of a route, and the refusal of a complex
gateway, whose token is taken but whose status stays. -/
def arrive (a : Activity) (route : List String) (now : Instant) : Activity × Option Error :=
  match a.kind with
  | .gateway g =>
    let g := g.arrive route
    let a := { a with kind := .gateway g }
    match g.kind with
    | .complex => (a, some (.complexTraversal a.id))
    | _ => (a.set (if g.joinSatisfied then .entered else .paused) now, none)
  | .task _ => ((a.mapBoundary (·.set .entered now)).set .entered now, none)
  | .event _ => (a.set .entered now, none)

@[simp]
theorem id_arrive (a : Activity) (route : List String) (now : Instant) :
    (a.arrive route now).1.id = a.id := by
  unfold arrive
  cases a.kind with
  | gateway g => dsimp only; split <;> rfl
  | task t => exact id_mapBoundary _ a
  | event e => rfl

end Activity

/-- The live activities and the ones made anew while a route is followed. -/
structure Arrivals where
  /-- The activities that were live before. -/
  head : List Activity
  /-- The activities made anew, in the order of their first arrival. -/
  fresh : List Activity
  deriving DecidableEq

namespace Graph

/-- The arrivals after a visit to one target. -/
def visit (g : Graph) (route : List String) (now : Instant) (r : Arrivals) (target : String) :
    Arrivals × Option Error :=
  match r.head.find? (·.id == target) with
  | some a =>
    let (a, e) := a.arrive route now
    ({ r with head := updateFirst (·.id == target) (fun _ => a) r.head }, e)
  | none =>
    match r.fresh.find? (·.id == target) with
    | some a =>
      let (a, e) := a.arrive route now
      ({ r with fresh := updateFirst (·.id == target) (fun _ => a) r.fresh }, e)
    | none =>
      match g.activity? target with
      | some definition =>
        let (a, e) := (definition.instantiate now).arrive route now
        ({ r with fresh := r.fresh ++ [a] }, e)
      | none => (r, none)

/-- The arrivals after visits to targets in turn, up to the first refusal. -/
def visitAll (g : Graph) (route : List String) (now : Instant) :
    List String → Arrivals → Arrivals × Option Error
  | [], r => (r, none)
  | target :: targets, r =>
    match g.visit route now r target with
    | (r, some e) => (r, some e)
    | (r, none) => g.visitAll route now targets r

/-- What following a route leaves: the live activities, and the new ones or the refusal. -/
structure Advance where
  /-- The activities that were live before, as the route leaves them. -/
  head : List Activity
  /-- The activities made anew, unless a target refused the arrival. -/
  fresh : Except Error (List Activity)

/-- Follows a route from live activities. -/
def advance (g : Graph) (route : List String) (head : List Activity) (now : Instant) : Advance :=
  match g.visitAll route now (g.targetIds route) ⟨head, []⟩ with
  | (r, none) => ⟨r.head, .ok r.fresh⟩
  | (r, some e) => ⟨r.head, .error e⟩

end Graph

end Workflow
