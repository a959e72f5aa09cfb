import Workflow.Engine.Dispatch
import Workflow.Proofs.FirstMatch

/-!
# Activities at other times

Nothing that is done to an activity depends on the instants that it keeps of its past.  So it comes
to the same whether the instants are changed before or after: the activity retimed by a function on
instants, and edited, followed or arrived at when the function says, is the result retimed.  The
same holds of a visit to a target and of a whole route (`Graph.advance_retime`).

The function may forget every difference between instants, and then this says that times do not
matter; the identity changes nothing (`Activity.retime_id`).
-/

namespace Workflow

namespace Lifecycle

/-- The lifecycle with its stamps changed. -/
def retime (f : Instant → Instant) (l : Lifecycle) : Lifecycle where
  status := l.status
  enteredAt := l.enteredAt.map f
  startedAt := l.startedAt.map f
  pausedAt := l.pausedAt.map f
  stoppedAt := l.stoppedAt.map f
  finishedAt := l.finishedAt.map f
  canceledAt := l.canceledAt.map f

@[simp]
theorem retime_id (l : Lifecycle) : (l.retime fun t => t) = l := by
  simp [retime]

@[simp]
theorem retime_set (f : Instant → Instant) (l : Lifecycle) (s : Status) (now : Instant) :
    (l.set s now).retime f = (l.retime f).set s (f now) := by
  cases s <;> rfl

end Lifecycle

namespace BoundaryEvent

/-- The boundary event with its stamps changed. -/
def retime (f : Instant → Instant) (b : BoundaryEvent) : BoundaryEvent :=
  { b with lifecycle := b.lifecycle.retime f }

@[simp]
theorem retime_id (b : BoundaryEvent) : (b.retime fun t => t) = b := by
  simp [retime]

@[simp]
theorem retime_set (f : Instant → Instant) (b : BoundaryEvent) (s : Status) (now : Instant) :
    (b.set s now).retime f = (b.retime f).set s (f now) := by
  simp [retime, set]

end BoundaryEvent

/-- The family part with the stamps of a boundary event changed. -/
def Kind.retime (f : Instant → Instant) : Kind → Kind
  | task t => task { t with boundary := t.boundary.map (·.retime f) }
  | gateway w => gateway w
  | event e => event e

namespace Activity

/-- The activity with its stamps changed, and those of its boundary event. -/
def retime (f : Instant → Instant) (a : Activity) : Activity :=
  { a with lifecycle := a.lifecycle.retime f, kind := a.kind.retime f }

variable (f : Instant → Instant) (a : Activity) (now : Instant)

@[simp]
theorem retime_id : (a.retime fun t => t) = a := by
  have hkind : (a.kind.retime fun t => t) = a.kind := by
    cases hk : a.kind with
    | task t =>
      have hboundary : (t.boundary.map fun b => b.retime fun t => t) = t.boundary := by
        cases t.boundary <;> simp
      exact congrArg (fun b => Kind.task { t with boundary := b }) hboundary
    | gateway w => rfl
    | event e => rfl
  unfold retime
  rw [hkind, Lifecycle.retime_id]

@[simp] theorem id_retime : (a.retime f).id = a.id := rfl

@[simp] theorem name_retime : (a.retime f).name = a.name := rfl

@[simp] theorem incoming_retime : (a.retime f).incoming = a.incoming := rfl

@[simp] theorem outgoing_retime : (a.retime f).outgoing = a.outgoing := rfl

@[simp] theorem kind_retime : (a.retime f).kind = a.kind.retime f := rfl

@[simp] theorem status_retime : (a.retime f).status = a.status := rfl

@[simp] theorem isEntered_retime : (a.retime f).isEntered = a.isEntered := rfl

@[simp]
theorem retime_set (s : Status) : (a.set s now).retime f = (a.retime f).set s (f now) := by
  simp [retime, set]

@[simp]
theorem retime_mapGateway (k : Gateway → Gateway) :
    (a.mapGateway k).retime f = (a.retime f).mapGateway k := by
  cases hk : a.kind <;> simp [retime, mapGateway, Kind.retime, hk]

@[simp]
theorem retime_setBoundary (s : Status) :
    (a.mapBoundary (·.set s now)).retime f = (a.retime f).mapBoundary (·.set s (f now)) := by
  cases hk : a.kind <;> simp [retime, mapBoundary, Kind.retime, hk, Function.comp_def]

/-- A new activity has no stamp of earlier times, so it does not matter which ones its definition
has. -/
@[simp]
theorem retime_instantiate : (a.instantiate now).retime f = a.instantiate (f now) := by
  cases hk : a.kind <;>
    simp [retime, instantiate, mapBoundary, Kind.retime, hk, Function.comp_def,
      BoundaryEvent.retime, Lifecycle.retime, Lifecycle.set]

/-- Activities that are the same up to a change of instants have the same id and name and are in the
same status. -/
theorem eq_of_retime {f : Instant → Instant} {a b : Activity} (h : a.retime f = b.retime f) :
    a.id = b.id ∧ a.name = b.name ∧ a.status = b.status ∧ a.isEntered = b.isEntered := by
  rw [← a.id_retime f, ← a.name_retime f, ← a.status_retime f, ← a.isEntered_retime f, h]
  exact ⟨rfl, rfl, rfl, rfl⟩

/-- An edit of the retimed activity. -/
theorem edit_retime (e : Edit) :
    (a.retime f).edit (f now) e = (a.edit now e).map (·.retime f) := by
  cases e with
  | setStatus s => simp [edit, Except.map]
  | setBoundary s => simp [edit, Except.map]
  | takeIncoming accepts => simp [edit, Except.map]
  | split => simp [edit, Except.map]
  | routes => simp [edit, Except.map]
  | refreshOutgoing => simp [edit, Except.map]
  | chooseOutgoing operation key target =>
    unfold edit
    cases hk : a.kind with
    | gateway w =>
      simp only [kind_retime, hk, Kind.retime]
      cases w.takeOutgoing operation key target with
      | ok w' => rfl
      | error err => rfl
    | task t => simp [hk, Kind.retime, Except.map]
    | event v => simp [hk, Kind.retime, Except.map]

/-- The route of the retimed activity is the same. -/
theorem routes_retime :
    (a.retime f).routes? = a.routes?.map fun r => (r.1, r.2.retime f) := by
  unfold routes?
  cases hk : a.kind with
  | gateway w =>
    simp only [kind_retime, hk, Kind.retime]
    cases w.routes? with
    | none => rfl
    | some r => rfl
  | task t => simp [hk, Kind.retime]
  | event v => simp [hk, Kind.retime]

/-- An arrival at the retimed activity. -/
theorem arrive_retime (route : List String) :
    (a.retime f).arrive route (f now) =
      ((a.arrive route now).1.retime f, (a.arrive route now).2) := by
  unfold arrive
  cases hk : a.kind with
  | gateway w =>
    simp only [kind_retime, hk, Kind.retime]
    split
    · rfl
    · simp only [retime_set]
      rfl
  | task t => simp [hk, Kind.retime]
  | event v => simp [hk, Kind.retime]

end Activity

section Lists

variable (f : Instant → Instant) (as : List Activity)

/-- A search that does not see the times finds the same among retimed activities. -/
theorem find?_retime (p : Activity → Bool) (blind : ∀ a : Activity, p (a.retime f) = p a) :
    (as.map (·.retime f)).find? p = (as.find? p).map (·.retime f) := by
  have hsame : (p ∘ fun a : Activity => a.retime f) = p := funext blind
  rw [List.find?_map, hsame]

/-- Writing over the first match among retimed activities. -/
theorem updateFirst_retime (p : Activity → Bool) (blind : ∀ a : Activity, p (a.retime f) = p a)
    (b : Activity) : updateFirst p (fun _ => b.retime f) (as.map (·.retime f)) =
      (updateFirst p (fun _ => b) as).map (·.retime f) :=
  updateFirst_map (·.retime f) (fun _ => b) blind (fun _ => rfl) as

end Lists

/-- The arrivals with all stamps changed. -/
def Arrivals.retime (f : Instant → Instant) (r : Arrivals) : Arrivals :=
  ⟨r.head.map (·.retime f), r.fresh.map (·.retime f)⟩

namespace Graph

variable (g : Graph) (route : List String) (f : Instant → Instant) (now : Instant)

/-- A visit among retimed activities. -/
theorem visit_retime (r : Arrivals) (target : String) :
    g.visit route (f now) (r.retime f) target =
      ((g.visit route now r target).1.retime f, (g.visit route now r target).2) := by
  have hfind := fun as => find?_retime f as (·.id == target) fun _ => rfl
  have hwrite := fun as b => updateFirst_retime f as (·.id == target) (fun _ => rfl) b
  unfold visit Arrivals.retime
  simp only [hfind]
  cases r.head.find? (·.id == target) with
  | some a => simp only [Option.map_some, Activity.arrive_retime, hwrite]
  | none =>
    cases r.fresh.find? (·.id == target) with
    | some a =>
      simp only [Option.map_none, Option.map_some, Activity.arrive_retime, hwrite]
    | none =>
      cases g.activity? target with
      | some d =>
        simp only [Option.map_none, ← Activity.retime_instantiate, Activity.arrive_retime,
          List.map_append, List.map_cons, List.map_nil]
      | none => rfl

/-- Visits in turn among retimed activities. -/
theorem visitAll_retime (targets : List String) (r : Arrivals) :
    g.visitAll route (f now) targets (r.retime f) =
      ((g.visitAll route now targets r).1.retime f, (g.visitAll route now targets r).2) := by
  induction targets generalizing r with
  | nil => rfl
  | cons target targets ih =>
    unfold visitAll
    rw [visit_retime]
    rcases g.visit route now r target with ⟨r', err | err⟩
    · exact ih r'
    · rfl

/-- A route followed from retimed activities. -/
theorem advance_retime (head : List Activity) :
    g.advance route (head.map (·.retime f)) (f now) =
      { head := (g.advance route head now).head.map (·.retime f)
        fresh := (g.advance route head now).fresh.map (List.map (·.retime f)) } := by
  have hvisits := g.visitAll_retime route f now (g.targetIds route) ⟨head, []⟩
  unfold advance
  rw [show (⟨head.map (·.retime f), []⟩ : Arrivals) = Arrivals.retime f ⟨head, []⟩ from rfl,
    hvisits]
  rcases g.visitAll route now (g.targetIds route) ⟨head, []⟩ with ⟨r, err | err⟩
  · rfl
  · rfl

end Graph

end Workflow
