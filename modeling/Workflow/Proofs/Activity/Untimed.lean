import Workflow.Proofs.Graph.Routing

/-!
# Activities without their times

What is left of an activity when the instants are wiped out that it keeps of its past: where it and
its boundary event stand, and which tokens are taken.  Of arrivals along a route that is all that
matters: as many of them as the route has edges into the activity take all tokens of the route, and
the status is then what the join says (`Activity.untimed_arrivals`).  So it does not matter in which
order the arrivals along two routes come (`Activity.receive_comm`).
-/

namespace Workflow

/-- The status alone, as if it had never been reached. -/
def Lifecycle.untimed (l : Lifecycle) : Lifecycle := { status := l.status }

@[simp]
theorem Lifecycle.untimed_set (l : Lifecycle) (s : Status) (now : Instant) :
    (l.set s now).untimed = { status := some s } := by
  simp [untimed]

/-- The boundary event without the instants of its past. -/
def BoundaryEvent.untimed (b : BoundaryEvent) : BoundaryEvent :=
  { b with lifecycle := b.lifecycle.untimed }

/-- As many changes of the first match as there are matches, or more, change every match. -/
theorem OneOrMany.iterate_updateFirst {α : Type} {p : α → Bool} {f : α → α}
    (ends : ∀ a, p a = true → p (f a) = false) {n : ℕ} {xs : OneOrMany α}
    (h : (xs.toList.filter p).length ≤ n) :
    (fun xs => xs.updateFirst p f)^[n] xs = xs.map fun a => if p a then f a else a := by
  -- The changes are made to the values in order, whichever way they are spelled.
  have hboth : ((fun xs => xs.updateFirst p f)^[n] xs).toList =
        (Workflow.updateFirst p f)^[n] xs.toList ∧
      ((fun xs => xs.updateFirst p f)^[n] xs).isMany = xs.isMany := by
    clear h
    induction n with
    | zero => exact ⟨rfl, rfl⟩
    | succ n ih =>
      simp only [Function.iterate_succ_apply', toList_updateFirst, isMany_updateFirst, ih, and_self]
  refine eq_of_toList_isMany ?_ ?_
  · rw [hboth.1, Workflow.iterate_updateFirst ends h, toList_map]
  · rw [hboth.2, isMany_map]

/-- Arrivals along two routes may come in either order. -/
theorem Token.arriveAll_comm (t : Token) (route route' : List String) :
    (t.arriveAll route).arriveAll route' = (t.arriveAll route').arriveAll route := by
  by_cases h : t.edge ∈ route <;> by_cases h' : t.edge ∈ route' <;>
    simp [arriveAll, take, h, h']

/-- A token is taken after arrivals along a route if it was before or if its edge is one of it. -/
theorem Token.taken_arriveAll (route : List String) (t : Token) :
    (t.arriveAll route).taken = true ↔ t.taken = true ∨ t.edge ∈ route := by
  by_cases h : t.edge ∈ route <;> simp [Token.arriveAll, Token.take, h]

namespace Gateway

/-- The gateway after arrivals along all edges of a route. -/
def arriveAll (w : Gateway) (route : List String) : Gateway :=
  { w with incoming := w.incoming.map (·.map (Token.arriveAll route)) }

/-- Arrivals along two routes may come in either order. -/
theorem arriveAll_comm (w : Gateway) (route route' : List String) :
    (w.arriveAll route).arriveAll route' = (w.arriveAll route').arriveAll route := by
  unfold arriveAll
  cases w.incoming with
  | none => rfl
  | some ts =>
    simp only [Option.map_some]
    rw [OneOrMany.map_map_of_eq (fun t => Token.arriveAll_comm t route route') ts,
      OneOrMany.map_map_of_eq (fun _ => rfl) ts]

/-- Arrivals at a gateway are not seen in its blank. -/
@[simp]
theorem blank_arriveAll (w : Gateway) (route : List String) :
    (w.arriveAll route).blank = w.blank := by
  have hrelease : ∀ t : Token, (t.arriveAll route).release = t.release := by
    intro t
    unfold Token.arriveAll
    split <;> rfl
  unfold arriveAll blank Tokens.blank
  cases w.incoming with
  | none => rfl
  | some ts => simp [OneOrMany.map_map_of_eq hrelease ts]

/-- As many arrivals as there are untaken tokens on the route, or more, take every token on it. -/
theorem iterate_arrive {w : Gateway} {route : List String} {n : ℕ}
    (h : ((Document.records w.incoming).filter fun t =>
      !t.taken && route.contains t.edge).length ≤ n) :
    (fun w : Gateway => w.arrive route)^[n] w = w.arriveAll route := by
  let take : Tokens → Tokens := fun ts =>
    ts.updateFirst (fun t => !t.taken && route.contains t.edge) Token.take
  -- An arrival changes nothing but the incoming tokens.
  have hincoming : (fun w : Gateway => w.arrive route)^[n] w =
      { w with incoming := w.incoming.map take^[n] } := by
    clear h
    induction n with
    | zero => simp
    | succ n ih =>
      rw [Function.iterate_succ_apply', ih, arrive, takeIncoming, Option.map_map,
        Function.iterate_succ']
  rw [hincoming, arriveAll]
  cases hin : w.incoming with
  | none => rfl
  | some ts =>
    rw [hin] at h
    have hall : take^[n] ts = ts.map fun t =>
        if !t.taken && route.contains t.edge then t.take else t :=
      OneOrMany.iterate_updateFirst (fun t _ => by simp [Token.take]) h
    rw [Option.map_some, Option.map_some, hall]
    simp only [Token.take_untaken]

end Gateway

namespace Activity

variable {a : Activity} {route route' : List String} {now : Instant}

/-- The activity without the instants of its past. -/
def untimed (a : Activity) : Activity :=
  { a.mapBoundary BoundaryEvent.untimed with lifecycle := a.lifecycle.untimed }

/-- The activity in a status, without the instant at which it was reached. -/
def putIn (a : Activity) (s : Status) : Activity := { a with lifecycle := { status := some s } }

@[simp]
theorem putIn_putIn (a : Activity) (s s' : Status) : (a.putIn s).putIn s' = a.putIn s' := rfl

@[simp]
theorem untimed_set (a : Activity) (s : Status) (now : Instant) :
    (a.set s now).untimed = a.untimed.putIn s := by
  cases hk : a.kind <;> simp [set, untimed, putIn, mapBoundary, hk]

@[simp]
theorem id_untimed (a : Activity) : a.untimed.id = a.id :=
  id_mapBoundary _ a

@[simp]
theorem isEntered_untimed (a : Activity) : a.untimed.isEntered = a.isEntered := rfl

@[simp]
theorem status_untimed (a : Activity) : a.untimed.status = a.status := rfl

@[simp]
theorem gateway?_untimed (a : Activity) : a.untimed.gateway? = a.gateway? := by
  cases hk : a.kind <;> simp [untimed, mapBoundary, gateway?, hk]

/-- The boundary event without its times. -/
@[simp]
theorem boundary?_untimed (a : Activity) :
    a.untimed.boundary? = a.boundary?.map BoundaryEvent.untimed := by
  cases hk : a.kind <;> simp [untimed, mapBoundary, boundary?, hk]

/-- The times are not seen in the blank. -/
@[simp]
theorem blank_untimed (a : Activity) : a.untimed.blank = a.blank :=
  blank_mapBoundary (f := BoundaryEvent.untimed) (fun _ => rfl) a

@[simp]
theorem blank_putIn (a : Activity) (s : Status) : (a.putIn s).blank = a.blank := rfl

/-- The activity in the status in which an arrival leaves it: a gateway is entered or paused as its
join says, anything else is entered, and so is the boundary event of a task. -/
def judged (a : Activity) : Activity :=
  match a.kind with
  | .gateway w => a.putIn (if w.joinSatisfied then .entered else .paused)
  | .task _ =>
    (a.mapBoundary fun b => { b with lifecycle := { status := some .entered } }).putIn .entered
  | .event _ => a.putIn .entered

/-- The activity after arrivals along all edges of a route. -/
def receive (route : List String) (a : Activity) : Activity :=
  (a.mapGateway (·.arriveAll route)).judged

/-- Where an arrival leaves an activity is not seen in its blank. -/
@[simp]
theorem blank_judged (a : Activity) : a.judged.blank = a.blank := by
  have hboundary := blank_mapBoundary
    (f := fun e => { e with lifecycle := { status := some .entered } }) (fun _ => rfl) a
  unfold judged
  split
  · rfl
  · exact hboundary
  · rfl

/-- Arrivals take every incoming token of the route. -/
theorem tokens_receive (route : List String) (a : Activity) :
    (a.receive route).tokens = a.tokens.map (Token.arriveAll route) := by
  cases hk : a.kind with
  | task t => simp [receive, judged, mapGateway, mapBoundary, putIn, tokens, hk]
  | event e => simp [receive, judged, mapGateway, putIn, tokens, hk]
  | gateway w =>
    simp only [receive, judged, mapGateway, putIn, tokens, hk, Gateway.arriveAll]
    cases w.incoming with
    | none => rfl
    | some ts => exact OneOrMany.toList_map _ ts

/-- Arrivals depend on which edges a route has, and not on how often or in which order. -/
theorem receive_congr (same : ∀ edge, edge ∈ route' ↔ edge ∈ route)
    (a : Activity) : a.receive route' = a.receive route := by
  have htoken : Token.arriveAll route' = Token.arriveAll route := by
    funext t
    simp [Token.arriveAll, same]
  simp only [receive, Gateway.arriveAll, htoken]

/-- Of one arrival after another, the last decides the status. -/
theorem judged_mapGateway_judged (a : Activity) (f : Gateway → Gateway) :
    (a.judged.mapGateway f).judged = (a.mapGateway f).judged := by
  cases hk : a.kind <;> simp [judged, mapGateway, mapBoundary, putIn, hk, Function.comp_def]

/-- Changes of the gateway part one after another. -/
theorem mapGateway_mapGateway (a : Activity) (f f' : Gateway → Gateway) :
    (a.mapGateway f).mapGateway f' = a.mapGateway (f' ∘ f) := by
  cases hk : a.kind <;> simp [mapGateway, hk]

/-- Arrivals along two routes may come in either order. -/
theorem receive_comm (a : Activity) (route route' : List String) :
    (a.receive route).receive route' = (a.receive route').receive route := by
  unfold receive
  rw [judged_mapGateway_judged, judged_mapGateway_judged, mapGateway_mapGateway,
    mapGateway_mapGateway]
  congr 2
  funext w
  exact w.arriveAll_comm route route'

/-- What one arrival does, but for the instants. -/
theorem untimed_arrive (hok : ¬ a.Refuses) :
    (a.arrive route now).1.untimed = (a.untimed.mapGateway (·.arrive route)).judged := by
  unfold arrive
  cases hk : a.kind with
  | gateway w =>
    dsimp only
    split
    · next hcomplex => exact absurd ⟨w, hk, hcomplex⟩ hok
    · simp [untimed, mapBoundary, mapGateway, judged, putIn, hk, set]
  | task t =>
    simp [untimed, mapBoundary, mapGateway, judged, putIn, hk, set, Function.comp_def,
      BoundaryEvent.untimed, BoundaryEvent.set]
  | event v => simp [untimed, mapBoundary, mapGateway, judged, putIn, hk, set]

/-- What one arrival or more do, but for the instants. -/
theorem untimed_arrivals_succ (hok : ¬ a.Refuses) (n : ℕ) :
    (a.arrivals route now (n + 1)).untimed =
      (a.untimed.mapGateway (fun w => w.arrive route)^[n + 1]).judged := by
  induction n with
  | zero => exact untimed_arrive hok
  | succ n ih =>
    have hok' : ¬ (a.arrivals route now (n + 1)).Refuses := by
      rw [← refuses_blank, blank_arrivals, refuses_blank]
      exact hok
    rw [arrivals_succ, untimed_arrive hok', ih, judged_mapGateway_judged, mapGateway_mapGateway,
      ← Function.iterate_succ']

/-- The tokens do not show when they were taken. -/
@[simp]
theorem tokens_untimed (a : Activity) : a.untimed.tokens = a.tokens :=
  tokens_mapBoundary _ a

/-- One arrival or more, and as many as there are untaken tokens on the route, are arrivals along
all of its edges. -/
theorem untimed_arrivals (hok : ¬ a.Refuses) {n : ℕ} (hpos : 0 < n)
    (h : (a.tokens.filter fun t => !t.taken && route.contains t.edge).length ≤ n) :
    (a.arrivals route now n).untimed = a.untimed.receive route := by
  obtain ⟨m, rfl⟩ : ∃ m, n = m + 1 := ⟨n - 1, by omega⟩
  rw [untimed_arrivals_succ hok, receive]
  cases hk : a.untimed.kind with
  | gateway w =>
    have htokens := tokens_of_gateway hk
    rw [tokens_untimed] at htokens
    rw [htokens] at h
    simp only [mapGateway, hk, Gateway.iterate_arrive h]
  | task t => simp only [mapGateway, hk]
  | event v => simp only [mapGateway, hk]

/-- Whether an activity that an arrival reaches was live before does not matter to where it then
stands. -/
theorem receive_instantiate (d : Activity) :
    (d.instantiate now).untimed.receive route = d.untimed.receive route := by
  cases hk : d.kind <;>
    simp [receive, judged, mapGateway, mapBoundary, putIn, instantiate, untimed, hk,
      Function.comp_def, BoundaryEvent.untimed]

end Activity

end Workflow
