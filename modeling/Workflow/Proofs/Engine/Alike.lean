import Workflow.Proofs.Engine.Errands
import Workflow.Proofs.History.Retime

/-!
# Engines that are alike

Two engines are alike up to a change of instants when they have the same process, the same handlers
and the same state, and their histories are the same once the instants are changed
(`Engine.Alike`).  When each of their states was reached is left aside, since nothing that an engine
runs depends on it.

Alike engines that are asked the same do the same, at instants that are the same once changed, as
long as the handlers are blind to the change: a dispatch (`Engine.Alike.dispatch`), going forward by
induction on the limit (`Engine.Alike.forward`), and a whole turn (`Engine.Alike.turn`).
-/

namespace Workflow

/-- Options that become the same under a function are both empty, or have values that do. -/
theorem Option.cases_of_map_eq {α β : Type} {k : α → β} {o o' : Option α}
    (h : o'.map k = o.map k) :
    (o = none ∧ o' = none) ∨ ∃ a a', o = some a ∧ o' = some a' ∧ k a' = k a := by
  cases o with
  | none => exact .inl ⟨rfl, Option.map_eq_none_iff.mp h⟩
  | some a =>
    obtain ⟨a', ha', hk⟩ := Option.map_eq_some_iff.mp h
    exact .inr ⟨a, a', rfl, ha', hk⟩

/-- Whether a route is refused does not depend on instants, nor by which target. -/
theorem Graph.refusal_retime (g : Graph) (route : List String) (f : Instant → Instant)
    (now : Instant) (head : List Activity) :
    (g.advance route (head.map (·.retime f)) (f now)).refusal? =
      (g.advance route head now).refusal? := by
  rw [advance_retime]
  unfold Advance.refusal?
  cases (g.advance route head now).fresh with
  | ok fresh => rfl
  | error err => rfl

variable {σ : Type} {f : Instant → Instant}

/-- The call of a handler with the stamps of its activity changed. -/
def Invocation.retime (f : Instant → Instant) (i : Invocation σ) : Invocation σ :=
  { i with activity := i.activity.retime f }

@[simp]
theorem Invocation.retime_id (i : Invocation σ) : (i.retime fun t => t) = i := by
  simp [retime]

/-- Whether two engines are the same up to a change of instants, and up to when their states were
reached. -/
structure Engine.Alike (f : Instant → Instant) (e e' : Engine σ) : Prop where
  /-- They have the same process. -/
  graph : e'.graph = e.graph
  /-- They have the same handlers. -/
  handlers : e'.handlers = e.handlers
  /-- They are in the same state. -/
  state : e'.state = e.state
  /-- Their histories are the same up to the change. -/
  history : e'.history.retime f = e.history.retime f

/-- Whether two dispatches do the same up to a change of instants. -/
structure Dispatched.Alike (f : Instant → Instant) (d d' : Dispatched σ) : Prop where
  /-- They leave alike engines. -/
  engine : d.engine.Alike f d'.engine
  /-- They leave the same memory. -/
  memory : d'.memory = d.memory
  /-- They answer the same. -/
  reply : d'.reply = d.reply
  /-- They call the same handlers alike. -/
  invocations : d'.invocations.map (·.retime f) = d.invocations.map (·.retime f)

/-- Whether two turns do the same up to a change of instants. -/
structure Turn.Alike (f : Instant → Instant) (turn turn' : Turn σ) : Prop where
  /-- They leave alike engines. -/
  engine : turn.engine.Alike f turn'.engine
  /-- They leave the same memory. -/
  memory : turn'.memory = turn.memory
  /-- They answer the same. -/
  reply : turn'.reply = turn.reply
  /-- They call the same handlers alike. -/
  invocations : turn'.invocations.map (·.retime f) = turn.invocations.map (·.retime f)

/-- Alike dispatches that are followed alike. -/
theorem Dispatched.Alike.followed {d d' : Dispatched σ} (h : d.Alike f d')
    {rest rest' : Json → Turn σ} (later : ∀ value, (rest value).Alike f (rest' value)) :
    (d.followed rest).Alike f (d'.followed rest') := by
  unfold Dispatched.followed
  rw [h.reply]
  cases d.reply with
  | error err => exact ⟨h.engine, h.memory, rfl, h.invocations⟩
  | ok value =>
    obtain ⟨hengine, hmemory, hreply, hcalls⟩ := later value
    refine ⟨hengine, hmemory, hreply, ?_⟩
    rw [List.map_append, List.map_append, h.invocations, hcalls]

namespace Engine

variable {e e' : Engine σ} {a a' : Activity} {now now' : Instant}

/-- Alike engines in one more state. -/
theorem Alike.set (he : e.Alike f e') (s : RunState) (now now' : Instant) :
    (e.set s now).Alike f (e'.set s now') where
  graph := he.graph
  handlers := he.handlers
  state := by
    show (e'.course.set s now').state = (e.course.set s now).state
    rw [Course.state_set, Course.state_set]
  history := he.history

/-- Alike engines with other histories that are the same up to the change. -/
theorem Alike.withHistory (he : e.Alike f e') {h h' : History} (hh : h'.retime f = h.retime f) :
    Alike f { e with history := h } { e' with history := h' } :=
  ⟨he.graph, he.handlers, he.state, hh⟩

/-- A live activity is found in both of two alike engines, or in none. -/
theorem Alike.headById? (he : e.Alike f e') (id : String) :
    (e.history.headById? id = none ∧ e'.history.headById? id = none) ∨
      ∃ a a', e.history.headById? id = some a ∧ e'.history.headById? id = some a' ∧
        a'.retime f = a.retime f := by
  refine Option.cases_of_map_eq ?_
  rw [← History.headById?_retime, ← History.headById?_retime, he.history]

/-- No branch is left in both of two alike engines, or in none. -/
theorem Alike.finishIfDone (he : e.Alike f e') (now now' : Instant) :
    (e.finishIfDone now).Alike f (e'.finishIfDone now') := by
  have hempty : e'.history.head.isEmpty = e.history.head.isEmpty := by
    have hhead := congrArg (fun h : History => h.head.isEmpty) he.history
    simpa [History.retime] using hhead
  unfold Engine.finishIfDone
  rw [hempty]
  split
  · exact he.set .finished now now'
  · exact he

/-- Alike activities are completed alike. -/
theorem Alike.complete (he : e.Alike f e') (ha : a'.retime f = a.retime f)
    (hnow : f now' = f now) (g : Graph) :
    (e.complete g a now).1.Alike f (e'.complete g a' now').1 ∧
      (e'.complete g a' now').2 = (e.complete g a now).2 := by
  have hroutes : (a'.routes?.map fun r => (r.1, r.2.retime f)) =
      a.routes?.map fun r => (r.1, r.2.retime f) := by
    rw [← Activity.routes_retime, ← Activity.routes_retime, ha]
  rw [complete_history, complete_history, complete_refusal, complete_refusal]
  rcases Option.cases_of_map_eq hroutes with ⟨hr, hr'⟩ | ⟨r, r', hr, hr', hsame⟩
  · rw [hr, hr']
    refine ⟨he.withHistory ?_, rfl⟩
    rw [History.retime_writeBack, History.retime_writeBack, Activity.retime_set,
      Activity.retime_set, he.history, ha, hnow]
  · obtain ⟨route, b⟩ := r
    obtain ⟨route', b'⟩ := r'
    obtain ⟨rfl, hb⟩ := Prod.mk.inj hsame
    rw [hr, hr']
    refine ⟨he.withHistory ?_, ?_⟩
    · rw [History.retime_onward, History.retime_onward, he.history, hb, hnow]
    · -- The branches that are left are the same up to the change.
      have hleft : (e'.history.retire b').head.map (·.retime f) =
          (e.history.retire b).head.map (·.retime f) := by
        have hretire : (e'.history.retire b').retime f = (e.history.retire b).retime f := by
          rw [History.retime_retire, History.retime_retire, he.history, hb]
        exact congrArg History.head hretire
      dsimp only
      rw [← g.refusal_retime route' f now', ← g.refusal_retime route' f now, hleft, hnow]

/-- Alike activities are concluded alike. -/
theorem Alike.conclude (he : e.Alike f e') (ha : a'.retime f = a.retime f)
    (hnow : f now' = f now) (g : Graph) :
    (e.conclude g a now).1.Alike f (e'.conclude g a' now').1 ∧
      (e'.conclude g a' now').2 = (e.conclude g a now).2 := by
  obtain ⟨-, -, hstatus, -⟩ := Activity.eq_of_retime ha
  unfold Engine.conclude
  rw [hstatus]
  split
  · refine ⟨Alike.finishIfDone (he.withHistory ?_) now now', rfl⟩
    rw [History.retime_retire, History.retime_retire, he.history, ha]
  · obtain ⟨hleft, hrefusal⟩ := he.complete ha hnow g
    rcases hc : e.complete g a now with ⟨left, refusal⟩
    rcases hc' : e'.complete g a' now' with ⟨left', refusal'⟩
    rw [hc, hc'] at hleft hrefusal
    obtain rfl : refusal' = refusal := hrefusal
    cases refusal' with
    | none => exact ⟨Alike.finishIfDone hleft now now', rfl⟩
    | some err => exact ⟨hleft, rfl⟩
  · exact ⟨he.finishIfDone now now', rfl⟩

/-- Alike engines with alike steps left by handlers. -/
theorem Alike.leave (he : e.Alike f e') {st st' : Step} (hst : st'.retime f = st.retime f) :
    (e.leave st).Alike f (e'.leave st') := by
  refine he.withHistory ?_
  have hhistory : st'.history.retime f = st.history.retime f := congrArg Step.history hst
  have hactivity : st'.activity.retime f = st.activity.retime f := congrArg Step.activity hst
  rw [History.retime_writeBack, History.retime_writeBack, hhistory, hactivity]

/-- Alike engines run the same activity or refuse it with the same error. -/
theorem Alike.toRun (he : e.Alike f e') (id : String) :
    (∃ err, e.toRun id = .error err ∧ e'.toRun id = .error err) ∨
      ∃ g a a', e.toRun id = .ok (g, a) ∧ e'.toRun id = .ok (g, a') ∧
        a'.retime f = a.retime f := by
  unfold Engine.toRun
  rw [he.graph]
  cases e.graph with
  | none => exact .inl ⟨_, rfl, rfl⟩
  | some g =>
    rcases he.headById? id with ⟨ha, ha'⟩ | ⟨a, a', ha, ha', hsame⟩
    · simp only [ha, ha']
      exact .inl ⟨_, rfl, rfl⟩
    · obtain ⟨hid, hname, hstatus, hentered⟩ := Activity.eq_of_retime hsame
      simp only [ha, ha', hentered, hid, hname, hstatus]
      cases a.isEntered with
      | true => exact .inr ⟨g, a, a', rfl, rfl, hsame⟩
      | false => exact .inl ⟨_, rfl, rfl⟩

/-- Alike engines dispatch alike. -/
theorem Alike.dispatch (he : e.Alike f e') (hnow : f now' = f now) (id : String) (origin : Origin)
    {handler : Handler σ} (blind : handler.Blind f) (payload : Json) (memory : σ) :
    (e.dispatch id origin handler payload memory now).Alike f
      (e'.dispatch id origin handler payload memory now') := by
  rcases he.toRun id with ⟨err, hrun, hrun'⟩ | ⟨g, a, a', hrun, hrun', ha⟩
  · rw [dispatch_refused hrun, dispatch_refused hrun']
    exact ⟨he, rfl, rfl, rfl⟩
  · -- The handler is given alike steps, so it comes to the same and leaves alike steps.
    have hopened : (e'.opened g a' now').retime f = (e.opened g a now).retime f := by
      simp only [opened, Step.retime, Activity.retime_set, ha, he.history, hnow]
    have hworked := blind (e.opened g a now) payload memory
    have hworked' := blind (e'.opened g a' now') payload memory
    rw [hopened, hworked] at hworked'
    obtain ⟨houtcome, hleft⟩ := Prod.mk.inj hworked'
    rcases hr : (handler (e.opened g a now) payload memory).run (e.opened g a now) with
      ⟨⟨memory₁, outcome⟩, st⟩
    rcases hr' : (handler (e'.opened g a' now') payload memory).run (e'.opened g a' now') with
      ⟨⟨memory₁', outcome'⟩, st'⟩
    rw [hr, hr'] at houtcome hleft
    obtain ⟨rfl, rfl⟩ := Prod.mk.inj houtcome
    have hst : st'.retime f = st.retime f := hleft.symm
    have hactivity : st'.activity.retime f = st.activity.retime f := congrArg Step.activity hst
    have hcalls : ([⟨a', origin, handler, payload⟩] : List (Invocation σ)).map (·.retime f) =
        ([⟨a, origin, handler, payload⟩] : List (Invocation σ)).map (·.retime f) := by
      simp only [List.map_cons, List.map_nil, Invocation.retime, ha]
    rw [dispatch_eq hrun hr, dispatch_eq hrun' hr']
    cases outcome with
    | error failure =>
      obtain ⟨hid, -, -, -⟩ := Activity.eq_of_retime hactivity
      refine ⟨he.leave hst, rfl, ?_, hcalls⟩
      simp only [ended, hid]
    | ok value =>
      obtain ⟨hengine, hrefusal⟩ := (he.leave hst).conclude hactivity hnow g
      refine ⟨hengine, rfl, ?_, hcalls⟩
      simp only [ended, hrefusal]

/-- Alike engines go forward with the same activity. -/
theorem Alike.upcoming? (he : e.Alike f e') (settled : List String) :
    e'.upcoming? settled = e.upcoming? settled := by
  have hnext : e'.nextAutomatic? settled = e.nextAutomatic? settled := by
    unfold nextAutomatic?
    rw [he.handlers]
    cases e.handlers with
    | none => rfl
    | some table =>
      -- What is chosen does not depend on the instants.
      let choose : Activity → Option (String × Choice (Handler σ)) := fun a =>
        if a.isEntered && !settled.contains a.id then (table.forForward a.name).map (a.id, ·)
        else none
      have hblind : choose ∘ (·.retime f) = choose := rfl
      have hhead : e'.history.head.map (·.retime f) = e.history.head.map (·.retime f) :=
        congrArg History.head he.history
      show e'.history.head.findSome? choose = e.history.head.findSome? choose
      rw [← hblind, ← List.findSome?_map, hhead, List.findSome?_map]
  unfold Engine.upcoming? isIn
  rw [he.state, hnext]

/-- Alike engines have the same activities settled. -/
theorem Alike.settle (he : e.Alike f e') (settled : List String) (id : String) :
    e'.settle settled id = e.settle settled id := by
  unfold Engine.settle
  rcases he.headById? id with ⟨ha, ha'⟩ | ⟨a, a', ha, ha', hsame⟩
  · rw [ha, ha']
  · obtain ⟨-, -, -, hentered⟩ := Activity.eq_of_retime hsame
    rw [ha, ha']
    dsimp only
    rw [hentered]

section Calls

variable (blind : ∀ table, e.handlers = some table → ∀ handler, table.Has handler →
  handler.Blind f)

include blind

/-- The handlers that an engine serves are blind when the registered ones are. -/
theorem blind_of_serves {handler : Handler σ} (h : e.Serves handler) : handler.Blind f := by
  rcases h with rfl | ⟨table, htable, hhas⟩
  · exact Handler.blind_default f
  · exact blind table htable handler hhas

/-- Alike engines go forward alike. -/
theorem Alike.forward (he : e.Alike f e') (hnow : f now' = f now) (limit : Nat)
    (settled : List String) (payload : Json) (memory : σ) :
    (Engine.forward now limit settled e payload memory).Alike f
      (Engine.forward now' limit settled e' payload memory) := by
  induction limit generalizing e e' settled payload memory with
  | zero =>
    have hnext : (if e'.isIn .started then e'.nextAutomatic? settled else none) =
        if e.isIn .started then e.nextAutomatic? settled else none := he.upcoming? settled
    unfold Engine.forward
    rw [hnext]
    split
    · exact ⟨he, rfl, rfl, rfl⟩
    · exact ⟨he, rfl, rfl, rfl⟩
    · next h => cases h
  | succ limit ih =>
    cases hnext : e.upcoming? settled with
    | none =>
      have hnext' := (he.upcoming? settled).trans hnext
      rw [forward_of_none hnext, forward_of_none hnext']
      exact ⟨he, rfl, rfl, rfl⟩
    | some next =>
      obtain ⟨id, choice⟩ := next
      have hnext' := (he.upcoming? settled).trans hnext
      rw [forward_of_some hnext, forward_of_some hnext']
      have hserves : e.Serves choice.handler := by
        unfold Engine.upcoming? at hnext
        split at hnext
        · exact serves_nextAutomatic hnext
        · cases hnext
      have hrun := he.dispatch hnow id choice.origin (blind_of_serves blind hserves) payload memory
      refine hrun.followed fun value => ?_
      dsimp only
      rw [hrun.engine.settle, hrun.memory]
      -- A dispatch keeps the handlers.
      refine ih (fun table htable => blind table ?_) hrun.engine _ value _
      rw [← htable, (dispatch_frame e id choice.origin choice.handler payload memory now).2]

variable {o o' : Occasion} (hnow : f o'.now = f o.now) (hlimit : o'.limit = o.limit)

include hnow hlimit

/-- Alike engines run an activity and go forward alike. -/
theorem Alike.runWith (he : e.Alike f e') (id : String) (origin : Origin) {handler : Handler σ}
    (hblind : handler.Blind f) (payload : Json) (memory : σ) :
    (e.runWith id origin handler payload memory o).Alike f
      (e'.runWith id origin handler payload memory o') := by
  unfold Engine.runWith isIn checkStarted
  rw [he.state]
  split
  · exact ⟨he, rfl, rfl, rfl⟩
  · split
    · exact ⟨he, rfl, rfl, rfl⟩
    · have hrun := he.dispatch hnow id origin hblind payload memory
      refine hrun.followed fun value => ?_
      rw [hrun.memory, hlimit]
      refine Alike.forward (fun table htable => blind table ?_) hrun.engine hnow o.limit [] value _
      rw [← htable, (dispatch_frame e id origin handler payload memory o.now).2]

/-- Alike engines run an errand alike. -/
theorem Alike.turn (he : e.Alike f e') {errand : Errand σ}
    (hgiven : ∀ id handler, errand = .execute id handler → handler.Blind f) (payload : Json)
    (memory : σ) :
    (e.turn errand payload memory o).Alike f (e'.turn errand payload memory o') := by
  cases errand with
  | advance =>
    show (e.advance payload memory o).Alike f (e'.advance payload memory o')
    unfold Engine.advance isIn checkStarted
    rw [he.state]
    split
    · exact ⟨he, rfl, rfl, rfl⟩
    · split
      · exact ⟨he, rfl, rfl, rfl⟩
      · rw [hlimit]
        exact Alike.forward blind he hnow o.limit [] payload memory
  | execute id handler =>
    exact Alike.runWith blind hnow hlimit he id .given (hgiven id handler rfl) payload memory
  | run name =>
    show (e.run name payload memory o).Alike f (e'.run name payload memory o')
    have hfound : (e'.history.headByName? name).map (·.retime f) =
        (e.history.headByName? name).map (·.retime f) := by
      rw [← History.headByName?_retime, ← History.headByName?_retime, he.history]
    have hchoice : e'.choiceFor name = e.choiceFor name := by
      unfold choiceFor
      rw [he.handlers]
    unfold Engine.run isIn
    rw [he.state, hchoice]
    split
    · exact ⟨he, rfl, rfl, rfl⟩
    · rcases Option.cases_of_map_eq hfound with ⟨ha, ha'⟩ | ⟨a, a', ha, ha', hsame⟩
      · rw [ha, ha']
        exact ⟨he, rfl, rfl, rfl⟩
      · obtain ⟨hid, -, -, -⟩ := Activity.eq_of_retime hsame
        rw [ha, ha']
        dsimp only
        rw [hid]
        exact Alike.runWith blind hnow hlimit he a.id _
          (blind_of_serves blind (e.serves_choiceFor name)) payload memory

end Calls

end Engine

end Workflow
