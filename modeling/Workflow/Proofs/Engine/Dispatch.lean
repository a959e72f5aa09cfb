import Workflow.Engine.Dispatch
import Workflow.Proofs.Activity.Blank
import Workflow.Proofs.Graph.Routing

/-!
# What one run of an activity does

Everything an engine does to its history while it runs one activity is one of a few things, and this
module says which.  A handler takes its step from one to the next by allowed actions
(`Step.Reaches`), and each action edits the activity, takes its boundary event or stops the other
branches (`Step.perform_cases`).  The activity is written back (`Engine.leave`), and then it stays,
is logged and gone, is paused, or is logged and followed along its route
(`Engine.conclude_history`).  `Engine.dispatch_cases` puts the parts together.

Invariants of a history are proved from these lemmas alone, without unfolding a dispatch.
-/

namespace Workflow

/-! ## Steps -/

namespace Step

/-- The steps that allowed actions lead to from a step, one after another. -/
inductive Reaches (allowed : Action → Prop) (st : Step) : Step → Prop where
  | refl : Reaches allowed st st
  | act {st' st'' : Step} {action : Action} (before : Reaches allowed st st')
      (ok : allowed action) (done : st'.perform action = .ok st'') : Reaches allowed st st''

/-- An action edits the activity, takes its boundary event, or stops the other branches.  Only a
direct edit takes a token of arrival. -/
theorem perform_cases {st st' : Step} {action : Action} (h : st.perform action = .ok st') :
    (∃ edit a, st.activity.edit st.now edit = .ok a ∧ st' = { st with activity := a } ∧
        ∀ accepts, edit = .takeIncoming accepts → action = .edit edit) ∨
      (action = .takeBoundaryEvent ∧ ∃ t b, st.activity.kind = .task t ∧ t.boundary = some b ∧
        st' = { st with
          history := (st.graph.edgesFrom b.id).foldl (st.redirectAlong b.outgoing) st.history
          activity := st.activity.mapBoundary (·.set .finished st.now) }) ∨
      (action = .stopAllExceptThis ∧ st' = st.stopAllExceptThis) := by
  have hedit : ∀ {st' : Step} {e : Edit}, st.edit e = .ok st' →
      ∃ a, st.activity.edit st.now e = .ok a ∧ st' = { st with activity := a } := by
    intro st' e he
    unfold edit at he
    split at he
    · next a ha => cases he; exact ⟨a, ha, rfl⟩
    · cases he
  have hselect : ∀ {operation : Operation} {key : String} {target : Option Activity},
      st.selectOutgoing operation key target = .ok st' →
      st.edit (.chooseOutgoing operation key (target.map (·.incoming))) = .ok st' := by
    intro operation key target hs
    unfold selectOutgoing at hs
    split at hs
    · exact hs
    · cases hs
  cases action with
  | edit e =>
    obtain ⟨a, ha, hst⟩ := hedit h
    exact .inl ⟨e, a, ha, hst, fun _ _ => rfl⟩
  | takeOutgoingById id =>
    obtain ⟨a, ha, hst⟩ := hedit (hselect h)
    exact .inl ⟨_, a, ha, hst, fun _ he => nomatch he⟩
  | takeOutgoingByName name =>
    obtain ⟨a, ha, hst⟩ := hedit (hselect h)
    exact .inl ⟨_, a, ha, hst, fun _ he => nomatch he⟩
  | refreshAllOutgoing =>
    simp only [perform, Step.refreshAllOutgoing] at h
    split at h
    · obtain ⟨a, ha, hst⟩ := hedit h
      exact .inl ⟨_, a, ha, hst, fun _ he => nomatch he⟩
    · cases h
  | takeBoundaryEvent =>
    simp only [perform, Step.takeBoundaryEvent] at h
    split at h
    · next t ht =>
      split at h
      · cases h
      · next b hb => cases h; exact .inr (.inl ⟨rfl, t, b, ht, hb, rfl⟩)
    · cases h
  | stopAllExceptThis => cases h; exact .inr (.inr ⟨rfl, rfl⟩)

/-- A redirection leaves the stack alone. -/
@[simp]
theorem stack_redirectAlong (st : Step) (edge : String) (h : History) (flow : Flow) :
    (st.redirectAlong edge h flow).stack = h.stack := by
  unfold redirectAlong History.pushHead
  split
  · rfl
  · split <;> rfl

/-- Redirections in turn leave the stack alone. -/
@[simp]
theorem stack_foldl_redirectAlong (st : Step) (edge : String) (flows : List Flow) (h : History) :
    (flows.foldl (st.redirectAlong edge) h).stack = h.stack := by
  induction flows generalizing h with
  | nil => rfl
  | cons flow flows ih => rw [List.foldl_cons, ih, stack_redirectAlong]

/-- An action changes neither the graph nor the instant nor the stack, and what it does to the
activity is not seen in the blank. -/
theorem perform_frame {st st' : Step} {action : Action} (h : st.perform action = .ok st') :
    st'.graph = st.graph ∧ st'.now = st.now ∧ st'.history.stack = st.history.stack ∧
      st'.activity.blank = st.activity.blank := by
  rcases perform_cases h with ⟨edit, a, ha, rfl, -⟩ | ⟨-, t, b, ht, hb, rfl⟩ | ⟨-, rfl⟩
  · exact ⟨rfl, rfl, rfl, Activity.blank_edit ha⟩
  · exact ⟨rfl, rfl, stack_foldl_redirectAlong _ _ _ _,
      Activity.blank_mapBoundary (fun b => b.blank_set .finished st.now) _⟩
  · exact ⟨rfl, rfl, rfl, rfl⟩

variable {allowed : Action → Prop}

/-- Actions in turn change neither the graph nor the instant nor the stack, nor the blank of the
activity. -/
theorem Reaches.frame {st st' : Step} (h : Reaches allowed st st') :
    st'.graph = st.graph ∧ st'.now = st.now ∧ st'.history.stack = st.history.stack ∧
      st'.activity.blank = st.activity.blank := by
  induction h with
  | refl => exact ⟨rfl, rfl, rfl, rfl⟩
  | act before ok done ih =>
    obtain ⟨hg, hn, hs, hb⟩ := perform_frame done
    exact ⟨hg.trans ih.1, hn.trans ih.2.1, hs.trans ih.2.2.1, hb.trans ih.2.2.2⟩

/-- Actions in turn after others. -/
theorem Reaches.trans {st st' st'' : Step} (first : Reaches allowed st st')
    (second : Reaches allowed st' st'') : Reaches allowed st st'' := by
  induction second with
  | refl => exact first
  | act before ok done ih => exact .act ih ok done

/-- What actions lead to, more actions do. -/
theorem Reaches.mono {allowed' : Action → Prop} (more : ∀ action, allowed action → allowed' action)
    {st st' : Step} (h : Reaches allowed st st') : Reaches allowed' st st' := by
  induction h with
  | refl => exact .refl
  | act before ok done ih => exact .act ih (more _ ok) done

/-- What every allowed action keeps is kept by allowed actions in turn. -/
theorem Reaches.keeps {J : Step → Prop}
    (keeps : ∀ action st st', allowed action → st.perform action = .ok st' → J st → J st')
    {st st' : Step} (h : Reaches allowed st st') (hst : J st) : J st' := by
  induction h with
  | refl => exact hst
  | act before ok done ih => exact keeps _ _ _ ok done ih

end Step

/-- Every program is within all actions. -/
theorem Program.within_all {α : Type} (program : Program α) : program.Within fun _ => True := by
  induction program with
  | done a => exact trivial
  | act action next ih => exact ⟨trivial, ih⟩

/-- A program goes from its step by actions that it may come to. -/
theorem Program.reaches_run {α : Type} {allowed : Step.Action → Prop} {program : Program α}
    (h : program.Within allowed) {first st : Step} (hst : Step.Reaches allowed first st) :
    Step.Reaches allowed first (program.run st).2 := by
  induction program generalizing st with
  | done a => exact hst
  | act action next ih =>
    obtain ⟨hok, hnext⟩ := h
    unfold run
    split
    · next st' hdone => exact ih none st' (hnext none st') (.act hst hok hdone)
    · next e _ => exact ih (some e) st (hnext (some e) st) hst

/-- Whether every action that the handler may come to is allowed. -/
def Handler.Within {σ : Type} (allowed : Step.Action → Prop) (handler : Handler σ) : Prop :=
  ∀ st payload memory, (handler st payload memory).Within allowed

/-- Every handler is within all actions. -/
theorem Handler.within_all {σ : Type} (handler : Handler σ) :
    handler.Within fun _ => True :=
  fun st payload memory => (handler st payload memory).within_all

/-- The default policy does nothing but set the status of the activity. -/
theorem Handler.within_default {σ : Type} {allowed : Step.Action → Prop}
    (sets : ∀ s, allowed (.edit (.setStatus s))) :
    (Handler.default : Handler σ).Within allowed := by
  intro st payload memory
  simp only [Handler.default, defaultPolicy]
  split
  · exact trivial
  · exact ⟨sets _, fun _ _ => trivial⟩
  · exact ⟨sets _, fun _ _ => trivial⟩

/-- Whether a handler does nothing in a step but finish the activity. -/
def Handler.FinishesIn {σ : Type} (handler : Handler σ) (st : Step) : Prop :=
  ∀ payload memory, ∃ memory', (handler st payload memory).run st =
    ((memory', .ok payload), { st with activity := st.activity.set .finished st.now })

/-- The default policy finishes tasks, events, and parallel gateways whose join holds. -/
theorem Handler.default_finishesIn {σ : Type} {st : Step}
    (holds : ∀ w, st.activity.kind = .gateway w → w.kind = .parallel ∧ w.joinSatisfied = true) :
    (Handler.default : Handler σ).FinishesIn st := by
  intro payload memory
  refine ⟨memory, ?_⟩
  cases hk : st.activity.kind with
  | task t => simp only [Handler.default, defaultPolicy, hk]; rfl
  | event e => simp only [Handler.default, defaultPolicy, hk]; rfl
  | gateway w =>
    obtain ⟨hparallel, hjoin⟩ := holds w hk
    have hcompletes : w.defaultCompletes st.activity.id = .ok true := by
      rw [Gateway.joinSatisfied, hparallel] at hjoin
      rw [Gateway.defaultCompletes, hparallel]
      exact congrArg Except.ok hjoin
    simp only [Handler.default, defaultPolicy, hk, hcompletes]
    rfl

/-! ## Engines -/

/-- What a route has made anew, nothing when a target refused. -/
def Graph.Advance.made (r : Graph.Advance) : List Activity :=
  match r.fresh with
  | .ok fresh => fresh
  | .error _ => []

/-- The refusal of a target. -/
def Graph.Advance.refusal? (r : Graph.Advance) : Option Error :=
  match r.fresh with
  | .ok _ => none
  | .error err => some err

/-- The history after an activity is logged and followed along a route. -/
def History.onward (h : History) (g : Graph) (route : List String) (a : Activity) (now : Instant) :
    History :=
  let r := g.advance route (h.retire a).head now
  { h.retire a with head := r.head }.merge r.made

/-- What was written back last for an id is all that was. -/
theorem History.writeBack_writeBack (h : History) {a b : Activity} (hid : b.id = a.id) :
    (h.writeBack b).writeBack a = h.writeBack a := by
  have hlist : ∀ as : List Activity,
      updateFirst (·.id == a.id) (fun _ => a) (updateFirst (·.id == a.id) (fun _ => b) as) =
        updateFirst (·.id == a.id) (fun _ => a) as := by
    intro as
    induction as with
    | nil => rfl
    | cons c as ih => by_cases hc : c.id = a.id <;> simp [updateFirst, hc, hid, ih]
  unfold History.writeBack History.updateById
  rw [hid, hlist h.head]

/-- An activity that is logged leaves nothing of what was written back for it. -/
theorem History.retire_writeBack (h : History) {a b : Activity} (hid : b.id = a.id) :
    (h.writeBack b).retire a = h.retire a := by
  have hlist : ∀ as : List Activity,
      (updateFirst (·.id == a.id) (fun _ => b) as).filter (·.id != a.id) =
        as.filter (·.id != a.id) := by
    intro as
    induction as with
    | nil => rfl
    | cons c as ih => by_cases hc : c.id = a.id <;> simp [updateFirst, hc, hid, ih]
  unfold History.retire
  rw [History.writeBack, History.updateById, hid, hlist h.head]

/-- What was written back for an activity does not matter to where the flow goes on from it. -/
theorem History.onward_writeBack (h : History) (g : Graph) (route : List String) {a b : Activity}
    (hid : b.id = a.id) (now : Instant) :
    (h.writeBack b).onward g route a now = h.onward g route a now := by
  unfold History.onward
  rw [History.retire_writeBack h hid]

namespace Engine

variable {σ : Type}

/-- The step that a handler is given for a live activity. -/
def opened (e : Engine σ) (graph : Graph) (found : Activity) (now : Instant) : Step :=
  { activity := found.set .started now, graph, history := e.history, now }

/-- The step that a handler leaves behind. -/
def worked (e : Engine σ) (graph : Graph) (found : Activity) (handler : Handler σ) (payload : Json)
    (memory : σ) (now : Instant) : Step :=
  ((handler (e.opened graph found now) payload memory).run (e.opened graph found now)).2

/-- The engine when a handler leaves a step. -/
def leave (e : Engine σ) (st : Step) : Engine σ :=
  { e with history := st.history.writeBack st.activity }

@[simp]
theorem graph_finishIfDone (e : Engine σ) (now : Instant) :
    (e.finishIfDone now).graph = e.graph := by
  unfold finishIfDone
  split <;> rfl

@[simp]
theorem history_finishIfDone (e : Engine σ) (now : Instant) :
    (e.finishIfDone now).history = e.history := by
  unfold finishIfDone
  split <;> rfl

@[simp]
theorem handlers_finishIfDone (e : Engine σ) (now : Instant) :
    (e.finishIfDone now).handlers = e.handlers := by
  unfold finishIfDone
  split <;> rfl

/-- The state of an engine that finishes if no branch is left. -/
theorem state_finishIfDone_eq (e : Engine σ) (now : Instant) :
    (e.finishIfDone now).state = if e.history.head.isEmpty then .finished else e.state := by
  unfold finishIfDone
  split
  · exact Course.state_set ..
  · rfl

/-- What may be run: the process is built, and the activity is live under the id and entered. -/
theorem toRun_ok_iff {e : Engine σ} {id : String} {graph : Graph} {a : Activity} :
    e.toRun id = .ok (graph, a) ↔
      e.graph = some graph ∧ e.history.headById? id = some a ∧ a.isEntered := by
  unfold toRun
  cases hg : e.graph with
  | none => simp
  | some g =>
    cases ha : e.history.headById? id with
    | none => simp
    | some b =>
      by_cases hb : b.isEntered
      · simp only [hb, if_true, Except.ok.injEq, Prod.mk.injEq, Option.some.injEq]
        constructor
        · rintro ⟨rfl, rfl⟩; exact ⟨rfl, rfl, hb⟩
        · rintro ⟨rfl, rfl, -⟩; exact ⟨rfl, rfl⟩
      · simp only [hb, Bool.false_eq_true, if_false, reduceCtorEq, Option.some.injEq, false_iff]
        rintro ⟨-, rfl, h⟩
        exact hb h

/-- A finished activity is followed along its route, as far as the first target that refuses. -/
theorem complete_of_routes (e : Engine σ) (graph : Graph) {a a' : Activity} {route : List String}
    (now : Instant) (hr : a.routes? = some (route, a')) :
    e.complete graph a now = ({ e with history := e.history.onward graph route a' now },
      (graph.advance route (e.history.retire a').head now).refusal?) := by
  unfold complete History.onward
  rw [hr]
  dsimp only [Graph.Advance.made, Graph.Advance.refusal?]
  cases (graph.advance route (e.history.retire a').head now).fresh with
  | ok fresh => rfl
  | error err => rfl

/-- A finished activity is paused while its join waits, and followed along its route otherwise. -/
theorem complete_history (e : Engine σ) (graph : Graph) (a : Activity) (now : Instant) :
    (e.complete graph a now).1 = { e with
      history := match a.routes? with
        | none => e.history.writeBack (a.set .paused now)
        | some (route, a) => e.history.onward graph route a now } := by
  cases hr : a.routes? with
  | none =>
    unfold complete
    rw [hr]
  | some r => rw [complete_of_routes e graph now hr]

/-- Only the route of a finished activity is refused. -/
theorem complete_refusal (e : Engine σ) (graph : Graph) (a : Activity) (now : Instant) :
    (e.complete graph a now).2 = match a.routes? with
      | none => none
      | some (route, a) => (graph.advance route (e.history.retire a).head now).refusal? := by
  cases hr : a.routes? with
  | none =>
    unfold complete
    rw [hr]
  | some r => rw [complete_of_routes e graph now hr]

/-- A conclusion changes only the history and the course. -/
theorem conclude_frame (e : Engine σ) (graph : Graph) (a : Activity) (now : Instant) :
    (e.conclude graph a now).1.graph = e.graph ∧
      (e.conclude graph a now).1.handlers = e.handlers := by
  have hcomplete := complete_history e graph a now
  unfold conclude
  split
  · exact ⟨graph_finishIfDone _ _, handlers_finishIfDone _ _⟩
  · split
    · next heq =>
      rw [heq] at hcomplete
      obtain rfl := hcomplete
      exact ⟨graph_finishIfDone _ _, handlers_finishIfDone _ _⟩
    · next heq =>
      rw [heq] at hcomplete
      obtain rfl := hcomplete
      exact ⟨rfl, rfl⟩
  · exact ⟨graph_finishIfDone _ _, handlers_finishIfDone _ _⟩

/-- A finished activity is completed, and unless its route is refused the engine finishes if no
branch is left. -/
theorem conclude_of_complete {e e' : Engine σ} {graph : Graph} {a : Activity} {now : Instant}
    {refusal : Option Error} (h : a.status = some .finished)
    (hcomplete : e.complete graph a now = (e', refusal)) :
    e.conclude graph a now = (refusal.elim (e'.finishIfDone now) fun _ => e', refusal) := by
  unfold conclude
  rw [h]
  simp only [hcomplete]
  cases refusal with
  | none => rfl
  | some err => rfl

/-- The refusal of a target does not show in the history of a finished activity's conclusion. -/
theorem conclude_finished (e : Engine σ) (graph : Graph) {a : Activity} (now : Instant)
    (h : a.status = some .finished) :
    (e.conclude graph a now).1.history = (e.complete graph a now).1.history := by
  rcases hcomplete : e.complete graph a now with ⟨e', refusal⟩
  rw [conclude_of_complete h hcomplete]
  cases refusal with
  | none => exact history_finishIfDone _ _
  | some err => rfl

/-- A canceled activity is logged and gone. -/
theorem conclude_canceled (e : Engine σ) (graph : Graph) {a : Activity} (now : Instant)
    (h : a.status = some .canceled) :
    (e.conclude graph a now).1.history = e.history.retire a := by
  unfold conclude
  rw [h]
  exact history_finishIfDone _ _

/-- A paused activity stays as it is. -/
theorem conclude_paused (e : Engine σ) (graph : Graph) {a : Activity} (now : Instant)
    (h : a.status = some .paused) : e.conclude graph a now = (e.finishIfDone now, none) := by
  unfold conclude
  rw [h]

/-- A finished activity whose join waits is paused. -/
theorem conclude_waiting (e : Engine σ) (graph : Graph) {a : Activity} (now : Instant)
    (h : a.status = some .finished) (waits : a.routes? = none) :
    e.conclude graph a now = ({ e with
      history := e.history.writeBack (a.set .paused now) }.finishIfDone now, none) := by
  have hcomplete : e.complete graph a now =
      ({ e with history := e.history.writeBack (a.set .paused now) }, none) := by
    unfold complete
    rw [waits]
  exact conclude_of_complete h hcomplete

/-- After a handler an activity stays, is logged and gone, is paused because its join waits, or is
logged and followed along its route. -/
theorem conclude_history (e : Engine σ) (graph : Graph) (a : Activity) (now : Instant) :
    (e.conclude graph a now).1.history = e.history ∨
      (a.status = some .canceled ∧ (e.conclude graph a now).1.history = e.history.retire a) ∨
      (a.status = some .finished ∧ a.routes? = none ∧
        (e.conclude graph a now).1.history = e.history.writeBack (a.set .paused now)) ∨
      ∃ route a', a.status = some .finished ∧ a.routes? = some (route, a') ∧
        (e.conclude graph a now).1.history = e.history.onward graph route a' now := by
  -- Only a finished activity is completed, and only its route may be refused.
  by_cases hs : a.status = some .finished
  · rw [conclude_finished e graph now hs, complete_history]
    cases hr : a.routes? with
    | none => exact .inr (.inr (.inl ⟨hs, rfl, rfl⟩))
    | some r => exact .inr (.inr (.inr ⟨r.1, r.2, hs, rfl, rfl⟩))
  · unfold conclude
    split
    · next hc => exact .inr (.inl ⟨hc, history_finishIfDone _ _⟩)
    · next hf => exact absurd hf hs
    · exact .inl (history_finishIfDone _ _)

/-- A conclusion without a refusal finishes the engine if no branch is left. -/
theorem conclude_none {e : Engine σ} {graph : Graph} {a : Activity} {now : Instant}
    (h : (e.conclude graph a now).2 = none) :
    ∃ e' : Engine σ, e'.course = e.course ∧ (e.conclude graph a now).1 = e'.finishIfDone now := by
  have hcomplete := congrArg Engine.course (complete_history e graph a now)
  revert h
  unfold conclude
  split
  · exact fun _ => ⟨{ e with history := e.history.retire a }, rfl, rfl⟩
  · split
    · next e' heq =>
      rw [heq] at hcomplete
      exact fun _ => ⟨e', hcomplete, rfl⟩
    · intro h
      cases h
  · exact fun _ => ⟨e, rfl, rfl⟩

/-- Only the refusal of a target ends a conclusion early. -/
theorem conclude_some {e : Engine σ} {graph : Graph} {a : Activity} {now : Instant} {err : Error}
    (h : (e.conclude graph a now).2 = some err) : ∃ id, err = .complexTraversal id := by
  unfold conclude at h
  split at h
  · cases h
  · split at h
    · cases h
    · next heq =>
      cases h
      unfold complete at heq
      split at heq
      · cases heq
      · dsimp only at heq
        split at heq
        · cases heq
        · next hrefused => cases heq; exact Graph.advance_error hrefused
  · cases h

/-- A dispatch of an activity that may not be run does nothing. -/
theorem dispatch_refused {e : Engine σ} {id : String} {err : Error} (h : e.toRun id = .error err)
    (origin : Origin) (handler : Handler σ) (payload : Json) (memory : σ) (now : Instant) :
    e.dispatch id origin handler payload memory now = ⟨e, memory, .error err, []⟩ := by
  unfold dispatch
  rw [h]

/-- What a dispatch leaves when its handler has left a step: the engine with that step if the
handler failed, and otherwise the conclusion of the activity, which answers the refusal of a target
or else the payload. -/
def ended (e : Engine σ) (graph : Graph) (st : Step) (memory : σ) (now : Instant)
    (invocations : List (Invocation σ)) : Except Failure Json → Dispatched σ
  | .error failure => ⟨e.leave st, memory, .error (failure.surface st.activity.id), invocations⟩
  | .ok value =>
    let c := (e.leave st).conclude graph st.activity now
    ⟨c.1, memory, c.2.elim (.ok value) .error, invocations⟩

/-- A dispatch of an activity that may be run ends as its handler does. -/
theorem dispatch_eq {e : Engine σ} {id : String} {graph : Graph} {found : Activity}
    (h : e.toRun id = .ok (graph, found)) {handler : Handler σ} {payload : Json}
    {memory memory' : σ} {now : Instant} {outcome : Except Failure Json} {st : Step}
    (hhandler : (handler (e.opened graph found now) payload memory).run (e.opened graph found now) =
      ((memory', outcome), st)) (origin : Origin) :
    e.dispatch id origin handler payload memory now =
      e.ended graph st memory' now [⟨found, origin, handler, payload⟩] outcome := by
  unfold opened at hhandler
  unfold dispatch
  simp only [h, hhandler]
  cases outcome with
  | error failure => rfl
  | ok value =>
    unfold ended leave
    dsimp only
    split
    · next heq => rw [heq]; rfl
    · next heq => rw [heq]; rfl

/-- So a dispatch of an activity that may be run ends in one of these two ways, with the step that
the handler leaves. -/
theorem dispatch_ran {e : Engine σ} {id : String} {graph : Graph} {found : Activity}
    (h : e.toRun id = .ok (graph, found)) (origin : Origin) (handler : Handler σ) (payload : Json)
    (memory : σ) (now : Instant) {st : Step}
    (hst : st = e.worked graph found handler payload memory now) :
    (∃ memory' err, e.dispatch id origin handler payload memory now =
        ⟨e.leave st, memory', .error err, [⟨found, origin, handler, payload⟩]⟩) ∨
      ∃ memory' payload', e.dispatch id origin handler payload memory now =
        ⟨((e.leave st).conclude graph st.activity now).1, memory',
          ((e.leave st).conclude graph st.activity now).2.elim (.ok payload') .error,
          [⟨found, origin, handler, payload⟩]⟩ := by
  unfold worked at hst
  rcases hrun : (handler (e.opened graph found now) payload memory).run (e.opened graph found now)
    with ⟨⟨memory', failure | payload'⟩, left⟩
  · rw [hrun] at hst
    subst hst
    exact .inl ⟨memory', _, dispatch_eq h hrun origin⟩
  · rw [hrun] at hst
    subst hst
    exact .inr ⟨memory', payload', dispatch_eq h hrun origin⟩

/-- A handler leaves a step that its actions lead to. -/
theorem reaches_worked {allowed : Step.Action → Prop} (e : Engine σ) (graph : Graph)
    (found : Activity) {handler : Handler σ} (within : handler.Within allowed) (payload : Json)
    (memory : σ) (now : Instant) :
    Step.Reaches allowed (e.opened graph found now)
      (e.worked graph found handler payload memory now) :=
  Program.reaches_run (within _ payload memory) .refl

/-- A dispatch leaves the engine as it is, or a handler takes the live activity from step to step
until it is written back, and unless the handler failed the activity is concluded. -/
theorem dispatch_cases {allowed : Step.Action → Prop} (e : Engine σ) (id : String)
    (origin : Origin) {handler : Handler σ} (within : handler.Within allowed) (payload : Json)
    (memory : σ) (now : Instant) :
    (e.dispatch id origin handler payload memory now).engine = e ∨
      ∃ graph found st, e.graph = some graph ∧ e.history.headById? id = some found ∧
        found.isEntered ∧ Step.Reaches allowed (e.opened graph found now) st ∧
        ((e.dispatch id origin handler payload memory now).engine = e.leave st ∨
          (e.dispatch id origin handler payload memory now).engine =
            ((e.leave st).conclude graph st.activity now).1) := by
  cases hrun : e.toRun id with
  | error err => exact .inl (by rw [dispatch_refused hrun])
  | ok r =>
    obtain ⟨graph, found⟩ := r
    obtain ⟨hg, hfound, hentered⟩ := toRun_ok_iff.mp hrun
    refine .inr ⟨graph, found, _, hg, hfound, hentered,
      e.reaches_worked graph found within payload memory now, ?_⟩
    rcases dispatch_ran hrun origin handler payload memory now rfl with
      ⟨memory', err, h⟩ | ⟨memory', payload', h⟩
    · exact .inl (by rw [h])
    · exact .inr (by rw [h])

/-- A dispatch that answers a payload has run an entered activity, and nothing refused. -/
theorem dispatch_ok {e : Engine σ} {id : String} {origin : Origin} {handler : Handler σ}
    {payload value : Json} {memory : σ} {now : Instant}
    (h : (e.dispatch id origin handler payload memory now).reply = .ok value) :
    ∃ graph found, e.toRun id = .ok (graph, found) ∧
      (e.dispatch id origin handler payload memory now).engine =
        ((e.leave (e.worked graph found handler payload memory now)).conclude graph
          (e.worked graph found handler payload memory now).activity now).1 := by
  cases hrun : e.toRun id with
  | error err =>
    rw [dispatch_refused hrun] at h
    cases h
  | ok r =>
    obtain ⟨graph, found⟩ := r
    refine ⟨graph, found, rfl, ?_⟩
    rcases dispatch_ran hrun origin handler payload memory now rfl with
      ⟨memory', err, heq⟩ | ⟨memory', payload', heq⟩
    · rw [heq] at h
      cases h
    · rw [heq]

/-- A dispatch changes only the history and the course. -/
theorem dispatch_frame (e : Engine σ) (id : String) (origin : Origin) (handler : Handler σ)
    (payload : Json) (memory : σ) (now : Instant) :
    (e.dispatch id origin handler payload memory now).engine.graph = e.graph ∧
      (e.dispatch id origin handler payload memory now).engine.handlers = e.handlers := by
  rcases dispatch_cases e id origin handler.within_all payload memory now with
    h | ⟨graph, found, st, -, -, -, -, h | h⟩
  · rw [h]; exact ⟨rfl, rfl⟩
  · rw [h]; exact ⟨rfl, rfl⟩
  · rw [h]; exact conclude_frame (e.leave st) graph st.activity now

/-- A dispatch answers what the handler does, if the activity that it leaves is concluded without a
refusal. -/
theorem dispatch_of_run {e e' : Engine σ} {graph : Graph} {id : String} {a : Activity} {st : Step}
    {handler : Handler σ} {payload value : Json} {memory memory' : σ} {now : Instant}
    (hrun : e.toRun id = .ok (graph, a))
    (hhandler : (handler (e.opened graph a now) payload memory).run (e.opened graph a now) =
      ((memory', .ok value), st))
    (hconclude : (e.leave st).conclude graph st.activity now = (e', none)) (origin : Origin) :
    e.dispatch id origin handler payload memory now =
      ⟨e', memory', .ok value, [⟨a, origin, handler, payload⟩]⟩ := by
  rw [dispatch_eq hrun hhandler]
  simp only [ended, hconclude, Option.elim]

/-- A handler that finishes an entered activity sends the flow on along the route of the activity,
when no target refuses. -/
theorem dispatch_of_finishesIn {e : Engine σ} {graph : Graph} {id : String} {a x : Activity}
    {handler : Handler σ} {now : Instant} {route : List String} {fresh : List Activity}
    (hrun : e.toRun id = .ok (graph, a)) (finishes : handler.FinishesIn (e.opened graph a now))
    (hx : x = (a.set .started now).set .finished now) (hroutes : x.routes? = some (route, x))
    (hfresh : (graph.advance route (e.history.retire x).head now).fresh = .ok fresh)
    (origin : Origin) (payload : Json) (memory : σ) :
    ∃ memory', e.dispatch id origin handler payload memory now =
      ⟨finishIfDone { e with history := e.history.onward graph route x now } now, memory',
        .ok payload, [⟨a, origin, handler, payload⟩]⟩ := by
  obtain ⟨memory', hfinish⟩ := finishes payload memory
  refine ⟨memory', dispatch_of_run hrun hfinish ?_ origin⟩
  -- What the handler wrote back is logged, and no trace of it stays among the live activities.
  have hcomplete : ({ e with history := e.history.writeBack x } : Engine σ).complete graph x now =
      ({ e with history := e.history.onward graph route x now }, none) := by
    rw [← History.retire_writeBack e.history rfl] at hfresh
    rw [complete_of_routes _ graph now hroutes, History.onward_writeBack e.history graph route rfl,
      Graph.Advance.refusal?, hfresh]
  rw [hx] at hcomplete ⊢
  exact conclude_of_complete (Activity.status_set ..) hcomplete

end Engine

end Workflow
