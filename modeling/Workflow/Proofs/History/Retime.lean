import Workflow.Handler
import Workflow.Proofs.Activity.Retime
import Workflow.Proofs.Engine.Dispatch

/-!
# Histories and steps at other times

What an engine and a handler do to a history does not depend on the instants that its activities
keep, no more than what is done to a single activity does.  Every operation on a history and every
action on a step is the same before and after a change of the instants (`Step.perform_retime`).

A handler sees the step that it works on, and with it the instants.  It is blind to a change of them
when it does the same whether they are changed or not (`Handler.Blind`).  Every handler is blind to
the change that changes nothing.  A handler is blind to any change to which its programs are: they
do the same actions, and go on alike, before and after it (`Handler.blind_of_alike`).  So a handler
that only does actions, without looking at the step, is blind to all (`Handler.blind_of_heedless`),
and so is the default policy.
-/

namespace Workflow

namespace History

/-- The history with all stamps changed. -/
def retime (f : Instant → Instant) (h : History) : History :=
  ⟨h.head.map (·.retime f), h.stack.map (·.retime f)⟩

variable (f : Instant → Instant) (h : History) (a : Activity) (now : Instant)

@[simp]
theorem retime_id : (h.retime fun t => t) = h := by
  simp [retime]

/-- A search for a live activity by its id. -/
theorem headById?_retime (id : String) :
    (h.retime f).headById? id = (h.headById? id).map (·.retime f) :=
  find?_retime f h.head (·.id == id) fun _ => rfl

/-- A search for a live activity by its name. -/
theorem headByName?_retime (name : String) :
    (h.retime f).headByName? name = (h.headByName? name).map (·.retime f) :=
  find?_retime f h.head (·.hasName name) fun _ => rfl

/-- A search for the activity of an id that completed last. -/
theorem lastCompleted?_retime (id : String) :
    (h.retime f).lastCompleted? id = (h.lastCompleted? id).map (·.retime f) := by
  unfold lastCompleted? retime
  rw [← List.map_reverse]
  exact find?_retime f h.stack.reverse (·.id == id) fun _ => rfl

/-- Writing back. -/
@[simp]
theorem retime_writeBack : (h.writeBack a).retime f = (h.retime f).writeBack (a.retime f) := by
  have hwrite := updateFirst_retime f h.head (·.id == a.id) (fun _ => rfl) a
  unfold writeBack updateById retime
  rw [← hwrite]
  rfl

/-- Logging. -/
@[simp]
theorem retime_retire : (h.retire a).retime f = (h.retime f).retire (a.retime f) := by
  simp [retire, retime, List.filter_map, Function.comp_def]

/-- Whether an id is live. -/
theorem any_id_retime (as : List Activity) (id : String) :
    (as.map (·.retime f)).any (·.id == id) = as.any (·.id == id) := by
  simp [List.any_map, Function.comp_def]

/-- Joining the live activities. -/
theorem join_retime (head : List Activity) :
    join (head.map (·.retime f)) (a.retime f) = (join head a).map (·.retime f) := by
  unfold join
  rw [Activity.id_retime, any_id_retime]
  split
  · rfl
  · rw [List.map_append]
    rfl

/-- Joining the live activities one after another. -/
@[simp]
theorem retime_merge (successors : List Activity) :
    (h.merge successors).retime f = (h.retime f).merge (successors.map (·.retime f)) := by
  have hjoins : ∀ head, (successors.map (·.retime f)).foldl join (head.map (·.retime f)) =
      (successors.foldl join head).map (·.retime f) := by
    induction successors with
    | nil => exact fun _ => rfl
    | cons b successors ih =>
      intro head
      rw [List.map_cons, List.foldl_cons, List.foldl_cons, join_retime, ih]
  unfold merge retime
  rw [hjoins]

/-- Being made live. -/
@[simp]
theorem retime_pushHead : (h.pushHead a).retime f = (h.retime f).pushHead (a.retime f) := by
  unfold pushHead
  have hany : (h.retime f).head.any (·.id == (a.retime f).id) = h.head.any (·.id == a.id) :=
    any_id_retime f h.head a.id
  rw [hany]
  split
  · exact retime_writeBack f h a
  · simp [retime]

/-- Following a route from a logged activity. -/
@[simp]
theorem retime_onward (g : Graph) (route : List String) :
    (h.onward g route a now).retime f = (h.retime f).onward g route (a.retime f) (f now) := by
  have hhead : ((h.retime f).retire (a.retime f)).head =
      ((h.retire a).head).map (·.retime f) := by
    rw [← retime_retire]
    rfl
  unfold onward
  rw [hhead, Graph.advance_retime, retime_merge, ← retime_retire]
  unfold Graph.Advance.made
  cases (g.advance route (h.retire a).head now).fresh with
  | ok fresh => rfl
  | error err => rfl

end History

namespace Step

/-- The step with all stamps changed, and the instant of the call. -/
def retime (f : Instant → Instant) (st : Step) : Step :=
  { st with activity := st.activity.retime f, history := st.history.retime f, now := f st.now }

variable (f : Instant → Instant) (st : Step)

@[simp]
theorem retime_id : (st.retime fun t => t) = st := by
  simp [retime]

/-- An edit of the retimed step. -/
theorem edit_retime (e : Edit) : (st.retime f).edit e = (st.edit e).map (·.retime f) := by
  unfold edit
  rw [show (st.retime f).activity.edit (st.retime f).now e =
    (st.activity.edit st.now e).map (·.retime f) from st.activity.edit_retime f st.now e]
  cases st.activity.edit st.now e with
  | ok a => rfl
  | error err => rfl

/-- A choice of an outgoing edge in the retimed step. -/
theorem selectOutgoing_retime (operation : Operation) (key : String) (target : Option Activity) :
    (st.retime f).selectOutgoing operation key target =
      (st.selectOutgoing operation key target).map (·.retime f) := by
  unfold selectOutgoing
  have hkind : (st.retime f).activity.kind = st.activity.kind.retime f := rfl
  cases hk : st.activity.kind with
  | gateway w => simp only [hkind, hk, Kind.retime, edit_retime]
  | task t => simp only [hkind, hk, Kind.retime]; rfl
  | event v => simp only [hkind, hk, Kind.retime]; rfl

/-- The target of a redirection, at other times. -/
theorem redirected_retime (completed : Option Activity) (definition : Activity) (edge : String)
    (now : Instant) : redirected (completed.map (·.retime f)) definition edge (f now) =
      (redirected completed definition edge now).retime f := by
  unfold redirected
  cases completed with
  | none => simp
  | some previous => simp

/-- A redirection in the retimed step. -/
theorem redirectAlong_retime (edge : String) (h : History) (flow : Flow) :
    (st.retime f).redirectAlong edge (h.retime f) flow =
      (st.redirectAlong edge h flow).retime f := by
  unfold redirectAlong
  have hgraph : (st.retime f).graph = st.graph := rfl
  rw [hgraph]
  cases st.graph.activity? flow.target with
  | none => rfl
  | some d =>
    dsimp only
    rw [History.lastCompleted?_retime, History.retime_pushHead, ← redirected_retime]
    rfl

/-- Redirections in turn in the retimed step. -/
theorem foldl_redirectAlong_retime (edge : String) (flows : List Flow) (h : History) :
    flows.foldl ((st.retime f).redirectAlong edge) (h.retime f) =
      (flows.foldl (st.redirectAlong edge) h).retime f := by
  induction flows generalizing h with
  | nil => rfl
  | cons flow flows ih => rw [List.foldl_cons, List.foldl_cons, redirectAlong_retime, ih]

/-- A takeover in the retimed step. -/
theorem takeBoundaryEvent_retime :
    (st.retime f).takeBoundaryEvent = st.takeBoundaryEvent.map (·.retime f) := by
  unfold takeBoundaryEvent
  have hkind : (st.retime f).activity.kind = st.activity.kind.retime f := rfl
  cases hk : st.activity.kind with
  | gateway w => simp only [hkind, hk, Kind.retime]; rfl
  | event v => simp only [hkind, hk, Kind.retime]; rfl
  | task t =>
    simp only [hkind, hk, Kind.retime]
    cases hb : t.boundary with
    | none => rfl
    | some b =>
      have hflows := st.foldl_redirectAlong_retime f b.outgoing (st.graph.edgesFrom b.id) st.history
      have hboundary := st.activity.retime_setBoundary f st.now .finished
      simp only [Option.map_some, Except.map, retime, hboundary, ← hflows]
      rfl

/-- Stopping the other branches in the retimed step. -/
theorem stopAllExceptThis_retime :
    (st.retime f).stopAllExceptThis = st.stopAllExceptThis.retime f := by
  have hstop : ∀ a : Activity,
      (if (a.retime f).id = (st.retime f).activity.id then a.retime f
        else (a.retime f).set .stopped (st.retime f).now) =
      (if a.id = st.activity.id then a else a.set .stopped st.now).retime f := by
    intro a
    by_cases h : a.id = st.activity.id
    · have h' : (a.retime f).id = (st.retime f).activity.id := h
      rw [if_pos h, if_pos h']
    · have h' : ¬ (a.retime f).id = (st.retime f).activity.id := h
      rw [if_neg h, if_neg h', Activity.retime_set]
      rfl
  have hhead : (st.history.head.map (·.retime f)).map (fun a =>
        if a.id = (st.retime f).activity.id then a else a.set .stopped (st.retime f).now) =
      (st.history.head.map fun a =>
        if a.id = st.activity.id then a else a.set .stopped st.now).map (·.retime f) := by
    rw [List.map_map, List.map_map]
    exact List.map_congr_left fun a _ => hstop a
  exact congrArg (fun head => { st.retime f with
    history := { (st.retime f).history with head } }) hhead

/-- An action on the retimed step. -/
theorem perform_retime (action : Action) :
    (st.retime f).perform action = (st.perform action).map (·.retime f) := by
  cases action with
  | edit e => exact st.edit_retime f e
  | takeOutgoingById id => exact st.selectOutgoing_retime f _ _ _
  | takeOutgoingByName name => exact st.selectOutgoing_retime f _ _ _
  | refreshAllOutgoing =>
    simp only [perform, refreshAllOutgoing]
    have hkind : (st.retime f).activity.kind = st.activity.kind.retime f := rfl
    cases hk : st.activity.kind with
    | gateway w => simp only [hkind, hk, Kind.retime, edit_retime]
    | task t => simp only [hkind, hk, Kind.retime]; rfl
    | event v => simp only [hkind, hk, Kind.retime]; rfl
  | takeBoundaryEvent => exact st.takeBoundaryEvent_retime f
  | stopAllExceptThis => exact congrArg Except.ok (st.stopAllExceptThis_retime f)

end Step

namespace Program

variable {α : Type} {f : Instant → Instant}

/-- Whether a program does in a step what another does in the step at other times: both do the same
actions, and they go on so whatever an action comes to. -/
inductive Alike (f : Instant → Instant) : Program α → Program α → Prop where
  /-- They end in the same value. -/
  | done (a : α) : Alike f (.done a) (.done a)
  /-- They do the same action. -/
  | act (action : Step.Action) {next next' : Option Error → Step → Program α}
      (later : ∀ refusal st, Alike f (next refusal st) (next' refusal (st.retime f))) :
      Alike f (.act action next) (.act action next')

/-- Programs that are alike come to the same value, and what they leave is changed alike. -/
theorem Alike.run {p p' : Program α} (h : p.Alike f p') (st : Step) :
    p'.run (st.retime f) = ((p.run st).1, (p.run st).2.retime f) := by
  induction h generalizing st with
  | done a => rfl
  | act action later ih =>
    unfold Program.run
    rw [st.perform_retime f action]
    cases st.perform action with
    | ok st' => exact ih none st' st'
    | error err => exact ih (some err) st st

/-- Whether a program goes on without a look at the step, though in view of what is refused. -/
def Heedless : Program α → Prop
  | done _ => True
  | act _ next => ∀ refusal, (∀ st st', next refusal st = next refusal st') ∧
      ∀ st, (next refusal st).Heedless

/-- A program that does not look at the step does the same at all times. -/
theorem Heedless.alike {p : Program α} (h : p.Heedless) (f : Instant → Instant) : p.Alike f p := by
  induction p with
  | done a => exact .done a
  | act action next ih =>
    refine .act action fun refusal st => ?_
    obtain ⟨hsame, hnext⟩ := h refusal
    rw [hsame (st.retime f) st]
    exact ih refusal st (hnext st)

end Program

namespace Handler

variable {σ : Type} {f : Instant → Instant} {handler : Handler σ}

/-- Whether a handler does not see a change of the instants: it comes to the same value, and what it
leaves is changed alike. -/
def Blind (f : Instant → Instant) (handler : Handler σ) : Prop :=
  ∀ st payload memory, (handler (st.retime f) payload memory).run (st.retime f) =
    (((handler st payload memory).run st).1, ((handler st payload memory).run st).2.retime f)

/-- No handler sees that nothing is changed. -/
theorem blind_id (handler : Handler σ) : handler.Blind fun t => t := by
  intro st payload memory
  simp

/-- A handler does not see a change to which its programs are alike. -/
theorem blind_of_alike (alike : ∀ st payload memory,
    (handler st payload memory).Alike f (handler (st.retime f) payload memory)) :
    handler.Blind f :=
  fun st payload memory => (alike st payload memory).run st

/-- A handler that only does actions, the same ones at other times, does not look at instants. -/
theorem blind_of_heedless (same : ∀ st payload memory,
    handler (st.retime f) payload memory = handler st payload memory)
    (heedless : ∀ st payload memory, (handler st payload memory).Heedless) : handler.Blind f := by
  refine blind_of_alike fun st payload memory => ?_
  rw [same]
  exact (heedless st payload memory).alike f

/-- The default policy does not look at instants: what it does is decided by the tokens of a gateway
and told with its id. -/
theorem blind_default (f : Instant → Instant) : (default : Handler σ).Blind f := by
  refine blind_of_heedless (fun st payload memory => ?_) fun st payload memory => ?_
  · have hkind : (st.retime f).activity.kind = st.activity.kind.retime f := rfl
    have hid : (st.retime f).activity.id = st.activity.id := rfl
    cases hk : st.activity.kind with
    | task t => simp only [default, defaultPolicy, hkind, hk, Kind.retime]
    | event e => simp only [default, defaultPolicy, hkind, hk, Kind.retime]
    | gateway w => simp only [default, defaultPolicy, hkind, hid, hk, Kind.retime]
  · -- At most one action is done, and the end does not depend on what it comes to.
    simp only [default, defaultPolicy]
    split
    · exact trivial
    · exact fun _ => ⟨fun _ _ => rfl, fun _ => trivial⟩
    · exact fun _ => ⟨fun _ _ => rfl, fun _ => trivial⟩

end Handler

end Workflow
