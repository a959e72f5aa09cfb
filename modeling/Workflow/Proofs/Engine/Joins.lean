import Workflow.Proofs.Activity.Tokens
import Workflow.Proofs.Document.Builder
import Workflow.Proofs.Engine.Reachable

/-!
# Joins wait for their branches

An arrival takes the first untaken token of any edge on the route, not the token of the edge it came
along.  A join is right all the same, as long as handlers take no token of arrival themselves.  The
reason is an invariant of the history (`History.Grounded`): whenever the token of an edge is taken
at a live gateway, the source of the edge has finished since the gateway was last logged.  For the
edges of one route have one source, the activity that has just finished, so it does not matter which
of their tokens is taken.

From this follows what a finished gateway on the stack says about the entries below it
(`Engine.RunsWithin.finished_gateway`).
-/

namespace Workflow

/-- Whether the log has a finished entry of the source since the last entry of `id`, which may be
that entry itself. -/
def CompletedSince (stack : List Activity) (id source : String) : Prop :=
  ∃ before x later, stack = before ++ x :: later ∧ x.id = source ∧ x.status = some .finished ∧
    ∀ y ∈ later, y.id ≠ id

namespace CompletedSince

variable {stack : List Activity} {id source : String} {a : Activity}

/-- What is logged as finished has completed since. -/
theorem logged (h : a.id = source) (finished : a.status = some .finished) :
    CompletedSince (stack ++ [a]) id source :=
  ⟨stack, a, [], rfl, h, finished, fun _ hy => nomatch hy⟩

/-- The entry of another activity changes nothing. -/
theorem append (h : CompletedSince stack id source) (hne : a.id ≠ id) :
    CompletedSince (stack ++ [a]) id source := by
  obtain ⟨before, x, later, rfl, hid, hfinished, hlater⟩ := h
  refine ⟨before, x, later ++ [a], by simp, hid, hfinished, fun y hy => ?_⟩
  rcases List.mem_append.mp hy with hy | hy
  · exact hlater y hy
  · rw [List.mem_singleton.mp hy]; exact hne

/-- The entry by its place: it is none before the last entry of `id`. -/
theorem exists_index (h : CompletedSince stack id source) :
    ∃ (k : Nat) (x : Activity), stack[k]? = some x ∧ x.id = source ∧
      x.status = some .finished ∧ ∀ (j : Nat) (y : Activity), stack[j]? = some y → y.id = id →
        j ≤ k := by
  obtain ⟨before, x, later, rfl, hid, hfinished, hlater⟩ := h
  refine ⟨before.length, x, by simp, hid, hfinished, fun j y hy hyid => ?_⟩
  by_contra hlt
  -- An entry behind the found one is among the later ones.
  have hj : j = before.length + 1 + (j - before.length - 1) := by omega
  have hlaterEntry : later[j - before.length - 1]? = some y := by
    rw [hj, List.getElem?_append_right (by omega)] at hy
    have hsub : before.length + 1 + (j - before.length - 1) - before.length =
        j - before.length - 1 + 1 := by omega
    rw [hsub, List.getElem?_cons_succ] at hy
    exact hy
  exact hlater y (List.mem_of_getElem? hlaterEntry) hyid

end CompletedSince

/-- Whether the action takes no token of arrival: it is neither a direct edit of one nor a
takeover. -/
def Step.Action.LeavesArrivals : Step.Action → Prop
  | .edit (.takeIncoming _) => False
  | .takeBoundaryEvent => False
  | _ => True

namespace Activity

variable {b : Builder} {stack : List Activity} {a : Activity}

/-- Whether the source of every incoming edge with a taken token has completed since the activity
was last logged. -/
def Grounded (b : Builder) (stack : List Activity) (a : Activity) : Prop :=
  ∀ f ∈ b.flows, a.HasTaken f.id → CompletedSince stack a.id f.source

/-- An activity with the id and the tokens of a grounded one is grounded. -/
theorem Grounded.of_tokens (h : a.Grounded b stack) {a' : Activity} (hid : a'.id = a.id)
    (htokens : a'.tokens = a.tokens) : a'.Grounded b stack := by
  intro f hf htaken
  rw [hid]
  refine h f hf ?_
  unfold HasTaken at htaken ⊢
  rwa [htokens] at htaken

/-- The entry of another activity leaves an activity grounded. -/
theorem Grounded.append (h : a.Grounded b stack) {x : Activity} (hne : x.id ≠ a.id) :
    a.Grounded b (stack ++ [x]) :=
  fun f hf htaken => (h f hf htaken).append hne

/-- A blank activity is grounded. -/
theorem Grounded.of_blank (h : a.blank = a) : a.Grounded b stack :=
  fun f _ htaken => absurd htaken (not_hasTaken_of_blank h f.id)

/-- An arrival along edges that leave a finished activity, which has just been logged, leaves the
target grounded. -/
theorem Grounded.arrive (distinct : (b.flows.map (·.id)).Nodup) {x : Activity}
    (h : a.Grounded b (stack ++ [x])) (finished : x.status = some .finished) {route : List String}
    (hroute : ∀ edge ∈ route, ∃ f ∈ b.flows, f.id = edge ∧ f.source = x.id) (now : Instant) :
    (a.arrive route now).1.Grounded b (stack ++ [x]) := by
  intro f hf htaken
  rw [id_arrive]
  rcases (hasTaken_of_updateFirst (tokens_arrive a route now) f.id).mp htaken with
    hbefore | ⟨t, ht, hedge⟩
  · exact h f hf hbefore
  · -- The taken token is of an edge on the route, whichever it is.
    have haccepted := List.find?_some ht
    have hmem : f.id ∈ route := by
      rw [← hedge]
      simpa using (Bool.and_eq_true_iff.mp haccepted).2
    obtain ⟨f', hf', hid, hsource⟩ := hroute f.id hmem
    obtain rfl := Builder.flow_eq_of_id distinct hf' hf hid
    exact .logged hsource.symm finished

/-- Whether the entries below justify that a gateway has finished: the sources of all incoming edges
have completed since it was last logged, or, for an exclusive one, the source of some edge. -/
def Justified (b : Builder) (stack : List Activity) (a : Activity) : Prop :=
  ∀ w, a.kind = .gateway w →
    (w.kind = .parallel ∨ w.kind = .inclusive →
      ∀ f ∈ b.flows, f.target = a.id → CompletedSince stack a.id f.source) ∧
    (w.kind = .exclusive →
      ∃ f ∈ b.flows, f.target = a.id ∧ CompletedSince stack a.id f.source)

end Activity

namespace History

/-- Whether the tokens at live gateways and the finished gateways of the log are accounted for by
the entries of the log. -/
structure Grounded (b : Builder) (h : History) : Prop where
  /-- Live activities are grounded in the log. -/
  live : ∀ a ∈ h.head, a.Grounded b h.stack
  /-- Finished entries are justified by the entries below them. -/
  logged : ∀ before a later, h.stack = before ++ a :: later → a.status = some .finished →
    a.Justified b before

variable {b : Builder} {h : History}

/-- Writing a grounded activity back. -/
theorem Grounded.writeBack (hh : h.Grounded b) {a : Activity} (ha : a.Grounded b h.stack) :
    (h.writeBack a).Grounded b where
  live := forall_updateFirst hh.live fun _ _ _ => ha
  logged := hh.logged

/-- Logging an activity that is justified if it has finished. -/
theorem Grounded.retire (hh : h.Grounded b) {a : Activity}
    (ha : a.status = some .finished → a.Justified b h.stack) : (h.retire a).Grounded b where
  live := by
    intro x hx
    obtain ⟨hx, hne⟩ := List.mem_filter.mp hx
    exact (hh.live x hx).append fun hid => by simp [hid] at hne
  logged := by
    intro before x later hs hfinished
    rcases split_append hs with ⟨rfl, rfl⟩ | ⟨later', hs'⟩
    · exact ha hfinished
    · exact hh.logged before x later' hs' hfinished

variable {g : Graph}

/-- Following a route of edges that leave the logged activity keeps the history grounded, also when
a target refuses. -/
theorem Grounded.onward (hg : g.WellFormed) (distinct : (b.flows.map (·.id)).Nodup)
    (hh : h.Grounded b) {a : Activity} (finished : a.status = some .finished)
    (ha : a.Justified b h.stack) {route : List String}
    (hroute : ∀ edge ∈ route, ∃ f ∈ b.flows, f.id = edge ∧ f.source = a.id) (now : Instant) :
    (h.onward g route a now).Grounded b := by
  have hr := hh.retire fun _ => ha
  -- Nothing has arrived at a new activity before this route.
  have hmade : ∀ id d, g.activity? id = some d →
      (d.instantiate now).Grounded b (h.retire a).stack := by
    intro id d hd
    have hdefinition : d.Grounded b (h.retire a).stack := .of_blank (hg.blank_activity? hd)
    exact hdefinition.of_tokens (d.id_instantiate now) (d.tokens_instantiate now)
  have harrive : ∀ x : Activity, x.Grounded b (h.retire a).stack →
      (x.arrive route now).1.Grounded b (h.retire a).stack :=
    fun x hx => hx.arrive distinct finished hroute now
  exact ⟨forall_onward harrive (fun id d hd => harrive _ (hmade id d hd)) hr.live, hr.logged⟩

end History

/-! ## Splits and joins of an instance -/

namespace Gateway

/-- A gateway whose join holds has all tokens of arrival taken, or some if it is exclusive. -/
theorem taken_of_joinSatisfied {w : Gateway} (h : w.joinSatisfied = true) :
    (w.kind = .parallel ∨ w.kind = .inclusive →
      ∀ t ∈ Document.records w.incoming, t.taken = true) ∧
    (w.kind = .exclusive → ∃ t ∈ Document.records w.incoming, t.taken = true) := by
  unfold joinSatisfied at h
  constructor
  · rintro (hk | hk)
    · rw [hk] at h
      exact (Tokens.allTaken_iff.mp h).2
    · rw [hk] at h
      exact (Tokens.allTaken_iff.mp h).2
  · intro hk
    rw [hk] at h
    exact Tokens.anyTaken_iff.mp h

/-- A split does not change the kind. -/
theorem kind_afterSplit (w : Gateway) : w.afterSplit.kind = w.kind := by
  unfold afterSplit
  split <;> rfl

end Gateway

section Instance

variable {b : Builder} {g : Graph} {a a' : Activity} {route : List String}

/-- A finished instance goes on along flows that leave it. -/
theorem Builder.routes_leave (h : b.build.compile = .ok g) (ha : g.Defines a)
    (hr : a.routes? = some (route, a')) :
    ∀ edge ∈ route, ∃ f ∈ b.flows, f.id = edge ∧ f.source = a.id := by
  have hout := (edges_of_defines h ha).2
  have hleaves : ∀ edge ∈ Document.records a.outgoing, ∃ f ∈ b.flows, f.id = edge ∧
      f.source = a.id := by
    intro edge hedge
    rw [hout, records_outgoingOf] at hedge
    obtain ⟨f, hf, rfl⟩ := List.mem_map.mp hedge
    obtain ⟨hmem, hsource⟩ := List.mem_filter.mp hf
    exact ⟨f, hmem, rfl, eq_of_beq hsource⟩
  have hroute := (Document.wellFormed_of_compile h).routes_subset ha hr
  exact fun edge hedge => hleaves edge (hroute edge hedge)

/-- A grounded gateway whose join holds is justified in finishing. -/
theorem Activity.Grounded.justified {stack : List Activity} (h : b.build.compile = .ok g)
    (ha : g.Defines a) (hground : a.Grounded b stack) (hr : a.routes? = some (route, a')) :
    a'.Justified b stack := by
  intro w' hw'
  -- The gateway part before the split.
  obtain ⟨w, hw⟩ : ∃ w, a.kind = .gateway w := by
    cases hk : a.gateway? with
    | some w => exact ⟨w, kind_of_gateway? hk⟩
    | none =>
      rw [routes_of_not_gateway hk] at hr
      cases hr
      exact ⟨w', hw'⟩
  obtain ⟨hjoin, -, rfl⟩ := routes_gateway hw hr
  obtain rfl : w.afterSplit = w' := Kind.gateway.inj hw'
  obtain ⟨hall, hany⟩ := Gateway.taken_of_joinSatisfied hjoin
  rw [← tokens_of_gateway hw] at hall hany
  rw [w.kind_afterSplit]
  constructor
  · intro hk f hf htarget
    obtain ⟨t, ht, hedge⟩ := Builder.exists_token h ha hw hf htarget
    exact hground f hf ⟨t, ht, hall hk t ht, hedge⟩
  · intro hk
    obtain ⟨t, ht, htaken⟩ := hany hk
    obtain ⟨f, hf, hid, htarget⟩ := Builder.exists_flow_of_token h ha ht
    exact ⟨f, hf, htarget, hground f hf ⟨t, ht, htaken, hid.symm⟩⟩

end Instance

/-! ## Steps, dispatches and runs -/

/-- Whether a step is on a coherent and grounded history, with a grounded activity to work on. -/
structure Step.Grounded (b : Builder) (g : Graph) (st : Step) : Prop where
  /-- The step is coherent. -/
  coherent : st.Coherent g
  /-- The history is grounded. -/
  history : st.history.Grounded b
  /-- So is the activity. -/
  activity : st.activity.Grounded b st.history.stack

/-- An action that takes no token of arrival keeps the step grounded. -/
theorem Step.grounded_perform {b : Builder} {g : Graph} (hg : g.WellFormed) {st st' : Step}
    {action : Action} (leaves : action.LeavesArrivals) (h : st.perform action = .ok st')
    (hst : st.Grounded b g) : st'.Grounded b g := by
  have hcoherent := coherent_perform hg h hst.coherent
  rcases perform_cases h with ⟨edit, a, ha, rfl, hdirect⟩ | ⟨rfl, -⟩ | ⟨-, rfl⟩
  · -- The edit is no direct one of a token of arrival, so the tokens stay as they are.
    refine ⟨hcoherent, hst.history, ?_⟩
    refine hst.activity.of_tokens (Activity.id_edit ha) (Activity.tokens_edit ha ?_)
    rintro accepts rfl
    rw [hdirect accepts rfl] at leaves
    exact leaves
  · exact absurd leaves id
  · -- The other branches get another status and keep their tokens.
    refine ⟨hcoherent, ⟨?_, hst.history.logged⟩, hst.activity⟩
    intro a ha
    obtain ⟨a', ha', rfl⟩ := List.mem_map.mp ha
    have hlive := hst.history.live a' ha'
    split
    · exact hlive
    · exact hlive.of_tokens rfl rfl

namespace Engine

variable {σ : Type} {b : Builder} {g : Graph}

/-- Whether the engine is coherent with the process, its history is grounded, and no registered
handler takes a token of arrival. -/
structure Grounded (b : Builder) (g : Graph) (e : Engine σ) : Prop where
  /-- The engine is coherent. -/
  coherent : e.Coherent g
  /-- The history is grounded. -/
  history : e.history.Grounded b
  /-- Registered handlers leave tokens of arrival alone. -/
  handlers : ∀ table, e.handlers = some table → ∀ handler, table.Has handler →
    handler.Within Step.Action.LeavesArrivals

/-- The handlers that the engine serves leave tokens of arrival alone. -/
theorem Grounded.serves {e : Engine σ} (he : e.Grounded b g) {handler : Handler σ}
    (h : e.Serves handler) : handler.Within Step.Action.LeavesArrivals :=
  within_of_serves (fun _ => trivial) he.handlers h

/-- The conclusion of a grounded instance keeps the history grounded. -/
theorem conclude_grounded (hg : b.build.compile = .ok g)
    (distinct : (b.flows.map (·.id)).Nodup) {e : Engine σ} (he : e.history.Grounded b)
    {a : Activity} (hdefines : g.Defines a) (ha : a.Grounded b e.history.stack) (now : Instant) :
    (e.conclude g a now).1.history.Grounded b := by
  rcases conclude_history e g a now with h | ⟨hs, h⟩ | ⟨-, -, h⟩ | ⟨route, a', hs, hr, h⟩
  · rw [h]; exact he
  · rw [h]
    exact he.retire fun hfinished => by rw [hs] at hfinished; cases hfinished
  · rw [h]; exact he.writeBack (ha.of_tokens rfl rfl)
  · rw [h]
    -- The split changes the outgoing side only, and the route leaves the activity.
    have hid : a'.id = a.id := Activity.id_eq_of_blank (Activity.blank_routes hr)
    have hleave := Builder.routes_leave hg hdefines hr
    rw [← hid] at hleave
    exact he.onward (Document.wellFormed_of_compile hg) distinct
      ((Activity.status_routes hr).trans hs) (ha.justified hg hdefines hr) hleave now

/-- A dispatch with a handler that takes no token of arrival keeps the engine grounded. -/
theorem Grounded.dispatch (hg : b.build.compile = .ok g) (distinct : (b.flows.map (·.id)).Nodup)
    {e : Engine σ} (he : e.Grounded b g) (id : String) (origin : Origin) {handler : Handler σ}
    (within : handler.Within Step.Action.LeavesArrivals) (payload : Json) (memory : σ)
    (now : Instant) : (e.dispatch id origin handler payload memory now).engine.Grounded b g := by
  have hwf := Document.wellFormed_of_compile hg
  have hcoherent := he.coherent.dispatch hwf id origin handler payload memory now
  have hhandlers := (dispatch_frame e id origin handler payload memory now).2
  refine ⟨hcoherent, ?_, by rw [hhandlers]; exact he.handlers⟩
  rcases dispatch_cases e id origin within payload memory now with
    h | ⟨graph, found, st, hgraph, hfound, -, hreach, h⟩
  · rw [h]; exact he.history
  · obtain rfl : g = graph := Option.some.inj (he.coherent.graph.symm.trans hgraph)
    -- The handler is given a grounded step, and each of its actions keeps it grounded.
    have hopened : (e.opened g found now).Grounded b g := by
      refine ⟨he.coherent.opened hfound now, he.history, ?_⟩
      exact (he.history.live found (History.headById?_some hfound).1).of_tokens rfl rfl
    have hst : st.Grounded b g :=
      hreach.keeps (fun _ _ _ leaves done => Step.grounded_perform hwf leaves done) hopened
    have hleft : (e.leave st).history.Grounded b := hst.history.writeBack hst.activity
    rcases h with h | h
    · rw [h]; exact hleft
    · rw [h]
      exact conclude_grounded hg distinct hleft hst.coherent.activity hst.activity now

/-- As long as no handler takes a token of arrival, the engine is grounded. -/
theorem RunsWithin.grounded (distinct : (b.flows.map (·.id)).Nodup) {e : Engine σ}
    (h : e.RunsWithin Step.Action.LeavesArrivals b.build) :
    ∃ g, b.build.compile = .ok g ∧ e.Grounded b g := by
  induction h with
  | made within h =>
    obtain ⟨g, hg, hgraph, hhistory, hhandlers, -⟩ := withProcess_ok h
    have hwf := Document.wellFormed_of_compile hg
    refine ⟨g, hg, coherent_start hwf hgraph hhistory, ?_, ?_⟩
    · rw [hhistory]
      refine ⟨fun a ha => ?_, fun before a later hs => ?_⟩
      · rw [List.mem_singleton.mp ha]
        have hstart : g.start.Grounded b [] :=
          .of_blank (hwf.blank g.start (List.mem_cons_self ..))
        exact hstart.of_tokens (g.start.id_instantiate _) (g.start.tokens_instantiate _)
      · simp at hs
    · intro table htable
      rw [hhandlers] at htable
      cases htable
      exact within
  | called before c within ih =>
    obtain ⟨g, hg, he⟩ := ih
    refine ⟨g, hg, ?_⟩
    exact after_keeps (fun handler => handler.Within Step.Action.LeavesArrivals)
      (fun _ _ he' hserves => he'.serves hserves)
      (fun _ id origin _ payload memory now he' hmay =>
        he'.dispatch hg distinct id origin hmay payload memory now)
      (fun _ _ _ he' => ⟨⟨he'.coherent.graph, he'.coherent.history⟩, he'.history, he'.handlers⟩)
      he within
  | editedById before may h ih => exact may.elim
  | editedByName before may h ih => exact may.elim

/-- Whether the source of an edge has a finished entry below a place of the stack that is none
before the last entry of `id` below that place. -/
def CompletedBelow (b : Builder) (stack : List Activity) (i : Nat) (id edge : String) : Prop :=
  ∃ f ∈ b.flows, f.id = edge ∧ ∃ k < i, ∃ x, stack[k]? = some x ∧ x.id = f.source ∧
    x.status = some .finished ∧ ∀ j < i, ∀ y, stack[j]? = some y → y.id = id → j ≤ k

/-- What has completed since, in the part of a stack below a place. -/
theorem completedBelow_of_since {stack : List Activity} {i : Nat} {id : String} {f : Flow}
    (hf : f ∈ b.flows) (h : CompletedSince (stack.take i) id f.source) :
    CompletedBelow b stack i id f.id := by
  obtain ⟨k, x, hk, hid, hfinished, hlast⟩ := h.exists_index
  have hki : k < i := by
    have hlength := (List.getElem?_eq_some_iff.mp hk).1
    rw [List.length_take] at hlength
    omega
  rw [List.getElem?_take_of_lt hki] at hk
  refine ⟨f, hf, rfl, k, hki, x, hk, hid, hfinished, fun j hj y hy hyid => ?_⟩
  rw [← List.getElem?_take_of_lt hj] at hy
  exact hlast j y hy hyid

/-- A join never fires on missing branches.  Below a finished parallel or inclusive gateway on the
stack, and not before the last entry of that gateway, there is a finished entry of the source of
each incoming edge; below an exclusive one there is such an entry for some incoming edge. -/
theorem RunsWithin.finished_gateway (distinct : (b.flows.map (·.id)).Nodup) {e : Engine σ}
    (h : e.RunsWithin Step.Action.LeavesArrivals b.build) {i : Nat} {a : Activity} {w : Gateway}
    (entry : e.history.stack[i]? = some a) (finished : a.status = some .finished)
    (gateway : a.kind = .gateway w) :
    (w.kind = .parallel ∨ w.kind = .inclusive → ∀ edge ∈ Document.records a.incoming,
      CompletedBelow b e.history.stack i a.id edge) ∧
    (w.kind = .exclusive → ∃ edge ∈ Document.records a.incoming,
      CompletedBelow b e.history.stack i a.id edge) := by
  obtain ⟨g, hg, he⟩ := h.grounded distinct
  -- The entry is justified by those below it.
  obtain ⟨hi, hentry⟩ := List.getElem?_eq_some_iff.mp entry
  have hstack : e.history.stack =
      e.history.stack.take i ++ a :: e.history.stack.drop (i + 1) := by
    rw [← hentry, ← List.drop_eq_getElem_cons hi, List.take_append_drop]
  obtain ⟨hall, hany⟩ := he.history.logged _ a _ hstack finished w gateway
  -- Its incoming edges are the flows that lead to it.
  have hdefines := he.coherent.history.completed a (List.mem_of_getElem? entry)
  have hedges : Document.records a.incoming =
      (b.flows.filter (·.target == a.id)).map (·.id) := by
    rw [(Builder.edges_of_defines hg hdefines).1, Builder.records_incomingOf]
  rw [hedges]
  constructor
  · intro hk edge hedge
    obtain ⟨f, hf, rfl⟩ := List.mem_map.mp hedge
    obtain ⟨hf, htarget⟩ := List.mem_filter.mp hf
    exact completedBelow_of_since hf (hall hk f hf (eq_of_beq htarget))
  · intro hk
    obtain ⟨f, hf, htarget, hsince⟩ := hany hk
    refine ⟨f.id, List.mem_map_of_mem (List.mem_filter.mpr ⟨hf, ?_⟩),
      completedBelow_of_since hf hsince⟩
    rw [htarget]
    exact beq_self_eq_true _

/-- The two arrivals below the join of the process with two branches. -/
theorem finished_gateway_diamond :
    let e := ((diamond.after (.advance .null () ⟨.epoch, 9⟩)).after
      (.run "Right" .null () ⟨.epoch, 9⟩)).after (.run "Left" .null () ⟨.epoch, 9⟩)
    e.history.stack.map (·.id) = ["start", "fork", "right", "left", "join", "end"] ∧
      ∀ edge ∈ ["f_left_done", "f_right_done"],
        CompletedBelow Builder.diamond e.history.stack 4 "join" edge := by
  intro e
  have hdefault : (Handler.default : Handler Unit).Within Step.Action.LeavesArrivals :=
    Handler.within_default fun _ => trivial
  have hmade : diamond.RunsWithin Step.Action.LeavesArrivals Builder.diamond.build :=
    .made (fun handler h => HandlerTable.eq_of_has_waiting h ▸ hdefault) rfl
  have hruns : e.RunsWithin Step.Action.LeavesArrivals Builder.diamond.build :=
    .called (.called (.called hmade _ fun _ h => by cases h) _ fun _ h => by cases h) _
      fun _ h => by cases h
  exact ⟨rfl, (RunsWithin.finished_gateway (by decide) hruns (i := 4) rfl rfl rfl).1 (.inl rfl)⟩

end Engine

end Workflow
