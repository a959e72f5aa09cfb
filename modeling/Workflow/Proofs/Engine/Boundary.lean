import Workflow.Proofs.Document.Assembly
import Workflow.Proofs.Engine.Selection
import Workflow.Proofs.Engine.Takeover
import Workflow.Proofs.History.Log

/-!
# What a takeover makes live

A boundary event that is taken puts the target of its flow straight among the live activities.  The
target is resumed from the entry of its id that was logged last or, where none was, from its
definition (`History.Resumes`), and it does not matter which of the two it is: it is entered, its
choices are taken back, and the token of the flow is taken, while stamps, arrivals and the boundary
event stay as they were in what it is resumed from (`Activity.RedirectedFrom`).  A definition has no
stamps and no arrivals, so what is resumed from it is new.

An event that one flow leaves makes just one activity live (`Builder.takeover_single`).  An event
may be left by several flows, and then all of them are followed, but the record of the event holds
one edge only, that of the first.  So of the gateways that the flows lead to only the first takes
the token of the flow that it was reached by (`Builder.takeover_marks_first`).
-/

namespace Workflow

/-! ## What a branch is resumed from -/

namespace History

variable {h : History} {d source : Activity}

/-- Whether an activity is what the branch of a definition is resumed from. -/
inductive Resumes (h : History) (d : Activity) : Activity → Prop where
  /-- The entry of its id that was logged last. -/
  | logged {c : Activity} {earlier later : List Activity} (stack : h.stack = earlier ++ c :: later)
    (id : c.id = d.id) (last : ∀ x ∈ later, x.id ≠ d.id) : Resumes h d c
  /-- The definition, when no entry of its id was logged. -/
  | unlogged (never : ∀ x ∈ h.stack, x.id ≠ d.id) : Resumes h d d

/-- Whether an activity is the entry of an id that was logged last. -/
def LoggedLast (h : History) (id : String) (c : Activity) : Prop :=
  ∃ earlier later, h.stack = earlier ++ c :: later ∧ c.id = id ∧ ∀ x ∈ later, x.id ≠ id

/-- What is found last on the stack is what was logged last. -/
theorem lastCompleted?_eq_some_iff {id : String} {c : Activity} :
    h.lastCompleted? id = some c ↔ h.LoggedLast id c := by
  -- The stack is searched from its end.
  unfold lastCompleted? LoggedLast
  rw [List.find?_eq_some_iff_append]
  constructor
  · rintro ⟨hid, later, earlier, hsplit, hlater⟩
    refine ⟨earlier.reverse, later.reverse, ?_, eq_of_beq hid, fun x hx => ?_⟩
    · rw [← List.reverse_reverse h.stack, hsplit]
      simp
    · simpa using hlater x (List.mem_reverse.mp hx)
  · rintro ⟨earlier, later, hsplit, hid, hlater⟩
    refine ⟨by simpa using hid, later.reverse, earlier.reverse, ?_, fun x hx => ?_⟩
    · rw [hsplit]
      simp
    · simpa using hlater x (List.mem_reverse.mp hx)

/-- A branch is resumed from what is found last on the stack or else from the definition. -/
theorem resumes_iff : h.Resumes d source ↔ source = (h.lastCompleted? d.id).getD d := by
  constructor
  · intro hresumes
    cases hresumes with
    | @logged _ earlier later stack hid last =>
      rw [lastCompleted?_eq_some_iff.mpr ⟨earlier, later, stack, hid, last⟩]
      rfl
    | unlogged never =>
      have hnone : h.lastCompleted? d.id = none :=
        List.find?_eq_none.mpr fun x hx => by simpa using never x (List.mem_reverse.mp hx)
      rw [hnone]
      rfl
  · rintro rfl
    cases hlast : h.lastCompleted? d.id with
    | none =>
      refine .unlogged fun x hx => ?_
      simpa using List.find?_eq_none.mp hlast x (List.mem_reverse.mpr hx)
    | some c =>
      obtain ⟨earlier, later, hstack, hid, hlater⟩ := lastCompleted?_eq_some_iff.mp hlast
      exact .logged hstack hid hlater

/-- What a branch is resumed from is an instance of the definition, or the definition itself. -/
theorem Resumes.blank_eq {g : Graph} (hg : g.WellFormed) (agrees : h.Agrees g) {id : String}
    (hd : g.activity? id = some d) (hresumes : h.Resumes d source) : source.blank = d := by
  obtain ⟨hmem, rfl⟩ := Graph.activity?_some hd
  cases hresumes with
  | @logged _ earlier later stack hid last =>
    have hdefines : g.Defines source := agrees.completed source (by simp [stack])
    unfold Graph.Defines at hdefines
    rw [hid, hd] at hdefines
    exact (Option.some.inj hdefines).symm
  | unlogged never => exact hg.blank d hmem

/-- It has the id of the definition. -/
theorem Resumes.id_eq {g : Graph} (hg : g.WellFormed) (agrees : h.Agrees g) {id : String}
    (hd : g.activity? id = some d) (hresumes : h.Resumes d source) : source.id = d.id := by
  rw [← Activity.id_blank source, hresumes.blank_eq hg agrees hd]

/-- It has the definition. -/
theorem Resumes.defines {g : Graph} (hg : g.WellFormed) (agrees : h.Agrees g) {id : String}
    (hd : g.activity? id = some d) (hresumes : h.Resumes d source) : g.Defines source := by
  unfold Graph.Defines
  rw [hresumes.blank_eq hg agrees hd, hresumes.id_eq hg agrees hd,
    (Graph.activity?_some hd).2, hd]

/-- What was logged last has a taken token where what the branch is resumed from has one. -/
theorem exists_resumes_hasTaken_iff (hd : d.blank = d) {edge : String} :
    (∃ source, h.Resumes d source ∧ source.HasTaken edge) ↔
      ∃ c, h.lastCompleted? d.id = some c ∧ c.HasTaken edge := by
  simp only [resumes_iff, exists_eq_left]
  cases h.lastCompleted? d.id with
  | none => simp [Activity.not_hasTaken_of_blank hd edge]
  | some c => simp

end History

/-! ## A redirected activity -/

namespace Activity

/-- Whether an activity is one that a takeover makes live from a source, along an edge. -/
structure RedirectedFrom (a source : Activity) (edge : String) (now : Instant) : Prop where
  /-- It is an instance of the same definition. -/
  blank : a.blank = source.blank
  /-- It is entered. -/
  status : a.status = some .entered
  /-- It has been entered at the instant of the takeover, and otherwise keeps its stamps. -/
  stamps : ∀ s, a.lifecycle.reachedAt s =
    if s = .entered then some now else source.lifecycle.reachedAt s
  /-- A boundary event of its own stands where it stood. -/
  boundary : a.boundary? = source.boundary?
  /-- The token of the edge is taken, and the other tokens of arrival are as they were. -/
  arrivals : a.tokens = source.tokens.map fun t => if t.edge = edge then t.take else t
  /-- A gateway has a token of the edge. -/
  arrived : ∀ w, a.kind = .gateway w → a.HasTaken edge
  /-- No edge that leads out of a gateway is chosen. -/
  unchosen : ∀ w, a.kind = .gateway w → ∀ t ∈ Document.records w.outgoing, t.taken = false

/-- A change of the gateway part keeps the boundary event. -/
@[simp]
theorem boundary?_mapGateway (f : Gateway → Gateway) (a : Activity) :
    (a.mapGateway f).boundary? = a.boundary? := by
  unfold mapGateway
  split
  · next w hw => simp [boundary?, hw]
  · rfl

/-- A change of the boundary event is seen in it. -/
@[simp]
theorem boundary?_mapBoundary (f : BoundaryEvent → BoundaryEvent) (a : Activity) :
    (a.mapBoundary f).boundary? = a.boundary?.map f := by
  unfold mapBoundary
  cases hk : a.kind <;> simp [boundary?, hk]

/-- The gateway part after a change comes from the one before. -/
theorem exists_gateway_of_mapGateway {f : Gateway → Gateway} {a : Activity} {w : Gateway}
    (hw : (a.mapGateway f).kind = .gateway w) : ∃ v, a.kind = .gateway v ∧ w = f v := by
  unfold mapGateway at hw
  split at hw
  · next v hv => cases hw; exact ⟨v, hv, rfl⟩
  · next hnot => exact absurd hw (hnot w)

/-- What blanks to a gateway is a gateway. -/
theorem exists_gateway_of_blank {a d : Activity} (hblank : a.blank = d) {w : Gateway}
    (hw : d.kind = .gateway w) : ∃ v, a.kind = .gateway v := by
  have hkind : a.kind.blank = .gateway w := by rw [← hw, ← hblank]; rfl
  cases hk : a.kind with
  | gateway v => exact ⟨v, rfl⟩
  | task t => rw [hk] at hkind; cases hkind
  | event v => rw [hk] at hkind; cases hkind

/-- The gateway part of a definition is blank. -/
theorem gateway_of_blank {d : Activity} (hd : d.blank = d) {w : Gateway}
    (hw : d.kind = .gateway w) : w.blank = w := by
  have hkind : d.kind.blank = d.kind := congrArg Activity.kind hd
  rw [hw] at hkind
  exact Kind.gateway.inj hkind

end Activity

/-- No token that was taken back is taken. -/
theorem Tokens.not_taken_of_mem_blank {ts : Option Tokens} {t : Token}
    (ht : t ∈ Document.records (blank ts)) : t.taken = false := by
  cases ts with
  | none => cases ht
  | some ts =>
    have hmem : t ∈ (ts.map Token.release).toList := ht
    rw [OneOrMany.toList_map] at hmem
    obtain ⟨t', -, rfl⟩ := List.mem_map.mp hmem
    rfl

namespace Step

variable {st : Step} {completed : Option Activity} {d : Activity} {edge : String} {now : Instant}

/-- A redirected activity is entered and keeps its other stamps. -/
theorem reachedAt_redirected (hd : d.blank = d) (s : Status) :
    (redirected completed d edge now).lifecycle.reachedAt s =
      if s = .entered then some now else (completed.getD d).lifecycle.reachedAt s := by
  cases completed with
  | some c =>
    have hlifecycle : (redirected (some c) d edge now).lifecycle = c.lifecycle.set .entered now :=
      Activity.lifecycle_mapGateway _ _
    rw [hlifecycle, Lifecycle.reachedAt_set]
    rfl
  | none =>
    -- A definition has no stamps.
    have hlifecycle : (redirected none d edge now).lifecycle = d.lifecycle.set .entered now := by
      have hnone : d.lifecycle = {} := congrArg Activity.lifecycle hd.symm
      rw [hnone]
      exact Activity.lifecycle_mapGateway _ _
    rw [hlifecycle, Lifecycle.reachedAt_set]
    rfl

/-- A redirected activity is entered. -/
theorem status_redirected (completed : Option Activity) (d : Activity) (edge : String)
    (now : Instant) : (redirected completed d edge now).status = some .entered := by
  unfold Activity.status
  cases completed with
  | some c => rw [redirected, Activity.lifecycle_mapGateway]; rfl
  | none => rw [redirected, Activity.lifecycle_mapGateway]; rfl

/-- A redirected activity keeps its boundary event. -/
theorem boundary?_redirected (hd : d.blank = d) :
    (redirected completed d edge now).boundary? = (completed.getD d).boundary? := by
  cases completed with
  | some c => exact Activity.boundary?_mapGateway _ _
  | none =>
    have hblank : d.boundary?.map BoundaryEvent.blank = d.boundary? := by
      rw [← Activity.boundary?_blank, hd]
    have hmade : (d.instantiate now).boundary? = d.boundary?.map BoundaryEvent.blank :=
      Activity.boundary?_mapBoundary BoundaryEvent.blank d
    rw [redirected, Activity.boundary?_mapGateway, hmade, hblank]
    rfl

/-- A redirected gateway comes from a gateway, and its choices are taken back. -/
theorem exists_gateway_of_redirected (hd : d.blank = d) {w : Gateway}
    (hw : (redirected completed d edge now).kind = .gateway w) :
    ∃ v, (completed.getD d).kind = .gateway v ∧ w.outgoing = Tokens.blank v.outgoing := by
  cases completed with
  | some c =>
    obtain ⟨v, hv, rfl⟩ := Activity.exists_gateway_of_mapGateway hw
    exact ⟨v, hv, rfl⟩
  | none =>
    obtain ⟨v, hv, rfl⟩ := Activity.exists_gateway_of_mapGateway hw
    have hdefined : d.kind = .gateway v := by
      have hmade : (d.mapBoundary BoundaryEvent.blank).kind = .gateway v := hv
      unfold Activity.mapBoundary at hmade
      split at hmade
      · cases hmade
      · exact hmade
    -- Nothing is chosen in a definition.
    have hout : Tokens.blank v.outgoing = v.outgoing :=
      congrArg Gateway.outgoing (Activity.gateway_of_blank hd hdefined)
    exact ⟨v, hdefined, hout.symm⟩

/-- A redirection from a source whose edges are distinct, along one of them if it is a gateway. -/
theorem redirectedFrom_redirected (hd : d.blank = d)
    (unique : ((completed.getD d).tokens.map Token.edge).Nodup)
    (leads : ∀ w, (completed.getD d).kind = .gateway w →
      edge ∈ (completed.getD d).tokens.map Token.edge) :
    (redirected completed d edge now).RedirectedFrom (completed.getD d) edge now where
  blank := blank_redirected completed d edge now
  status := status_redirected completed d edge now
  stamps := reachedAt_redirected hd
  boundary := boundary?_redirected hd
  arrivals := by
    rw [tokens_redirected, updateFirst_eq_map Token.edge edge Token.take unique]
    simp only [beq_iff_eq]
  arrived := by
    intro w hw
    obtain ⟨v, hv, -⟩ := exists_gateway_of_redirected hd hw
    exact (hasTaken_redirected hd (leads v hv)).mpr (.inl rfl)
  unchosen := by
    intro w hw t ht
    obtain ⟨v, -, hout⟩ := exists_gateway_of_redirected hd hw
    rw [hout] at ht
    exact Tokens.not_taken_of_mem_blank ht

/-- What a branch is redirected to is an instance of its definition. -/
theorem instanceOf_redirected {g : Graph} (hg : g.WellFormed) {h : History}
    (agrees : h.Agrees g) {id : String} (hd : g.activity? id = some d) (edge : String)
    (now : Instant) : d.InstanceOf (redirected (h.lastCompleted? d.id) d edge now) := by
  have hresumes : h.Resumes d ((h.lastCompleted? d.id).getD d) := History.resumes_iff.mpr rfl
  have hmade := blank_redirected (h.lastCompleted? d.id) d edge now
  have hinstance := Activity.instanceOf_blank hg ((hresumes.defines hg agrees hd).of_blank hmade)
  rwa [hmade, hresumes.blank_eq hg agrees hd] at hinstance

/-- A takeover along one flow to a target that is not live makes just the redirected target live. -/
theorem takeBoundaryEvent_single {t : Task} {b : BoundaryEvent} {f : Flow}
    (task : st.activity.kind = .task t) (attached : t.boundary = some b)
    (single : st.graph.edgesFrom b.id = [f]) (defined : st.graph.activity? f.target = some d)
    (absent : f.target ∉ st.history.head.map (·.id)) :
    st.perform .takeBoundaryEvent = .ok { st with
      history := { st.history with head := st.history.head ++
        [redirected (st.history.lastCompleted? d.id) d b.outgoing st.now] }
      activity := { st.activity with kind := .task { t with
        boundary := some { b with lifecycle := b.lifecycle.set .finished st.now } } } } := by
  let a := redirected (st.history.lastCompleted? d.id) d b.outgoing st.now
  have hpushed : st.history.pushHead a =
      { st.history with head := st.history.head ++ [a] } := by
    have hid : a.id = f.target := (id_redirected ..).trans (Graph.activity?_some defined).2
    unfold History.pushHead
    rw [if_neg]
    rw [any_id_iff, hid]
    exact absent
  have hhistory : (st.graph.edgesFrom b.id).foldl (st.redirectAlong b.outgoing) st.history =
      { st.history with head := st.history.head ++ [a] } := by
    rw [single, List.foldl_cons, List.foldl_nil, redirectAlong, defined]
    exact hpushed
  have hactivity : st.activity.mapBoundary (·.set .finished st.now) =
      { st.activity with kind := .task { t with
        boundary := some { b with lifecycle := b.lifecycle.set .finished st.now } } } := by
    unfold Activity.mapBoundary
    rw [task]
    simp only [attached, Option.map_some]
    rfl
  have hboundary : st.activity.boundary? = some b :=
    (Activity.boundary?_of_task task).trans attached
  show st.takeBoundaryEvent = _
  rw [takeBoundaryEvent_eq hboundary, hhistory, hactivity]

/-- An activity that is no task has no boundary event to take. -/
theorem refuses_takeover_of_not_task (h : st.activity.task? = none) :
    st.Refuses .takeBoundaryEvent (.notATask st.activity.id) := by
  refine refuses_of_error ?_
  unfold Activity.task? at h
  unfold perform takeBoundaryEvent
  cases hk : st.activity.kind with
  | task t => rw [hk] at h; cases h
  | gateway w => rfl
  | event v => rfl

/-- A task without a boundary event has none to take. -/
theorem refuses_takeover_of_missing {t : Task} (task : st.activity.kind = .task t)
    (missing : t.boundary = none) : st.Refuses .takeBoundaryEvent
      (.missingBoundaryEvent st.activity.id st.activity.name) := by
  refine refuses_of_error ?_
  unfold perform takeBoundaryEvent
  simp only [task, missing]

end Step

/-- While a handler works, its activity and the history agree with the process. -/
theorem Engine.Arises.agrees_at {σ : Type} {e : Engine σ} (arises : e.Arises) {g : Graph}
    (built : e.graph = some g) {id : String} {found : Activity}
    (live : e.history.headById? id = some found) {now : Instant} {st : Step}
    (reached : Step.Reaches (fun _ => True) (e.opened g found now) st) :
    g.WellFormed ∧ st.graph = g ∧ g.Defines st.activity ∧ st.history.Agrees g := by
  obtain ⟨hg, hhistory⟩ := arises.agrees.built g built
  have hkept := History.kept_agrees hg
  exact ⟨hg, reached.frame.1, (leave_kept hkept hg hhistory live reached).1,
    reached.kept hkept hg rfl hhistory⟩

namespace Builder

variable {b : Builder} {g : Graph}

/-- The record of a boundary event holds the edge of the first flow that leaves the event. -/
theorem outgoing_of_boundary (compiled : b.build.compile = .ok g) {a : Activity}
    (ha : g.Defines a) {ev : BoundaryEvent} (attached : a.boundary? = some ev) {f : Flow}
    (first : IsFirst (·.source = ev.id) b.flows f) : ev.outgoing = f.id := by
  obtain ⟨n, -, -, hblank⟩ := exists_node_of_activity? compiled ha
  have hdefined : (b.definitionOf n).boundary? = some ev.blank := by
    rw [← hblank, Activity.boundary?_blank, attached]
    rfl
  have hgiven : b.build.boundaryOf? n.id = some ev.blank := by
    unfold Activity.boundary? at hdefined
    rw [kind_definitionOf, kindOf] at hdefined
    cases hgroup : n.group with
    | task kind => rw [hgroup] at hdefined; exact hdefined
    | _ => rw [hgroup] at hdefined; cases hdefined
  obtain ⟨r, ⟨before, after, hsplit, -⟩, hev⟩ := Document.boundaryOf?_eq_some_iff.mp hgiven
  -- The record is that of a boundary event of the builder.
  have hmem : r ∈ b.boundaries.map b.boundaryRecord := by
    rw [← records_boundaryEvent, hsplit]
    simp
  obtain ⟨x, -, rfl⟩ := List.mem_map.mp hmem
  have hid : ev.id = x.id := congrArg BoundaryEvent.id hev
  have hedge : ev.outgoing = (b.boundaryRecord x).outgoing := congrArg BoundaryEvent.outgoing hev
  -- It was made with the edge of the first flow that leaves the event.
  have hfind : b.flows.find? (·.source == ev.id) = some f := find?_source_iff.mpr first
  rw [hedge, boundaryRecord, ← hid, hfind]
  rfl

/-- A flow that leaves a boundary event is the one that the record of the event holds just if it is
the first. -/
theorem eq_outgoing_iff (compiled : b.build.compile = .ok g)
    (distinct : (b.flows.map (·.id)).Nodup) {a : Activity} (ha : g.Defines a) {ev : BoundaryEvent}
    (attached : a.boundary? = some ev) {f : Flow} (hf : f ∈ b.flows) (leaves : f.source = ev.id) :
    f.id = ev.outgoing ↔ IsFirst (·.source = ev.id) b.flows f := by
  constructor
  · intro hedge
    have hsome : (b.flows.find? (·.source == ev.id)).isSome :=
      List.find?_isSome.mpr ⟨f, hf, by simp [leaves]⟩
    obtain ⟨f', hfind⟩ := Option.isSome_iff_exists.mp hsome
    have hfirst : IsFirst (·.source = ev.id) b.flows f' := find?_source_iff.mp hfind
    have hedge' : ev.outgoing = f'.id := outgoing_of_boundary compiled ha attached hfirst
    rwa [flow_eq_of_id distinct hf (List.mem_of_find?_eq_some hfind) (hedge.trans hedge')]
  · intro first
    exact (outgoing_of_boundary compiled ha attached first).symm

/-- A gateway that a branch is resumed from has a token for every flow into the branch. -/
theorem mem_edges_resumed (compiled : b.build.compile = .ok g) {h : History}
    (agrees : h.Agrees g) {f : Flow} (hf : f ∈ b.flows) {d source : Activity}
    (hd : g.activity? f.target = some d) (resumes : h.Resumes d source) {w : Gateway}
    (hw : source.kind = .gateway w) : f.id ∈ source.tokens.map Token.edge := by
  have hg := Document.wellFormed_of_compile compiled
  have hid : source.id = f.target := (resumes.id_eq hg agrees hd).trans (Graph.activity?_some hd).2
  obtain ⟨t, ht, hedge⟩ := exists_token compiled (resumes.defines hg agrees hd) hw hf hid.symm
  exact List.mem_map.mpr ⟨t, ht, hedge⟩

/-- An activity that a branch is resumed from has one token for each flow into the branch if it is a
gateway, and so a redirection along such a flow takes just that token. -/
theorem redirectedFrom_resumed (compiled : b.build.compile = .ok g)
    (distinct : (b.flows.map (·.id)).Nodup) {h : History} (agrees : h.Agrees g) {f : Flow}
    (hf : f ∈ b.flows) {d source : Activity} (hd : g.activity? f.target = some d)
    (resumes : h.Resumes d source) (now : Instant) :
    (Step.redirected (h.lastCompleted? d.id) d f.id now).RedirectedFrom source f.id now := by
  have hg := Document.wellFormed_of_compile compiled
  have hdefines : g.Defines source := resumes.defines hg agrees hd
  have hleads : ∀ w, source.kind = .gateway w → f.id ∈ source.tokens.map Token.edge :=
    fun w hw => mem_edges_resumed compiled agrees hf hd resumes hw
  have hunique : (source.tokens.map Token.edge).Nodup := by
    cases hk : source.gateway? with
    | none => rw [Activity.tokens_of_not_gateway hk]; exact List.nodup_nil
    | some w =>
      rw [edges_tokens compiled hdefines (Activity.kind_of_gateway? hk)]
      exact distinct.sublist (List.filter_sublist.map _)
  rw [History.resumes_iff.mp resumes] at hunique hleads ⊢
  exact Step.redirectedFrom_redirected (hg.blank_activity? hd) hunique hleads

section Takeover

variable {σ : Type} (compiled : b.build.compile = .ok g) (distinct : (b.flows.map (·.id)).Nodup)
  {e : Engine σ} (arises : e.Arises) (built : e.graph = some g) {id : String} {found : Activity}
  (live : e.history.headById? id = some found) {now : Instant} {st : Step}
  (reached : Step.Reaches (fun _ => True) (e.opened g found now) st)

include compiled distinct arises built live reached

/-- What taking a boundary event does, at any point in the run of a handler.  If one flow leaves the
event, and it leads to a definition of which no instance is live, then one instance becomes live
behind the others, made from the entry that was logged last or else from the definition; the event
is finished, and nothing else changes.  An activity that is no task, or has no boundary event,
refuses, and nothing changes. -/
theorem takeover_single :
    (∀ t ev f d, st.activity.kind = .task t → t.boundary = some ev →
      b.flows.filter (·.source == ev.id) = [f] → g.activity? f.target = some d →
      f.target ∉ st.history.head.map (·.id) →
      ∃ source a, st.history.Resumes d source ∧ d.InstanceOf a ∧
        a.RedirectedFrom source f.id st.now ∧
        st.perform .takeBoundaryEvent = .ok { st with
          history := { st.history with head := st.history.head ++ [a] }
          activity := { st.activity with kind := .task { t with
            boundary := some { ev with lifecycle := ev.lifecycle.set .finished st.now } } } }) ∧
    (st.activity.task? = none →
      st.Refuses .takeBoundaryEvent (.notATask st.activity.id)) ∧
    (∀ t, st.activity.kind = .task t → t.boundary = none →
      st.Refuses .takeBoundaryEvent
        (.missingBoundaryEvent st.activity.id st.activity.name)) := by
  obtain ⟨hg, hst, hdefines, hagrees⟩ := arises.agrees_at built live reached
  refine ⟨fun t ev f d task attached single defined absent => ?_,
    Step.refuses_takeover_of_not_task, fun t task => Step.refuses_takeover_of_missing task⟩
  let source := (st.history.lastCompleted? d.id).getD d
  let a := Step.redirected (st.history.lastCompleted? d.id) d f.id st.now
  have hresumes : st.history.Resumes d source := History.resumes_iff.mpr rfl
  have hf : f ∈ b.flows := by
    have hmem : f ∈ b.flows.filter (·.source == ev.id) := by rw [single]; simp
    exact List.mem_of_mem_filter hmem
  have hredirected : a.RedirectedFrom source f.id st.now :=
    redirectedFrom_resumed compiled distinct hagrees hf defined hresumes st.now
  have hinstance : d.InstanceOf a :=
    Step.instanceOf_redirected hg hagrees defined f.id st.now
  -- The only flow that leaves the event is the first one.
  have hedge : ev.outgoing = f.id := by
    have hboundary : st.activity.boundary? = some ev :=
      (Activity.boundary?_of_task task).trans attached
    have hfind : b.flows.find? (·.source == ev.id) = some f := by
      rw [← List.head?_filter, single]
      rfl
    exact outgoing_of_boundary compiled hdefines hboundary (find?_source_iff.mp hfind)
  have hsingle : st.graph.edgesFrom ev.id = [f] := by
    rw [hst, Graph.edgesFrom, edges_of_compile compiled]
    exact single
  rw [← hst] at defined
  refine ⟨source, a, hresumes, hinstance, hredirected, ?_⟩
  rw [Step.takeBoundaryEvent_single task attached hsingle defined absent, hedge]

/-- Which gateways count a takeover as an arrival.  A boundary event that a task has can always be
taken, and then every gateway that a flow leads to from the event is live.  It has the token of that
flow taken just if the flow is the first that was added to leave the event, or the token was taken
when the gateway was logged last. -/
theorem takeover_marks_first {ev : BoundaryEvent} (attached : st.activity.boundary? = some ev) :
    ∃ st', st.perform .takeBoundaryEvent = .ok st' ∧
      ∀ f ∈ b.flows, f.source = ev.id → ∀ d w, g.activity? f.target = some d →
        d.kind = .gateway w → ∃ a, st'.history.headById? f.target = some a ∧ d.InstanceOf a ∧
          (a.HasTaken f.id ↔ IsFirst (·.source = ev.id) b.flows f ∨
            ∃ source, st.history.Resumes d source ∧ source.HasTaken f.id) := by
  obtain ⟨hg, hst, hdefines, hagrees⟩ := arises.agrees_at built live reached
  have taken := Step.takeBoundaryEvent_eq attached
  refine ⟨_, taken, fun f hf leaves d w defined gateway => ?_⟩
  have hid : d.id = f.target := (Graph.activity?_some defined).2
  have hknown : st.graph.activity? d.id = some d := by rw [hst, hid, defined]
  have hleaves : f ∈ st.graph.edgesFrom ev.id := by
    rw [hst, Graph.edgesFrom, edges_of_compile compiled]
    exact List.mem_filter.mpr ⟨hf, by simp [leaves]⟩
  let source := (st.history.lastCompleted? d.id).getD d
  let a := Step.redirected (st.history.lastCompleted? d.id) d ev.outgoing st.now
  have hresumes : st.history.Resumes d source := History.resumes_iff.mpr rfl
  have hlive : ((st.graph.edgesFrom ev.id).foldl (st.redirectAlong ev.outgoing)
      st.history).headById? f.target = some a := by
    rw [← hid]
    exact Step.headById?_foldl_redirectAlong_of_mem hknown ⟨f, hleaves, hid.symm⟩ st.history
  have hinstance : d.InstanceOf a :=
    Step.instanceOf_redirected hg hagrees defined ev.outgoing st.now
  have hedge : f.id ∈ source.tokens.map Token.edge := by
    obtain ⟨v, hv⟩ := Activity.exists_gateway_of_blank
      (hresumes.blank_eq hg hagrees defined) gateway
    exact mem_edges_resumed compiled hagrees hf defined hresumes hv
  refine ⟨a, hlive, hinstance, ?_⟩
  calc a.HasTaken f.id
      ↔ f.id = ev.outgoing ∨
          ∃ c, st.history.lastCompleted? d.id = some c ∧ c.HasTaken f.id :=
        Step.hasTaken_redirected (hg.blank_activity? defined) hedge
    _ ↔ IsFirst (·.source = ev.id) b.flows f ∨
          ∃ source, st.history.Resumes d source ∧ source.HasTaken f.id :=
        or_congr (eq_outgoing_iff compiled distinct hdefines attached hf leaves)
          (History.exists_resumes_hasTaken_iff (hg.blank_activity? defined)).symm

end Takeover

end Builder

/-! ## A gateway that is reached again -/

namespace Detour

/-- A process in which the boundary event of a task leads back to the gateway before the task. -/
def process : Builder :=
  ({ id := "detour" } : Builder)
    |>.start "start" "Start" |>.finish "end" "End" |>.gateway .exclusive "choice" "Choice"
    |>.task .normal "work" "Work" |>.boundary "again" "work" none
    |>.flow "f_start" "start" "choice" |>.flow "f_again" "again" "choice"
    |>.flow "f_work" "choice" "work" |>.flow "f_skip" "choice" "end" |>.flow "f_end" "work" "end"

/-- A handler that chooses the task and finishes the gateway. -/
def toWork : Handler Unit := fun _ payload memory =>
  .act (.takeOutgoingById "work") fun _ _ =>
    .act (.edit (.setStatus .finished)) fun _ _ => .done (memory, .ok payload)

/-- An engine for the process after the gateway was reached for the first time and has gone on to
the task. -/
def working : Engine Unit :=
  (Engine.waitingFor process.build ["Choice", "Work"]).after
    (.execute "choice" toWork .null () ⟨.epoch, 9⟩)

/-- The compiled process. -/
def graph : Graph := working.compiled

/-- The live task. -/
def work : Activity := working.live "work"

/-- The gateway as it was logged. -/
def logged : Activity := (working.history.lastCompleted? "choice").getD graph.start

/-- The step that a handler of the task is given. -/
def opened : Step := working.opened graph work .epoch

/-- The gateway is entered again from its entry in the log: the choice of the task is taken back,
the first arrival is kept, and the one from the boundary event is new. -/
theorem takeover_single_detour :
    ∃ a st', opened.perform .takeBoundaryEvent = .ok st' ∧
      st'.history.head = opened.history.head ++ [a] ∧
      st'.history.stack = opened.history.stack ∧ a.RedirectedFrom logged "f_again" .epoch ∧
      logged.tokens = [⟨"f_start", true⟩, ⟨"f_again", false⟩] ∧
      a.tokens = [⟨"f_start", true⟩, ⟨"f_again", true⟩] := by
  have harises : working.Arises := .called (Engine.arises_waitingFor ..) _
  have hdistinct : (process.flows.map (·.id)).Nodup := by decide
  have hlive : working.history.headById? "work" = some work := rfl
  obtain ⟨htakes, -⟩ := Builder.takeover_single (b := process) rfl hdistinct harises rfl hlive
    (.refl : Step.Reaches (fun _ => True) opened opened)
  obtain ⟨source, a, hresumes, -, hredirected, hperform⟩ :=
    htakes _ _ ⟨"f_again", "again", "choice"⟩ _ rfl rfl rfl rfl (by decide)
  obtain rfl : source = logged := History.resumes_iff.mp hresumes
  have htokens : logged.tokens = [⟨"f_start", true⟩, ⟨"f_again", false⟩] := rfl
  refine ⟨a, _, hperform, rfl, rfl, hredirected, htokens, ?_⟩
  rw [hredirected.arrivals, htokens]
  rfl

end Detour

/-! ## A boundary event that two flows leave -/

namespace Alarm

/-- A process in which two flows lead from the boundary event of a task, each to a gateway. -/
def process : Builder :=
  ({ id := "alarm" } : Builder)
    |>.start "start" "Start" |>.finish "end" "End" |>.task .normal "work" "Work"
    |>.gateway .parallel "notify" "Notify" |>.gateway .parallel "review" "Review"
    |>.boundary "late" "work" none |>.flow "f_start" "start" "work"
    |>.flow "f_notify" "late" "notify" |>.flow "f_review" "late" "review"
    |>.flow "f_notified" "notify" "end" |>.flow "f_reviewed" "review" "end"
    |>.flow "f_end" "work" "end"

/-- An engine for the process when it waits at the task. -/
def waiting : Engine Unit := .waitingFor process.build ["Work"]

/-- The compiled process. -/
def graph : Graph := waiting.compiled

/-- The live task. -/
def work : Activity := waiting.live "work"

/-- The boundary event of the task. -/
def late : BoundaryEvent := work.boundary?.getD (.define "" "" "" none)

/-- The step that a handler of the task is given. -/
def opened : Step := waiting.opened graph work .epoch

/-- The step after the boundary event has been taken. -/
def taken : Step := opened.takeBoundaryEvent.toOption.getD opened

/-- The flows have ids of their own. -/
theorem distinct_flows : (process.flows.map (·.id)).Nodup := by decide

/-- The task is live. -/
theorem work_live : waiting.history.headById? "work" = some work := rfl

/-- The flow to the first gateway counts as an arrival there, and that to the second does not. -/
theorem takeover_marks_first_alarm :
    ∃ st', opened.perform .takeBoundaryEvent = .ok st' ∧
      (∃ a, st'.history.headById? "notify" = some a ∧ a.HasTaken "f_notify") ∧
      ∃ a, st'.history.headById? "review" = some a ∧ ¬ a.HasTaken "f_review" := by
  have hlate : opened.activity.boundary? = some late := rfl
  have hopened : Step.Reaches (fun _ => True) opened opened := .refl
  obtain ⟨st', htaken, hmarks⟩ := Builder.takeover_marks_first (b := process) rfl distinct_flows
    (Engine.arises_waitingFor ..) rfl work_live hopened hlate
  refine ⟨st', htaken, ?_, ?_⟩
  · obtain ⟨a, ha, -, hiff⟩ :=
      hmarks ⟨"f_notify", "late", "notify"⟩ (by decide) rfl _ _ rfl rfl
    exact ⟨a, ha, hiff.mpr (.inl ⟨[⟨"f_start", "start", "work"⟩], _, rfl, rfl, by decide⟩)⟩
  · obtain ⟨a, ha, -, hiff⟩ :=
      hmarks ⟨"f_review", "late", "review"⟩ (by decide) rfl _ _ rfl rfl
    refine ⟨a, ha, fun hmarked => ?_⟩
    rcases hiff.mp hmarked with hfirst | ⟨source, hresumes, hsource⟩
    · have hfind : process.flows.find? (·.source == late.id) =
          some ⟨"f_review", "late", "review"⟩ :=
        find?_source_iff.mpr hfirst
      exact absurd hfind (by decide)
    · -- The gateway is made from its definition, in which no token is taken.
      obtain rfl := History.resumes_iff.mp hresumes
      exact absurd hsource (by decide)

/-- So a takeover need not count as an arrival at every gateway that it leads to. -/
theorem not_forall_takeovers_mark : ¬ ∀ (b : Builder) (g : Graph) (e : Engine Unit) (id : String)
    (found : Activity) (now : Instant) (st st' : Step) (ev : BoundaryEvent),
    b.build.compile = .ok g → (b.flows.map (·.id)).Nodup → e.Arises → e.graph = some g →
    e.history.headById? id = some found →
    Step.Reaches (fun _ => True) (e.opened g found now) st →
    st.activity.boundary? = some ev → st.perform .takeBoundaryEvent = .ok st' →
    ∀ f ∈ b.flows, f.source = ev.id → ∀ d w, g.activity? f.target = some d →
      d.kind = .gateway w → ∃ a ∈ st'.history.head, a.id = f.target ∧ a.HasTaken f.id := by
  intro claim
  have htaken : opened.perform .takeBoundaryEvent = .ok taken := rfl
  obtain ⟨a, ha, hid, hmarked⟩ := claim process graph waiting "work" work .epoch opened taken _ rfl
    distinct_flows (Engine.arises_waitingFor ..) rfl work_live .refl rfl htaken
    ⟨"f_review", "late", "review"⟩ (by decide) rfl _ _ rfl rfl
  have hunmarked : ∀ a ∈ taken.history.head, ¬ a.HasTaken "f_review" := by decide
  exact hunmarked a ha hmarked

end Alarm

end Workflow
