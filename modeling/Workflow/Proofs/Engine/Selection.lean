import Workflow.Proofs.Document.Builder
import Workflow.Proofs.Engine.Instances

/-!
# Selecting outgoing edges

A handler selects an outgoing edge of its gateway by the activity that the edge leads to, which it
names by id or by name (`Selection`).  The edge is looked for among the edges that lead into that
activity, and the first outgoing one that is found there is taken.  Nothing is taken when no edge
leads there, and an edge that is taken already is taken again.

In a built process with distinct flow ids an outgoing edge is one of those that lead into a target
just when it is a flow to that target.  So whether a token is taken is a matter of which targets
were selected (`Gateway.firstInto`), and not of how often or in which order
(`Builder.selectAll_choosing`), and the split follows the edges that are taken in the order of the
flows (`Builder.selection_decides_split`).
-/

namespace Workflow

/-! ## Selections -/

/-- The selection of an outgoing edge by the activity that it leads to. -/
inductive Selection where
  /-- By the id of the activity. -/
  | byId (id : String)
  /-- By the name of the activity. -/
  | byName (name : String)

namespace Selection

/-- The action of a handler that selects. -/
def action : Selection → Step.Action
  | byId id => .takeOutgoingById id
  | byName name => .takeOutgoingByName name

/-- The operation that a refusal names. -/
def operation : Selection → Operation
  | byId _ => .takeOutgoingById
  | byName _ => .takeOutgoingByName

/-- What the activity is looked up by. -/
def key : Selection → String
  | byId id => id
  | byName name => name

/-- Whether an activity has the id or the name. -/
def Names : Selection → Activity → Prop
  | byId id, a => a.id = id
  | byName name, a => a.name = some name

instance (s : Selection) (a : Activity) : Decidable (s.Names a) :=
  match s with
  | byId id => inferInstanceAs (Decidable (a.id = id))
  | byName name => inferInstanceAs (Decidable (a.name = some name))

/-- Whether an activity of the process is the one that is selected; a name has to be that of no
other. -/
def Designates (g : Graph) : Selection → Activity → Prop
  | byId id, t => t ∈ g.activities ∧ t.id = id
  | byName name, t =>
    t ∈ g.activities ∧ t.name = some name ∧ ∀ a ∈ g.activities, a.name = some name → a = t

/-- The activity that is looked up. -/
def target? (g : Graph) : Selection → Option Activity
  | byId id => g.activity? id
  | byName name => g.activityNamed? name

variable {g : Graph} {s : Selection} {t : Activity}

/-- What is looked up is an activity of the process. -/
theorem mem_of_target? (h : s.target? g = some t) : t ∈ g.activities := by
  cases s with
  | byId id => exact (Graph.activity?_some h).1
  | byName name =>
    have hfind : g.activities.find? (·.hasName name) = some t := h
    exact List.mem_of_find?_eq_some hfind

/-- Nothing is found where no activity has the id or the name. -/
theorem target?_eq_none_iff : s.target? g = none ↔ ∀ a ∈ g.activities, ¬ s.Names a := by
  cases s with
  | byId id => simp [target?, Graph.activity?, Names]
  | byName name => simp [target?, Graph.activityNamed?, Names, Activity.hasName]

/-- What is designated is found. -/
theorem Designates.target?_eq (h : s.Designates g t) (hg : g.WellFormed) :
    s.target? g = some t := by
  cases s with
  | byId id =>
    obtain ⟨hmem, rfl⟩ := h
    exact hg.activity?_of_mem hmem
  | byName name =>
    obtain ⟨hmem, hname, honly⟩ := h
    cases hfind : g.activityNamed? name with
    | none => exact absurd hname (target?_eq_none_iff (s := .byName name).mp hfind t hmem)
    | some a =>
      have ha : a.name = some name := by
        simpa [Activity.hasName] using List.find?_some hfind
      rw [target?, hfind, honly a (List.mem_of_find?_eq_some hfind) ha]

end Selection

namespace Gateway

variable {w : Gateway}

/-- A parallel gateway refuses every selection. -/
theorem takeOutgoing_parallel (h : w.kind = .parallel) (operation : Operation) (key : String)
    (target : Option (Option EdgeRefs)) :
    w.takeOutgoing operation key target =
      .error (.selectiveOutgoingUnsupported operation key) := by
  unfold takeOutgoing
  rw [h]

/-- Any other gateway refuses a selection for which nothing is found. -/
theorem takeOutgoing_none (h : w.kind ≠ .parallel) (operation : Operation) (key : String) :
    w.takeOutgoing operation key none = .error (.outgoingTargetNotFound operation key) := by
  unfold takeOutgoing
  cases hk : w.kind with
  | parallel => exact absurd hk h
  | _ => rfl

/-- Otherwise it takes the first outgoing edge among those that lead into what is found. -/
theorem takeOutgoing_some (h : w.kind ≠ .parallel) (operation : Operation) (key : String)
    (refs : Option EdgeRefs) :
    w.takeOutgoing operation key (some refs) = .ok { w with
      outgoing := w.outgoing.map
        (·.updateFirst (fun t => (Document.records refs).contains t.edge) Token.take) } := by
  -- No edge leads into what has no incoming edges, and then no token is accepted.
  have hnone : ∀ ts : Tokens,
      ts.updateFirst (fun t => (Document.records none).contains t.edge) Token.take = ts := by
    intro ts
    refine OneOrMany.eq_of_toList_isMany ?_ (OneOrMany.isMany_updateFirst ..)
    rw [OneOrMany.toList_updateFirst]
    exact updateFirst_of_none Token.take fun t _ => rfl
  obtain ⟨kind, incoming, outgoing⟩ := w
  cases kind with
  | parallel => exact absurd rfl h
  | _ =>
    cases refs with
    | none => simp only [takeOutgoing, hnone, Option.map_id']
    | some refs => rfl

end Gateway

namespace Step

variable {st : Step} {w : Gateway}

/-- The step with another gateway part of its activity. -/
def withGateway (st : Step) (w : Gateway) : Step :=
  { st with activity := { st.activity with kind := .gateway w } }

/-- The step after selections in turn, up to the first that is refused. -/
def selectAll (st : Step) (selections : List Selection) : Except Error Step :=
  selections.foldlM (fun st s => st.perform s.action) st

/-- A selection is up to the gateway, given the edges that lead into what is looked up. -/
theorem perform_selection (hw : st.activity.kind = .gateway w) (s : Selection) :
    st.perform s.action =
      (w.takeOutgoing s.operation s.key ((s.target? st.graph).map (·.incoming))).map
        st.withGateway := by
  have hselect : ∀ (operation : Operation) (key : String) (target : Option Activity),
      st.selectOutgoing operation key target =
        (w.takeOutgoing operation key (target.map (·.incoming))).map st.withGateway := by
    intro operation key target
    simp only [selectOutgoing, edit, Activity.edit, hw]
    cases w.takeOutgoing operation key (target.map (·.incoming)) <;> rfl
  cases s with
  | byId id => exact hselect _ _ _
  | byName name => exact hselect _ _ _

/-- Whether an action is refused with an error, and the step is left as it was. -/
structure Refuses (st : Step) (action : Action) (err : Error) : Prop where
  /-- The action fails. -/
  fails : st.perform action = .error err
  /-- Whoever does it sees the error, and the same step. -/
  unchanged : (Program.perform action).run st = ((some err, st), st)

/-- An action that fails is refused. -/
theorem refuses_of_error {action : Action} {err : Error} (h : st.perform action = .error err) :
    st.Refuses action err where
  fails := h
  unchanged := by simp only [Program.perform, Program.run, h]

/-- A parallel gateway refuses every selection. -/
theorem refuses_selection_of_parallel (hw : st.activity.kind = .gateway w) (h : w.kind = .parallel)
    (s : Selection) :
    st.Refuses s.action (.selectiveOutgoingUnsupported s.operation s.key) := by
  refine refuses_of_error ?_
  rw [perform_selection hw, Gateway.takeOutgoing_parallel h]
  rfl

/-- A gateway that is not parallel refuses a selection just where nothing is found. -/
theorem perform_selection_error_iff (hw : st.activity.kind = .gateway w) (h : w.kind ≠ .parallel)
    {s : Selection} {err : Error} :
    st.perform s.action = .error err ↔
      s.target? st.graph = none ∧ err = .outgoingTargetNotFound s.operation s.key := by
  rw [perform_selection hw]
  cases s.target? st.graph with
  | none =>
    rw [Option.map_none, Gateway.takeOutgoing_none h]
    simp [Except.map, eq_comm]
  | some t =>
    rw [Option.map_some, Gateway.takeOutgoing_some h]
    simp [Except.map]

/-- The gateway of a step is known from the step. -/
theorem withGateway_injective : Function.Injective st.withGateway := by
  intro w w' h
  have hkind : Kind.gateway w = Kind.gateway w' := congrArg (·.activity.kind) h
  exact Kind.gateway.inj hkind

/-- A step has the gateway that it has. -/
theorem withGateway_self (hw : st.activity.kind = .gateway w) : st.withGateway w = st := by
  unfold withGateway
  rw [← hw]

end Step

/-! ## Flows that are selected -/

/-- Taking the first token that is accepted marks the first flow that is, and no other. -/
theorem updateFirst_take {flows : List Flow} (unique : flows.Nodup) (p : Flow → Bool)
    (accepts : Token → Bool) (matching : ∀ f ∈ flows, ∀ taken, accepts ⟨f.id, taken⟩ = p f)
    (taken : Flow → Bool) :
    updateFirst accepts Token.take (flows.map fun f => ⟨f.id, taken f⟩) =
      flows.map fun f => ⟨f.id, taken f || decide (flows.find? p = some f)⟩ := by
  induction flows with
  | nil => rfl
  | cons f flows ih =>
    obtain ⟨hnot, hrest⟩ := List.nodup_cons.mp unique
    have hfirst := matching f (List.mem_cons_self ..) (taken f)
    have hlater := ih hrest fun f' hf' => matching f' (List.mem_cons_of_mem _ hf')
    have hne : ∀ f' ∈ flows, f ≠ f' := fun f' hf' heq => hnot (heq ▸ hf')
    rw [List.map_cons, List.map_cons]
    by_cases hp : p f
    · -- The first flow is the one that is marked.
      rw [updateFirst, if_pos (hfirst.trans hp), List.find?_cons_of_pos hp]
      congr 1
      · simp [Token.take]
      · refine List.map_congr_left fun f' hf' => ?_
        simp [hne f' hf']
    · have hmiss : flows.find? p ≠ some f := fun h => hnot (List.mem_of_find?_eq_some h)
      rw [updateFirst, if_neg (by rw [hfirst]; exact hp), List.find?_cons_of_neg hp, hlater]
      simp [hmiss]

namespace Gateway

/-- Whether a flow is the first of some flows into one of some targets. -/
def firstInto (flows : List Flow) (targets : List Activity) (f : Flow) : Bool :=
  targets.any fun t => decide (flows.find? (·.target == t.id) = some f)

/-- A gateway that lists some flows as its outgoing edges, of which some are taken. -/
def choosing (w : Gateway) (flows : List Flow) (taken : Flow → Bool) : Gateway :=
  { w with outgoing := some (.many (flows.map fun f => ⟨f.id, taken f⟩)) }

/-- Which flow is the first into a target is a matter of which targets there are. -/
theorem firstInto_congr {targets targets' : List Activity}
    (same : ∀ t, t ∈ targets' ↔ t ∈ targets) (flows : List Flow) :
    firstInto flows targets' = firstInto flows targets := by
  funext f
  rw [Bool.eq_iff_iff]
  simp only [firstInto, List.any_eq_true, same]

section Choosing

variable {w : Gateway} {flows : List Flow} {taken : Flow → Bool}

/-- The edges that are taken are those of the flows that are. -/
theorem taken_choosing :
    ((Document.records (w.choosing flows taken).outgoing).filter (·.taken)).map Token.edge =
      (flows.filter taken).map (·.id) := by
  show ((flows.map fun f => (⟨f.id, taken f⟩ : Token)).filter (·.taken)).map Token.edge = _
  rw [List.filter_map, List.map_map]
  rfl

/-- An exclusive gateway goes on along the first flow that is taken. -/
theorem splitEdges_exclusive (h : w.kind = .exclusive) :
    (w.choosing flows taken).splitEdges = ((flows.filter taken).map (·.id)).take 1 := by
  have hfind : (flows.map fun f => (⟨f.id, taken f⟩ : Token)).find? (·.taken) =
      (flows.find? taken).map fun f => ⟨f.id, taken f⟩ := List.find?_map ..
  simp only [splitEdges, choosing, h, hfind, Option.map_map, Function.comp_def]
  rw [← List.head?_filter]
  cases flows.filter taken <;> rfl

/-- An inclusive or complex gateway goes on along all flows that are taken. -/
theorem splitEdges_choosing (hparallel : w.kind ≠ .parallel) (hexclusive : w.kind ≠ .exclusive) :
    (w.choosing flows taken).splitEdges = (flows.filter taken).map (·.id) := by
  rw [← taken_choosing (w := w)]
  cases hk : w.kind with
  | parallel => exact absurd hk hparallel
  | exclusive => exact absurd hk hexclusive
  | inclusive => simp only [splitEdges, choosing, hk]; rfl
  | complex => simp only [splitEdges, choosing, hk]; rfl

end Choosing

end Gateway

namespace Builder

variable {b : Builder} {g : Graph}

/-- The flows that leave a node, in the order in which they were added. -/
def flowsFrom (b : Builder) (id : String) : List Flow := b.flows.filter (·.source == id)

/-- The first flow from one node to another is the first one of those that leave it. -/
theorem find?_flowsFrom {id target : String} {f : Flow} :
    (b.flowsFrom id).find? (·.target == target) = some f ↔
      IsFirst (fun f => f.source = id ∧ f.target = target) b.flows f := by
  rw [flowsFrom, List.find?_filter]
  exact find?_eq_some_iff_isFirst fun f => by simp

/-- Whether selections of targets have made a gateway out of another: of its outgoing edges, the
first flow into each target is taken, where there is one, and nothing else has changed. -/
structure Selected (b : Builder) (id : String) (targets : List Activity) (w w' : Gateway)
    (chosen : List Flow) : Prop where
  /-- The gateway is of the same kind. -/
  kind : w'.kind = w.kind
  /-- The incoming tokens are the same. -/
  incoming : w'.incoming = w.incoming
  /-- The outgoing tokens are those of the same edges. -/
  edges : w'.outgoing.map (·.map Token.edge) = w.outgoing.map (·.map Token.edge)
  /-- The chosen flows are in the order of their addition. -/
  order : chosen.Sublist b.flows
  /-- They are the first flows into the targets. -/
  first : ∀ f, f ∈ chosen ↔
    ∃ t ∈ targets, IsFirst (fun f => f.source = id ∧ f.target = t.id) b.flows f
  /-- Their edges are taken, and no others. -/
  taken : ((Document.records w'.outgoing).filter (·.taken)).map Token.edge = chosen.map (·.id)
  /-- The split follows them, and only the first of them from an exclusive gateway. -/
  split : w'.splitEdges =
    if w.kind = .exclusive then (chosen.map (·.id)).take 1 else chosen.map (·.id)

/-- A gateway where the first flows into some targets are taken is what selections of them make. -/
theorem selected_choosing {w : Gateway} (h : w.kind ≠ .parallel) (id : String)
    (targets : List Activity) (hout : w = w.choosing (b.flowsFrom id) fun _ => false) :
    b.Selected id targets w
      (w.choosing (b.flowsFrom id) (Gateway.firstInto (b.flowsFrom id) targets))
      ((b.flowsFrom id).filter (Gateway.firstInto (b.flowsFrom id) targets)) where
  kind := rfl
  incoming := rfl
  edges := by
    rw [hout]
    simp [Gateway.choosing, OneOrMany.map, Function.comp_def]
  order := List.filter_sublist.trans List.filter_sublist
  first f := by
    simp only [List.mem_filter, Gateway.firstInto, List.any_eq_true, decide_eq_true_eq,
      ← find?_flowsFrom]
    constructor
    · exact fun h => h.2
    · rintro ⟨t, ht, hfind⟩
      exact ⟨List.mem_of_find?_eq_some hfind, t, ht, hfind⟩
  taken := Gateway.taken_choosing
  split := by
    split
    · next hexclusive => exact Gateway.splitEdges_exclusive hexclusive
    · next hexclusive => exact Gateway.splitEdges_choosing h hexclusive

section Compiled

variable (compiled : b.build.compile = .ok g) (distinct : (b.flows.map (·.id)).Nodup)

include compiled

/-- A gateway with several outgoing edges, none of which is taken, lists the flows that leave it. -/
theorem eq_choosing {a : Activity} (ha : g.Defines a) {w : Gateway} (hw : a.kind = .gateway w)
    (several : 2 ≤ (Document.records a.outgoing).length)
    (untaken : ∀ t ∈ Document.records w.outgoing, t.taken = false) :
    w = w.choosing (b.flowsFrom a.id) fun _ => false := by
  have hout : a.outgoing = b.outgoingOf a.id := (edges_of_defines compiled ha).2
  have hedges := Tokens.map_edge_of_matchRefs
    ((Document.wellFormed_of_compile compiled).matchRefs ha hw).2
  have hmany : a.outgoing = some (.many ((b.flowsFrom a.id).map (·.id))) := by
    rw [hout, records_outgoingOf] at several
    rw [hout]
    exact OneOrMany.ofList?_of_several several
  obtain ⟨kind, incoming, outgoing⟩ := w
  rw [hmany] at hedges
  cases outgoing with
  | none => cases hedges
  | some ts =>
    cases ts with
    | one t => cases hedges
    | many ts =>
      have hids : ts.map Token.edge = (b.flowsFrom a.id).map (·.id) := by
        simpa [OneOrMany.map] using hedges
      -- Untaken tokens are known from their edges.
      have hfresh : ts = (ts.map Token.edge).map Token.fresh := by
        rw [List.map_map]
        refine (List.map_id ts).symm.trans (List.map_congr_left fun t ht => ?_)
        rw [id_eq, Function.comp_apply, Token.fresh, ← untaken t ht]
      rw [Gateway.choosing, hfresh, hids, List.map_map]
      rfl

include distinct

/-- The edge of a flow is one that leads into an activity just when the flow does. -/
theorem contains_incoming {t : Activity} (ht : t ∈ g.activities) {f : Flow} (hf : f ∈ b.flows) :
    (Document.records t.incoming).contains f.id = (f.target == t.id) := by
  have hg := Document.wellFormed_of_compile compiled
  rw [(edges_of_defines compiled (hg.defines (hg.activity?_of_mem ht))).1, records_incomingOf,
    Bool.eq_iff_iff, List.contains_iff_mem, List.mem_map]
  constructor
  · rintro ⟨f', hf', hid⟩
    obtain ⟨hf', htarget⟩ := List.mem_filter.mp hf'
    rwa [flow_eq_of_id distinct hf' hf hid] at htarget
  · intro htarget
    exact ⟨f, List.mem_filter.mpr ⟨hf, htarget⟩, rfl⟩

/-- A selection takes the first flow into its target, if there is one. -/
theorem perform_choosing {st : Step} (hst : st.graph = g) {s : Selection} {t : Activity}
    (designates : s.Designates g t) {w : Gateway} (h : w.kind ≠ .parallel) {id : String}
    {taken : Flow → Bool}
    (hw : st.activity.kind = .gateway (w.choosing (b.flowsFrom id) taken)) :
    st.perform s.action = .ok (st.withGateway (w.choosing (b.flowsFrom id) fun f =>
      taken f || decide ((b.flowsFrom id).find? (·.target == t.id) = some f))) := by
  have hfound := designates.target?_eq (Document.wellFormed_of_compile compiled)
  have hunique : (b.flowsFrom id).Nodup := (List.Nodup.of_map _ distinct).filter _
  have hmark := updateFirst_take hunique (·.target == t.id)
    (fun t' => (Document.records t.incoming).contains t'.edge)
    (fun f hf _ => contains_incoming compiled distinct (Selection.mem_of_target? hfound)
      (List.mem_of_mem_filter hf)) taken
  have hkind : (w.choosing (b.flowsFrom id) taken).kind ≠ .parallel := h
  rw [Step.perform_selection hw, hst, hfound, Option.map_some, Gateway.takeOutgoing_some hkind]
  simp only [Except.map, Gateway.choosing, Option.map_some, OneOrMany.updateFirst, hmark]

/-- Selections in turn take the first flow into each of their targets. -/
theorem selectAll_choosing {selections : List Selection} {targets : List Activity}
    (designated : List.Forall₂ (Selection.Designates g) selections targets) {st : Step}
    (hst : st.graph = g) {w : Gateway} (h : w.kind ≠ .parallel) {id : String} {taken : Flow → Bool}
    (hw : st.activity.kind = .gateway (w.choosing (b.flowsFrom id) taken)) :
    st.selectAll selections = .ok (st.withGateway (w.choosing (b.flowsFrom id) fun f =>
      taken f || Gateway.firstInto (b.flowsFrom id) targets f)) := by
  -- Which flows are taken already changes from one selection to the next.
  induction designated generalizing st taken with
  | nil =>
    have hsame : (fun f => taken f || Gateway.firstInto (b.flowsFrom id) [] f) = taken := by
      funext f
      exact Bool.or_false (taken f)
    rw [hsame, Step.withGateway_self hw]
    rfl
  | @cons s t selections targets designates _ ih =>
    let taken' : Flow → Bool := fun f =>
      taken f || decide ((b.flowsFrom id).find? (·.target == t.id) = some f)
    let st' := st.withGateway (w.choosing (b.flowsFrom id) taken')
    have hperform : st.perform s.action = .ok st' :=
      perform_choosing compiled distinct hst designates h hw
    have hlater := ih (show st'.graph = g from hst)
      (show st'.activity.kind = .gateway (w.choosing (b.flowsFrom id) taken') from rfl)
    have hor : ∀ f, (taken f || Gateway.firstInto (b.flowsFrom id) (t :: targets) f) =
        (taken' f || Gateway.firstInto (b.flowsFrom id) targets f) := by
      intro f
      exact (Bool.or_assoc ..).symm
    simp only [hor]
    rw [Step.selectAll, List.foldlM_cons, hperform]
    exact hlater

end Compiled

/-- What selections make of a live gateway of the process.  A parallel one refuses them all.  Any
other one refuses those of ids and names that no activity has, and no others.  When it has several
outgoing edges and none is taken, selections of some targets take the first flow into each of them
and change nothing else, in whichever order and however often the targets are selected. -/
theorem selection_decides_split {σ : Type} (compiled : b.build.compile = .ok g)
    (distinct : (b.flows.map (·.id)).Nodup) {e : Engine σ} (arises : e.Arises)
    (built : e.graph = some g) {id : String} {found : Activity}
    (live : e.history.headById? id = some found) {now : Instant} {st : Step}
    (reached : Step.Reaches (fun _ => True) (e.opened g found now) st) {w : Gateway}
    (hw : st.activity.kind = .gateway w) :
    (w.kind = .parallel → ∀ s : Selection,
      st.Refuses s.action (.selectiveOutgoingUnsupported s.operation s.key)) ∧
    (w.kind ≠ .parallel →
      (∀ s : Selection,
        ((∃ err, st.perform s.action = .error err) ↔ ∀ a ∈ g.activities, ¬ s.Names a) ∧
        ∀ err, st.perform s.action = .error err →
          err = .outgoingTargetNotFound s.operation s.key ∧ st.Refuses s.action err) ∧
      (2 ≤ (Document.records st.activity.outgoing).length →
        (∀ t ∈ Document.records w.outgoing, t.taken = false) →
        ∀ selections targets, List.Forall₂ (Selection.Designates g) selections targets →
          ∃ w' chosen, st.selectAll selections = .ok (st.withGateway w') ∧
            b.Selected st.activity.id targets w w' chosen ∧
            ∀ selections' targets', List.Forall₂ (Selection.Designates g) selections' targets' →
              (∀ t, t ∈ targets' ↔ t ∈ targets) →
              st.selectAll selections' = .ok (st.withGateway w'))) := by
  obtain ⟨hg, hhistory⟩ := arises.agrees.built g built
  have hst : st.graph = g := reached.frame.1
  have hdefines : g.Defines st.activity :=
    (Engine.leave_kept (History.kept_agrees hg) hg hhistory live reached).1
  refine ⟨Step.refuses_selection_of_parallel hw, fun h => ⟨fun s => ⟨?_, ?_⟩, ?_⟩⟩
  · rw [← Selection.target?_eq_none_iff, ← hst]
    simp only [Step.perform_selection_error_iff hw h, exists_and_left, exists_eq, and_true]
  · intro err herr
    exact ⟨((Step.perform_selection_error_iff hw h).mp herr).2, Step.refuses_of_error herr⟩
  · intro several untaken selections targets designated
    have hout := eq_choosing compiled hdefines hw several untaken
    have hfresh : st.activity.kind =
        .gateway (w.choosing (b.flowsFrom st.activity.id) fun _ => false) := by
      rw [hw, ← hout]
    -- Whatever the selections are, only the set of their targets enters the gateway they make.
    have hall : ∀ {selections targets}, List.Forall₂ (Selection.Designates g) selections targets →
        st.selectAll selections = .ok (st.withGateway (w.choosing (b.flowsFrom st.activity.id)
          (Gateway.firstInto (b.flowsFrom st.activity.id) targets))) := by
      intro selections targets designated
      rw [selectAll_choosing compiled distinct designated hst h hfresh]
      simp only [Bool.false_or]
    refine ⟨_, _, hall designated, selected_choosing h _ targets hout, ?_⟩
    intro selections' targets' designated' same
    rw [hall designated', Gateway.firstInto_congr same]

end Builder

/-! ## A gateway with two flows to one task -/

namespace Fulfilment

/-- A process whose gateway has two flows to one task and one to another. -/
def process (kind : GatewayKind) : Builder :=
  ({ id := "fulfilment" } : Builder)
    |>.start "start" "Start" |>.finish "end" "End" |>.gateway kind "choice" "Choice"
    |>.task .normal "pack" "Pack" |>.task .normal "ship" "Ship"
    |>.flow "f_in" "start" "choice" |>.flow "f_pack" "choice" "pack"
    |>.flow "f_ship" "choice" "ship" |>.flow "f_again" "choice" "pack"
    |>.flow "f_packed" "pack" "end" |>.flow "f_shipped" "ship" "end"

/-- An engine for the process when it waits at the gateway. -/
def waiting (kind : GatewayKind) : Engine Unit := .waitingFor (process kind).build ["Choice"]

/-- The compiled process. -/
def graph (kind : GatewayKind) : Graph := (waiting kind).compiled

/-- The definition with an id, which does not depend on the kind of the gateway for a task. -/
def definition (id : String) : Activity :=
  ((graph .exclusive).activity? id).getD (graph .exclusive).start

/-- The gateway that waits. -/
def choice (kind : GatewayKind) : Activity := (waiting kind).live "choice"

/-- Its gateway part, where no edge is taken yet. -/
def fresh (kind : GatewayKind) : Gateway where
  kind := kind
  incoming := some (.one ⟨"f_in", true⟩)
  outgoing := some (.many [⟨"f_pack", false⟩, ⟨"f_ship", false⟩, ⟨"f_again", false⟩])

/-- The gateway part after the selections, which pass over the second edge to the same task. -/
def settled (kind : GatewayKind) : Gateway :=
  { fresh kind with
    outgoing := some (.many [⟨"f_pack", true⟩, ⟨"f_ship", true⟩, ⟨"f_again", false⟩]) }

/-- The step that a handler of the gateway is given. -/
def opened (kind : GatewayKind) : Step := (waiting kind).opened (graph kind) (choice kind) .epoch

/-- Selections of both tasks, one of them twice, and of an event that no edge leads to. -/
def selections : List Selection := [.byName "Ship", .byId "pack", .byName "Ship", .byId "end"]

/-- The activities that they select. -/
def targets : List Activity :=
  [definition "ship", definition "pack", definition "ship", definition "end"]

/-- The process compiles. -/
theorem compile_process (kind : GatewayKind) : (process kind).build.compile = .ok (graph kind) := by
  cases kind <;> rfl

/-- Its flows have ids of their own. -/
theorem distinct_flows (kind : GatewayKind) : ((process kind).flows.map (·.id)).Nodup := by
  have hids : (process kind).flows.map (·.id) =
      ["f_in", "f_pack", "f_ship", "f_again", "f_packed", "f_shipped"] := rfl
  rw [hids]
  decide

/-- The engine is one of the process. -/
theorem graph_waiting (kind : GatewayKind) : (waiting kind).graph = some (graph kind) := by
  cases kind <;> rfl

/-- The gateway waits, unless it is one that the flow does not come to. -/
theorem choice_live {kind : GatewayKind} (h : kind ≠ .complex) :
    (waiting kind).history.headById? "choice" = some (choice kind) := by
  cases kind with
  | complex => exact absurd rfl h
  | _ => rfl

/-- Its gateway part is the one above. -/
theorem kind_opened {kind : GatewayKind} (h : kind ≠ .complex) :
    (opened kind).activity.kind = .gateway (fresh kind) := by
  cases kind with
  | complex => exact absurd rfl h
  | _ => rfl

/-- The step is one that a handler comes to. -/
theorem reaches_opened (kind : GatewayKind) :
    Step.Reaches (fun _ => True) ((waiting kind).opened (graph kind) (choice kind) .epoch)
      (opened kind) :=
  .refl

/-- The selections are those of the activities, and only one has the name of the task. -/
theorem designated (kind : GatewayKind) :
    List.Forall₂ (Selection.Designates (graph kind)) selections targets := by
  have ship : Selection.Designates (graph kind) (.byName "Ship") (definition "ship") := by
    cases kind <;> exact ⟨by decide, rfl, by decide⟩
  have pack : Selection.Designates (graph kind) (.byId "pack") (definition "pack") := by
    cases kind <;> exact ⟨by decide, rfl⟩
  have finish : Selection.Designates (graph kind) (.byId "end") (definition "end") := by
    cases kind <;> exact ⟨by decide, rfl⟩
  exact .cons ship (.cons pack (.cons ship (.cons finish .nil)))

/-- A parallel gateway refuses a selection, and another one that of a name that nothing has.  The
selections take the first flow to each task, and an exclusive gateway goes on along the one that was
added first, although the other one was selected first. -/
theorem selection_decides_split_fulfilment :
    (opened .parallel).Refuses (.takeOutgoingById "pack")
      (.selectiveOutgoingUnsupported .takeOutgoingById "pack") ∧
    (opened .exclusive).Refuses (.takeOutgoingByName "Post")
      (.outgoingTargetNotFound .takeOutgoingByName "Post") ∧
    (∃ chosen, (process .exclusive).Selected "choice" targets (fresh .exclusive)
      (settled .exclusive) chosen) ∧
    (settled .exclusive).splitEdges = ["f_pack"] ∧
    (∃ chosen, (process .inclusive).Selected "choice" targets (fresh .inclusive)
      (settled .inclusive) chosen) ∧
    (settled .inclusive).splitEdges = ["f_pack", "f_ship"] := by
  obtain ⟨hparallel, -⟩ := Builder.selection_decides_split (compile_process .parallel)
    (distinct_flows .parallel) (Engine.arises_waitingFor ..) (graph_waiting .parallel)
    (choice_live (by decide)) (reaches_opened .parallel) (kind_opened (by decide))
  obtain ⟨-, hexclusive⟩ := Builder.selection_decides_split (compile_process .exclusive)
    (distinct_flows .exclusive) (Engine.arises_waitingFor ..) (graph_waiting .exclusive)
    (choice_live (by decide)) (reaches_opened .exclusive) (kind_opened (by decide))
  obtain ⟨-, hinclusive⟩ := Builder.selection_decides_split (compile_process .inclusive)
    (distinct_flows .inclusive) (Engine.arises_waitingFor ..) (graph_waiting .inclusive)
    (choice_live (by decide)) (reaches_opened .inclusive) (kind_opened (by decide))
  refine ⟨hparallel rfl (.byId "pack"), ?_, ?_, rfl, ?_, rfl⟩
  · obtain ⟨hiff, hrefuses⟩ := (hexclusive (by decide)).1 (.byName "Post")
    obtain ⟨err, herr⟩ := hiff.mpr (by decide)
    obtain ⟨rfl, hrefused⟩ := hrefuses err herr
    exact hrefused
  · obtain ⟨w, chosen, hselect, hselected, -⟩ := (hexclusive (by decide)).2 (by decide)
      (by decide) selections targets (designated .exclusive)
    have hmade : (opened .exclusive).selectAll selections =
        .ok ((opened .exclusive).withGateway (settled .exclusive)) := rfl
    obtain rfl := Step.withGateway_injective (Except.ok.inj (hselect.symm.trans hmade))
    exact ⟨chosen, hselected⟩
  · obtain ⟨w, chosen, hselect, hselected, -⟩ := (hinclusive (by decide)).2 (by decide)
      (by decide) selections targets (designated .inclusive)
    have hmade : (opened .inclusive).selectAll selections =
        .ok ((opened .inclusive).withGateway (settled .inclusive)) := rfl
    obtain rfl := Step.withGateway_injective (Except.ok.inj (hselect.symm.trans hmade))
    exact ⟨chosen, hselected⟩

end Fulfilment

end Workflow
