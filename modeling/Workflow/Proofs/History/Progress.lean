import Workflow.Proofs.Document.ForkJoin
import Workflow.Proofs.History.Branches

/-!
# Progress of a fork/join process

How far a fork/join process has come is told by the log alone (`History.Progress`).  A node is live
if it is not logged and a flow leads to it from a node that is; it is entered if all flows to it
come from logged nodes; and the tokens at a gateway are taken for just the edges whose sources are
logged.  When an entered activity finishes, all of this holds again (`History.Progress.onward`),
because the route takes as many tokens at a gateway as it has edges into it.
-/

namespace Workflow

namespace Builder

variable {b : Builder}

/-- Whether all flows to a node come from logged ones. -/
def Ready (b : Builder) (stack : List Activity) (id : String) : Prop :=
  ∀ f ∈ b.flows, f.target = id → f.source ∈ stack.map (·.id)

/-- The edges of the flows that leave a node. -/
def routeFrom (b : Builder) (id : String) : List String :=
  (b.flows.filter (·.source == id)).map (·.id)

/-- The nodes they lead to. -/
def targetsFrom (b : Builder) (id : String) : List String :=
  (b.flows.filter (·.source == id)).map (·.target)

/-- Whether an edge leaves a node. -/
theorem mem_routeFrom {id edge : String} :
    edge ∈ b.routeFrom id ↔ ∃ f ∈ b.flows, f.id = edge ∧ f.source = id := by
  unfold routeFrom
  simp only [List.mem_map, List.mem_filter, beq_iff_eq]
  constructor
  · rintro ⟨f, ⟨hf, hsource⟩, hid⟩
    exact ⟨f, hf, hid, hsource⟩
  · rintro ⟨f, hf, hid, hsource⟩
    exact ⟨f, ⟨hf, hsource⟩, hid⟩

/-- Whether a flow leads from a node to another. -/
theorem mem_targetsFrom {id target : String} :
    target ∈ b.targetsFrom id ↔ b.Leads id target := by
  unfold targetsFrom Leads
  simp only [List.mem_map, List.mem_filter, beq_iff_eq]
  constructor
  · rintro ⟨f, ⟨hf, hsource⟩, htarget⟩
    exact ⟨f, hf, hsource, htarget⟩
  · rintro ⟨f, hf, hsource, htarget⟩
    exact ⟨f, ⟨hf, hsource⟩, htarget⟩

/-- The edges that leave a node lead to its targets. -/
theorem targetIds_routeFrom (distinct : (b.flows.map (·.id)).Nodup) {g : Graph}
    (hg : b.build.compile = .ok g) (id : String) :
    g.targetIds (b.routeFrom id) = b.targetsFrom id :=
  targetIds_of_compile distinct hg fun _ hf => List.mem_of_mem_filter hf

end Builder

/-- The ids of a log with one more entry. -/
theorem mem_ids_append {stack : List Activity} {x : Activity} {id : String} :
    id ∈ (stack ++ [x]).map (·.id) ↔ id ∈ stack.map (·.id) ∨ id = x.id := by
  rw [List.map_append, List.mem_append, List.map_singleton, List.mem_singleton]

namespace Activity

variable {b : Builder} {g : Graph} {stack : List Activity} {a x : Activity} {now : Instant}

/-- Whether the tokens that are taken are those of the edges whose sources are logged. -/
def Tracks (b : Builder) (stack : List Activity) (a : Activity) : Prop :=
  ∀ t ∈ a.tokens, t.taken = true ↔ ∃ f ∈ b.flows, f.id = t.edge ∧ f.source ∈ stack.map (·.id)

/-- The activity after the arrivals along the flows that leave a node. -/
def reached (b : Builder) (source : String) (now : Instant) (a : Activity) : Activity :=
  a.arrivals (b.routeFrom source) now ((b.targetsFrom source).count a.id)

@[simp]
theorem id_reached (source : String) (a : Activity) : (a.reached b source now).id = a.id :=
  id_arrivals _ a

@[simp]
theorem blank_reached (source : String) (a : Activity) :
    (a.reached b source now).blank = a.blank :=
  blank_arrivals _ a

section Join

variable (hb : b.ForkJoin) (hg : b.build.compile = .ok g)

include hb hg

/-- The join of a gateway to which flows lead holds just when it is ready. -/
theorem Tracks.joinSatisfied_iff (ht : a.Tracks b stack) (ha : g.Defines a) {w : Gateway}
    (hw : a.kind = .gateway w) (hflow : ∃ f ∈ b.flows, f.target = a.id) :
    w.joinSatisfied = true ↔ b.Ready stack a.id := by
  -- There are tokens, and the join asks whether all are taken.
  have hall : w.joinSatisfied = true ↔ ∀ t ∈ a.tokens, t.taken = true := by
    obtain ⟨f, hf, htarget⟩ := hflow
    obtain ⟨t, htok, -⟩ := Builder.exists_token hg ha hw hf htarget
    rw [tokens_of_gateway hw] at htok ⊢
    have hsome : w.incoming ≠ none := by
      intro hin
      rw [hin] at htok
      cases htok
    rw [Gateway.joinSatisfied, hb.parallel_of_defines hg ha hw]
    exact Tokens.allTaken_iff.trans (and_iff_right hsome)
  rw [hall]
  constructor
  · intro htaken f hf htarget
    obtain ⟨t, htok, hedge⟩ := Builder.exists_token hg ha hw hf htarget
    obtain ⟨f', hf', hid, hsource⟩ := (ht t htok).mp (htaken t htok)
    rw [Builder.flow_eq_of_id hb.flows hf hf' (hedge.symm.trans hid.symm)]
    exact hsource
  · intro hready t htok
    obtain ⟨f, hf, hid, htarget⟩ := Builder.exists_flow_of_token hg ha htok
    exact (ht t htok).mpr ⟨f, hf, hid, hready f hf htarget⟩

/-- After the arrivals along the flows that leave a node, which has just been logged, the tokens
still track the log. -/
theorem Tracks.reached (ht : a.Tracks b stack) (ha : g.Defines a) (x : Activity)
    (now : Instant) : (a.reached b x.id now).Tracks b (stack ++ [x]) := by
  unfold Tracks Activity.reached
  -- There are enough arrivals to take all tokens of the route.
  have henough := Builder.length_untaken_le hb.flows hg ha (b.routeFrom x.id)
  rw [Builder.targetIds_routeFrom hb.flows hg] at henough
  rw [tokens_arrivals_of_le henough]
  intro t' ht'
  obtain ⟨t, htok, rfl⟩ := List.mem_map.mp ht'
  rw [Token.edge_arriveAll]
  -- The new log accounts for the tokens that were taken before and for those of the route.
  have hlogged : (∃ f ∈ b.flows, f.id = t.edge ∧ f.source ∈ (stack ++ [x]).map (·.id)) ↔
      t.taken = true ∨ t.edge ∈ b.routeFrom x.id := by
    rw [ht t htok, Builder.mem_routeFrom]
    simp only [mem_ids_append]
    constructor
    · rintro ⟨f, hf, hid, hsource | hsource⟩
      · exact .inl ⟨f, hf, hid, hsource⟩
      · exact .inr ⟨f, hf, hid, hsource⟩
    · rintro (⟨f, hf, hid, hsource⟩ | ⟨f, hf, hid, hsource⟩)
      · exact ⟨f, hf, hid, .inl hsource⟩
      · exact ⟨f, hf, hid, .inr hsource⟩
  rw [hlogged]
  by_cases hroute : t.edge ∈ b.routeFrom x.id
  · simp [Token.arriveAll, hroute, Token.take]
  · simp [Token.arriveAll, hroute]

/-- After one arrival or more along those flows the activity is entered just when it is ready. -/
theorem Tracks.isEntered_reached_iff (ht : a.Tracks b stack) (ha : g.Defines a)
    (hlead : b.Leads x.id a.id) :
    (a.reached b x.id now).isEntered = true ↔ b.Ready (stack ++ [x]) a.id := by
  have hpos : 0 < (b.targetsFrom x.id).count a.id :=
    List.count_pos_iff.mpr (Builder.mem_targetsFrom.mpr hlead)
  obtain ⟨f, hf, hsource, htarget⟩ := hlead
  cases hk : a.gateway? with
  | none =>
    -- The one flow to the activity comes from the logged node.
    have hentered : (a.reached b x.id now).status = some .entered :=
      status_arrivals (b.routeFrom x.id) now hk hpos
    have hready : b.Ready (stack ++ [x]) a.id := by
      intro f' hf' htarget'
      rw [hb.flow_eq_of_target hg ha hk hf' hf htarget' htarget]
      exact mem_ids_append.mpr (.inr hsource)
    simp [isEntered, isIn, hentered, hready]
  | some w =>
    -- The join decides, and it holds just when the gateway is ready.
    have hw := kind_of_gateway? hk
    obtain ⟨w', hw', hstatus⟩ := arrivals_gateway (b.routeFrom x.id) now hw
      (hb.not_refuses hg ha) hpos
    have hjoin := (ht.reached hb hg ha x now).joinSatisfied_iff hb hg
      (ha.of_blank (blank_reached _ _)) hw' ⟨f, hf, by rw [htarget, id_reached]⟩
    rw [id_reached] at hjoin
    rw [← hjoin, isEntered, isIn, Activity.reached, hstatus]
    cases w'.joinSatisfied <;> simp

/-- The join of a ready gateway holds. -/
theorem Tracks.joinSatisfied_of_ready (ht : a.Tracks b stack) (ha : g.Defines a)
    (hready : b.Ready stack a.id) {w : Gateway} (hw : a.kind = .gateway w) :
    w.joinSatisfied = true := by
  -- A gateway is not the start event, so a flow leads to it.
  have hflow : ∃ f ∈ b.flows, f.target = a.id := by
    obtain ⟨n, hn, hid, -⟩ := Builder.exists_node_of_activity? hg ha
    obtain ⟨start, hstart, hgroup, hdefinition⟩ := Builder.exists_start_node hg
    rw [← hid]
    refine hb.exists_flow_to hg hn fun heq => ?_
    rw [hdefinition, Builder.id_definitionOf] at heq
    obtain rfl := hb.node_eq_of_id hg hn hstart heq
    have hkind := Builder.kind_of_defines hg hn ha hid.symm
    rw [hw, Builder.kindOf, hgroup] at hkind
    cases hkind
  exact (ht.joinSatisfied_iff hb hg ha hw hflow).mpr hready

/-- A ready activity goes on along all flows that leave it. -/
theorem Tracks.routes_eq (ht : a.Tracks b stack) (ha : g.Defines a)
    (hready : b.Ready stack a.id) : a.routes? = some (b.routeFrom a.id, a) := by
  have hout : Document.records a.outgoing = b.routeFrom a.id := by
    rw [(Builder.edges_of_defines hg ha).2, Builder.records_outgoingOf, Builder.routeFrom]
  cases hk : a.gateway? with
  | none => rw [routes_of_not_gateway hk, hout]
  | some w =>
    have hw := kind_of_gateway? hk
    have hparallel := hb.parallel_of_defines hg ha hw
    have hjoin := ht.joinSatisfied_of_ready hb hg ha hready hw
    -- It splits along all of its edges and is not changed by that.
    have hsplit : w.splitEdges = b.routeFrom a.id := by
      have hmatch := ((Document.wellFormed_of_compile hg).matchRefs ha hw).2
      rw [← hout, ← Tokens.edges_of_matchRefs hmatch, Gateway.splitEdges]
      cases w.outgoing with
      | none => rfl
      | some out => simp [hparallel, Document.records]
    have hafter : w.afterSplit = w := by rw [Gateway.afterSplit, hparallel]
    have hsame : ({ a with kind := .gateway w } : Activity) = a := by rw [← hw]
    rw [routes?, hw]
    simp only [Gateway.routes?, hjoin, if_true, Option.map_some, hsplit, hafter, hsame]

end Join

end Activity

namespace History

variable {b : Builder} {g : Graph} {h : History} {x : Activity} {now : Instant}

section Onward

variable (hb : b.ForkJoin) (hg : b.build.compile = .ok g)

include hb hg

/-- No activity of the process refuses, so the route along the flows that leave a logged one is
followed to its end. -/
theorem advance_routeFrom (hc : h.Coherent g) (hx : g.Defines x) (now : Instant) :
    g.advance (b.routeFrom x.id) (h.retire x).head now =
      { head := (h.retire x).head.map (·.reached b x.id now),
        fresh := .ok ((g.newcomers (h.retire x).head (b.targetsFrom x.id)).map fun d =>
          (d.instantiate now).reached b x.id now) } := by
  have hwf := Document.wellFormed_of_compile hg
  have hr := hc.retire hx
  rw [Graph.advance_eq hr.unique (fun a ha _ => hb.not_refuses hg (hr.live a ha))
    (fun target _ d hd => hb.not_refuses hg (hwf.defines hd)),
    Builder.targetIds_routeFrom hb.flows hg]
  simp only [Activity.reached, Activity.id_instantiate]

/-- What is live after an activity is logged and followed along all flows that leave it. -/
theorem onward_eq (hc : h.Coherent g) (hx : g.Defines x) :
    h.onward g (b.routeFrom x.id) x now =
      { head := (h.retire x).head.map (·.reached b x.id now) ++
          (g.newcomers (h.retire x).head (b.targetsFrom x.id)).map fun d =>
            (d.instantiate now).reached b x.id now,
        stack := h.stack ++ [x] } :=
  onward_eq_append (hc.retire hx).unique (advance_routeFrom hb hg hc hx now)

end Onward

/-- How far a fork/join process has come. -/
structure Progress (b : Builder) (g : Graph) (h : History) : Prop where
  /-- The history is coherent. -/
  coherent : h.Coherent g
  /-- No activity is logged twice. -/
  once : (h.stack.map (·.id)).Nodup
  /-- Live are the nodes that are not logged and to which a flow leads from one that is, and at
  first the start event. -/
  live_iff : ∀ n ∈ b.nodes, n.id ∈ h.head.map (·.id) ↔ n.id ∉ h.stack.map (·.id) ∧
    (n.id = g.start.id ∨ ∃ f ∈ b.flows, f.target = n.id ∧ f.source ∈ h.stack.map (·.id))
  /-- Every activity was ready when it was logged. -/
  ordered : ∀ before a later, h.stack = before ++ a :: later → b.Ready before a.id
  /-- The tokens at gateways track the log. -/
  tracks : ∀ a ∈ h.head, a.Tracks b h.stack
  /-- Entered are the live activities that are ready. -/
  entered_iff : ∀ a ∈ h.head, a.isEntered = true ↔ b.Ready h.stack a.id

namespace Progress

variable (hb : b.ForkJoin) (hg : b.build.compile = .ok g)

include hg in
/-- A live activity is that of a node. -/
theorem exists_node (hp : h.Progress b g) {a : Activity} (ha : a ∈ h.head) :
    ∃ n ∈ b.nodes, n.id = a.id := by
  obtain ⟨n, hn, hid, -⟩ := Builder.exists_node_of_activity? hg (hp.coherent.live a ha)
  exact ⟨n, hn, hid⟩

include hg in
/-- A live activity is not logged. -/
theorem not_logged (hp : h.Progress b g) {a : Activity} (ha : a ∈ h.head) :
    a.id ∉ h.stack.map (·.id) := by
  obtain ⟨n, hn, hid⟩ := hp.exists_node hg ha
  rw [← hid]
  exact ((hp.live_iff n hn).mp (hid ▸ List.mem_map_of_mem ha)).1

/-- The source of a flow to a logged activity is logged. -/
theorem source_logged (hp : h.Progress b g) {f : Flow} (hf : f ∈ b.flows)
    (ht : f.target ∈ h.stack.map (·.id)) : f.source ∈ h.stack.map (·.id) := by
  obtain ⟨a, ha, hid⟩ := List.mem_map.mp ht
  -- The target was ready when it was logged, and its sources stand before it.
  obtain ⟨before, later, hs⟩ := List.append_of_mem ha
  have hbefore := hp.ordered before a later hs f hf hid.symm
  rw [hs, List.map_append]
  exact List.mem_append_left _ hbefore

/-- The source of a flow was logged before its target. -/
theorem source_precedes (hp : h.Progress b g) {f : Flow} (hf : f ∈ b.flows) {j : Nat}
    {a : Activity} (hj : h.stack[j]? = some a) (hid : a.id = f.target) :
    ∃ i < j, ∃ a', h.stack[i]? = some a' ∧ a'.id = f.source := by
  obtain ⟨hlt, rfl⟩ := List.getElem?_eq_some_iff.mp hj
  have hsplit : h.stack = h.stack.take j ++ h.stack[j] :: h.stack.drop (j + 1) := by simp
  obtain ⟨a', ha', hsource⟩ := List.mem_map.mp (hp.ordered _ _ _ hsplit f hf hid.symm)
  obtain ⟨i, hi, rfl⟩ := List.mem_iff_getElem.mp ha'
  rw [List.length_take] at hi
  refine ⟨i, by omega, h.stack[i], ?_, ?_⟩
  · exact List.getElem?_eq_getElem (by omega)
  · rw [← hsource, List.getElem_take]

include hb in
/-- A node to which a flow leads from one that is not logged is not logged, and it is another
one. -/
theorem not_logged_of_leads (hp : h.Progress b g) (hx : x.id ∉ h.stack.map (·.id)) {id : String}
    (hlead : b.Leads x.id id) : id ∉ (h.stack ++ [x]).map (·.id) := by
  obtain ⟨f, hf, hsource, rfl⟩ := hlead
  rw [mem_ids_append, not_or]
  constructor
  · intro hlogged
    exact hx (hsource ▸ hp.source_logged hf hlogged)
  · intro htarget
    exact hb.source_ne_target hf (hsource.trans htarget.symm)

include hb hg

/-- At first the start event is live, and nothing is logged. -/
theorem start (now : Instant) :
    Progress b g { head := [g.start.instantiate now] } := by
  have hwf := Document.wellFormed_of_compile hg
  have hfound : g.activity? g.start.id = some g.start :=
    hwf.activity?_of_mem (List.mem_cons_self ..)
  refine ⟨coherent_start hwf now, by simp, ?_, ?_, ?_, ?_⟩
  · intro n hn
    simp
  · intro before a later hs
    simp at hs
  · intro a ha t ht
    obtain rfl := List.mem_singleton.mp ha
    rw [Activity.tokens_instantiate] at ht
    refine iff_of_false (Activity.not_taken_of_blank (hwf.blank_activity? hfound) ht) ?_
    rintro ⟨f, -, -, hsource⟩
    cases hsource
  · intro a ha
    obtain rfl := List.mem_singleton.mp ha
    rw [Activity.id_instantiate]
    refine iff_of_true rfl fun f hf htarget => ?_
    exact absurd htarget (hb.target_ne_start hg hf)

/-- The live activity of a node is found by the node's name. -/
theorem headByName?_of_mem (hp : h.Progress b g) {n : BuilderNode} (hn : n ∈ b.nodes)
    {name : String} (hname : n.name = some name) {a : Activity} (ha : a ∈ h.head)
    (hid : a.id = n.id) : h.headByName? name = some a := by
  have hnamed : a.name = some name := by
    have hblank := Builder.blank_of_defines hg hn (hp.coherent.live a ha) hid
    have hsame : a.name = n.name := congrArg Activity.name hblank
    rw [hsame, hname]
  unfold headByName?
  cases hfind : h.head.find? (·.hasName name) with
  | none =>
    have hnone := List.find?_eq_none.mp hfind a ha
    simp [Activity.hasName, hnamed] at hnone
  | some a' =>
    -- What was found has the name of the node too.
    have hmem := List.mem_of_find?_eq_some hfind
    have hnamed' : a'.name = some name := by
      have hhas := List.find?_some hfind
      simpa [Activity.hasName] using hhas
    have hid' := hb.id_eq_of_name hg (hp.coherent.live a' hmem) hn (hnamed'.trans hname.symm)
    rw [List.inj_on_of_nodup_map hp.coherent.unique hmem ha (hid'.trans hid.symm)]

/-- A new instance of a node that is not live tracks the log: no flow to it comes from a logged
node. -/
theorem tracks_instantiate (hp : h.Progress b g) {d : Activity} (hd : g.activity? d.id = some d)
    (hlogged : d.id ∉ h.stack.map (·.id)) (hlive : d.id ∉ h.head.map (·.id)) (now : Instant) :
    (d.instantiate now).Tracks b h.stack := by
  have hwf := Document.wellFormed_of_compile hg
  have hdefines := hwf.defines hd
  intro t ht
  rw [Activity.tokens_instantiate] at ht
  refine iff_of_false (Activity.not_taken_of_blank (hwf.blank_activity? hd) ht) ?_
  rintro ⟨f, hf, hid, hsource⟩
  -- The flow leads to the node, which would be live then.
  have htarget : f.target = d.id := by
    obtain ⟨f', hf', hid', htarget⟩ := Builder.exists_flow_of_token hg hdefines ht
    rw [Builder.flow_eq_of_id hb.flows hf hf' (hid.trans hid'.symm)]
    exact htarget
  obtain ⟨n, hn, hnid, -⟩ := Builder.exists_node_of_activity? hg hd
  rw [← hnid] at hlogged hlive htarget
  exact hlive ((hp.live_iff n hn).mpr ⟨hlogged, .inr ⟨f, hf, htarget, hsource⟩⟩)

/-- What is live after an activity is logged and followed comes from an activity that tracked the
log before: one that was live, or a new one to which a flow leads. -/
theorem exists_of_mem_onward (hp : h.Progress b g) (hdefines : g.Defines x)
    (hx : x.id ∉ h.stack.map (·.id)) {a : Activity}
    (ha : a ∈ (h.onward g (b.routeFrom x.id) x now).head) :
    ∃ a₀, g.Defines a₀ ∧ a₀.Tracks b h.stack ∧
      a = a₀.reached b x.id now ∧
      (a₀ ∈ h.head ∨ b.Leads x.id a₀.id) := by
  rw [onward_eq hb hg hp.coherent hdefines] at ha
  rcases List.mem_append.mp ha with ha | ha
  · obtain ⟨a₀, ha₀, rfl⟩ := List.mem_map.mp ha
    have hmem := List.mem_of_mem_filter ha₀
    exact ⟨a₀, hp.coherent.live a₀ hmem, hp.tracks a₀ hmem, rfl, .inl hmem⟩
  · obtain ⟨d, hd, rfl⟩ := List.mem_map.mp ha
    obtain ⟨htarget, hnot, hfound⟩ := Graph.mem_newcomers.mp hd
    have hlead := Builder.mem_targetsFrom.mp htarget
    have hlogged := hp.not_logged_of_leads hb hx hlead
    rw [mem_ids_append, not_or] at hlogged
    have hlive : d.id ∉ h.head.map (·.id) := fun hmem =>
      hnot (mem_ids_retire.mpr ⟨hmem, hlogged.2⟩)
    refine ⟨d.instantiate now, ?_, hp.tracks_instantiate hb hg hfound hlogged.1 hlive now, rfl, ?_⟩
    · exact ((Document.wellFormed_of_compile hg).defines hfound).of_blank
        (d.blank_instantiate now)
    · rw [Activity.id_instantiate]
      exact .inr hlead

/-- The nodes that are live after an activity is logged and followed. -/
theorem live_onward_iff (hp : h.Progress b g) (hdefines : g.Defines x) {n : BuilderNode}
    (hn : n ∈ b.nodes) :
    n.id ∈ (h.onward g (b.routeFrom x.id) x now).head.map (·.id) ↔
      (n.id ∈ h.head.map (·.id) ∧ n.id ≠ x.id) ∨ b.Leads x.id n.id := by
  have hids : (h.onward g (b.routeFrom x.id) x now).head.map (·.id) =
      (h.retire x).head.map (·.id) ++
        (g.newcomers (h.retire x).head (b.targetsFrom x.id)).map (·.id) := by
    rw [onward_eq hb hg hp.coherent hdefines]
    simp [Function.comp_def]
  rw [hids, List.mem_append, ← mem_ids_retire]
  -- A target that is live already is no newcomer, so the two sides overlap.
  constructor
  · rintro (hmem | hmem)
    · exact .inl hmem
    · obtain ⟨d, hd, hid⟩ := List.mem_map.mp hmem
      rw [← hid]
      exact .inr (Builder.mem_targetsFrom.mp (Graph.mem_newcomers.mp hd).1)
  · rintro (hmem | hlead)
    · exact .inl hmem
    · by_cases hmem : n.id ∈ (h.retire x).head.map (·.id)
      · exact .inl hmem
      · have hnew : b.definitionOf n ∈ g.newcomers (h.retire x).head (b.targetsFrom x.id) :=
          Graph.mem_newcomers.mpr
            ⟨Builder.mem_targetsFrom.mpr hlead, hmem, Builder.activity?_of_compile hg hn⟩
        exact .inr (List.mem_map.mpr ⟨b.definitionOf n, hnew, rfl⟩)

/-- What is live after an activity is logged and followed is told by the new log. -/
theorem live_iff_onward (hp : h.Progress b g) (hdefines : g.Defines x)
    (hx : x.id ∉ h.stack.map (·.id)) {n : BuilderNode} (hn : n ∈ b.nodes) :
    n.id ∈ (h.onward g (b.routeFrom x.id) x now).head.map (·.id) ↔
      n.id ∉ (h.stack ++ [x]).map (·.id) ∧ (n.id = g.start.id ∨
        ∃ f ∈ b.flows, f.target = n.id ∧ f.source ∈ (h.stack ++ [x]).map (·.id)) := by
  rw [hp.live_onward_iff hb hg hdefines hn, hp.live_iff n hn]
  simp only [mem_ids_append, not_or]
  constructor
  · rintro (⟨⟨hnot, hstart | ⟨f, hf, htarget, hsource⟩⟩, hne⟩ | hlead)
    · exact ⟨⟨hnot, hne⟩, .inl hstart⟩
    · exact ⟨⟨hnot, hne⟩, .inr ⟨f, hf, htarget, .inl hsource⟩⟩
    · have hnot := hp.not_logged_of_leads hb hx hlead
      rw [mem_ids_append, not_or] at hnot
      obtain ⟨f, hf, hsource, htarget⟩ := hlead
      exact ⟨hnot, .inr ⟨f, hf, htarget, .inr hsource⟩⟩
  · rintro ⟨⟨hnot, hne⟩, hstart | ⟨f, hf, htarget, hsource | hsource⟩⟩
    · exact .inl ⟨⟨hnot, .inl hstart⟩, hne⟩
    · exact .inl ⟨⟨hnot, .inr ⟨f, hf, htarget, hsource⟩⟩, hne⟩
    · exact .inr ⟨f, hf, hsource, htarget⟩

/-- What is live after an activity is logged and followed is entered just when it is ready. -/
theorem entered_iff_onward (hp : h.Progress b g) (hdefines : g.Defines x)
    (hx : x.id ∉ h.stack.map (·.id)) {a : Activity}
    (ha : a ∈ (h.onward g (b.routeFrom x.id) x now).head) :
    a.isEntered = true ↔ b.Ready (h.stack ++ [x]) a.id := by
  obtain ⟨a₀, hdef, htracks, rfl, hfrom⟩ := hp.exists_of_mem_onward hb hg hdefines hx ha
  rw [Activity.id_reached]
  by_cases hlead : b.Leads x.id a₀.id
  · exact htracks.isEntered_reached_iff hb hg hdef hlead
  · -- Nothing has arrived, and no flow to the activity comes from the logged one.
    have hzero : (b.targetsFrom x.id).count a₀.id = 0 :=
      List.count_eq_zero_of_not_mem fun hmem => hlead (Builder.mem_targetsFrom.mp hmem)
    have hlive : a₀ ∈ h.head := hfrom.resolve_right hlead
    rw [Activity.reached, hzero, Activity.arrivals_zero, hp.entered_iff a₀ hlive]
    constructor
    · intro hready f hf htarget
      exact mem_ids_append.mpr (.inl (hready f hf htarget))
    · intro hready f hf htarget
      rcases mem_ids_append.mp (hready f hf htarget) with hsource | hsource
      · exact hsource
      · exact absurd ⟨f, hf, hsource, htarget⟩ hlead

/-- A ready activity that finishes is logged, and the flow goes on from it. -/
theorem onward (hp : h.Progress b g) {a : Activity} (ha : a ∈ h.head)
    (ready : b.Ready h.stack a.id) (hx : x.blank = a.blank) (now : Instant) :
    (h.onward g (b.routeFrom x.id) x now).Progress b g := by
  have hid : x.id = a.id := Activity.id_eq_of_blank hx
  have hdefines : g.Defines x := (hp.coherent.live a ha).of_blank hx
  have hnew : x.id ∉ h.stack.map (·.id) := by rw [hid]; exact hp.not_logged hg ha
  have hstack : (h.onward g (b.routeFrom x.id) x now).stack = h.stack ++ [x] := by
    rw [onward_eq hb hg hp.coherent hdefines]
  have hwf := Document.wellFormed_of_compile hg
  constructor
  case coherent => exact hp.coherent.onward hwf hdefines _ now
  case once =>
    rw [hstack, List.map_append, List.map_singleton, ← List.concat_eq_append]
    exact hp.once.concat hnew
  case live_iff =>
    intro n hn
    rw [hstack]
    exact hp.live_iff_onward hb hg hdefines hnew hn
  case ordered =>
    rw [hstack]
    intro before a' later hs
    rcases split_append hs with ⟨rfl, rfl⟩ | ⟨later', hs'⟩
    · rw [hid]; exact ready
    · exact hp.ordered before a' later' hs'
  case tracks =>
    intro a' ha'
    obtain ⟨a₀, hdef, htracks, rfl, -⟩ := hp.exists_of_mem_onward hb hg hdefines hnew ha'
    rw [hstack]
    exact htracks.reached hb hg hdef x now
  case entered_iff =>
    intro a' ha'
    rw [hstack]
    exact hp.entered_iff_onward hb hg hdefines hnew ha'

/-- As long as nodes are left, a live activity is entered. -/
theorem exists_entered (hp : h.Progress b g)
    (left : ∃ n ∈ b.nodes, n.id ∉ h.stack.map (·.id)) : ∃ a ∈ h.head, a.isEntered = true := by
  obtain ⟨n, hn, hnot, hready⟩ := hb.exists_next left
  -- The node that comes next is live, as all flows to it come from logged nodes.
  have hlive : n.id ∈ h.head.map (·.id) := by
    refine (hp.live_iff n hn).mpr ⟨hnot, ?_⟩
    by_cases hstart : n.id = g.start.id
    · exact .inl hstart
    · obtain ⟨f, hf, htarget⟩ := hb.exists_flow_to hg hn hstart
      exact .inr ⟨f, hf, htarget, hready f hf htarget⟩
  obtain ⟨a, ha, hid⟩ := List.mem_map.mp hlive
  exact ⟨a, ha, (hp.entered_iff a ha).mpr (hid ▸ hready)⟩

end Progress

end History

end Workflow
