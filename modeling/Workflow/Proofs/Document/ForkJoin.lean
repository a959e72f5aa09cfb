import Mathlib.Order.WellFoundedSet
import Workflow.Proofs.Document.Builder
import Workflow.Proofs.Graph.Routing

/-!
# Fork/join processes

A fork/join process has flows without cycles, along which every node is reached from the start
event, parallel gateways only, and joins only at gateways (`Builder.ForkJoin`).  The flows give an
order on the nodes, and all arguments about such a process go along that order: the start event is
first, every other node has a flow that leads to it, and of the nodes that are left at any time
there is one to which all flows lead from nodes that are done (`ForkJoin.exists_next`).
-/

namespace Workflow

namespace Builder

variable {b : Builder} {g : Graph}

/-- Whether a flow leads from a node to another. -/
def Leads (b : Builder) (source target : String) : Prop :=
  ∃ f ∈ b.flows, f.source = source ∧ f.target = target

/-- The processes in which parallel branches fork and join, and nothing else decides where the flow
goes on. -/
structure ForkJoin (b : Builder) : Prop where
  /-- Flows have ids of their own. -/
  flows : (b.flows.map (·.id)).Nodup
  /-- Nodes are named. -/
  named : ∀ n ∈ b.nodes, n.name ≠ none
  /-- They have names of their own. -/
  names : (b.nodes.map (·.name)).Nodup
  /-- Flows leave nodes. -/
  sources : ∀ f ∈ b.flows, f.source ∈ b.nodes.map (·.id)
  /-- They lead to nodes. -/
  targets : ∀ f ∈ b.flows, f.target ∈ b.nodes.map (·.id)
  /-- They do not lead back to where they come from. -/
  acyclic : ∀ id, ¬ Relation.TransGen b.Leads id id
  /-- Every node is reached from the start event. -/
  reachable : ∀ start ∈ b.nodes, start.group = .start → ∀ n ∈ b.nodes,
    Relation.ReflTransGen b.Leads start.id n.id
  /-- Gateways are parallel. -/
  parallel : ∀ n ∈ b.nodes, ∀ kind, n.group = .gateway kind → kind = .parallel
  /-- Only gateways have more than one incoming flow. -/
  joins : ∀ n ∈ b.nodes, (∀ kind, n.group ≠ .gateway kind) →
    (b.flows.filter (·.target == n.id)).length ≤ 1

section Rank

variable (rank : String → Nat) (grows : ∀ f ∈ b.flows, rank f.source < rank f.target)

include grows

/-- Flows along which a rank of the nodes grows have no cycle. -/
theorem acyclic_of_rank (id : String) : ¬ Relation.TransGen b.Leads id id := by
  -- The rank grows along every path.
  have hlt : ∀ {source target}, Relation.TransGen b.Leads source target →
      rank source < rank target := by
    intro source target hpath
    induction hpath with
    | single hlead =>
      obtain ⟨f, hf, rfl, rfl⟩ := hlead
      exact grows f hf
    | tail _ hlead ih =>
      obtain ⟨f, hf, rfl, rfl⟩ := hlead
      exact ih.trans (grows f hf)
  exact fun hcycle => Nat.lt_irrefl _ (hlt hcycle)

/-- When a flow leads to every node but one, all nodes are reached from that one. -/
theorem reachable_of_rank (sources : ∀ f ∈ b.flows, f.source ∈ b.nodes.map (·.id)) {start : String}
    (enters : ∀ n ∈ b.nodes, n.id ≠ start → ∃ f ∈ b.flows, f.target = n.id) {n : BuilderNode}
    (hn : n ∈ b.nodes) : Relation.ReflTransGen b.Leads start n.id := by
  induction hrank : rank n.id using Nat.strong_induction_on generalizing n with
  | _ r ih =>
    by_cases hstart : n.id = start
    · rw [hstart]
    · obtain ⟨f, hf, htarget⟩ := enters n hn hstart
      obtain ⟨m, hm, hsource⟩ := List.mem_map.mp (sources f hf)
      have hlt : rank m.id < r := by
        rw [← hrank, ← htarget]
        exact hsource ▸ grows f hf
      exact (ih _ hlt hm rfl).tail ⟨f, hf, hsource.symm, htarget⟩

end Rank

namespace ForkJoin

variable (hb : b.ForkJoin) (hg : b.build.compile = .ok g)

include hb

include hg in
/-- Nodes have ids of their own. -/
theorem node_eq_of_id {n n' : BuilderNode} (hn : n ∈ b.nodes) (hn' : n' ∈ b.nodes)
    (h : n.id = n'.id) : n = n' := by
  have hfound := activity?_of_compile hg hn
  rw [h, activity?_of_compile hg hn'] at hfound
  have hname : n'.name = n.name := congrArg Activity.name (Option.some.inj hfound)
  exact List.inj_on_of_nodup_map hb.names hn hn' hname.symm

include hg in
/-- An activity that has the name of a node is of that node. -/
theorem id_eq_of_name {a : Activity} (ha : g.Defines a) {n : BuilderNode} (hn : n ∈ b.nodes)
    (h : a.name = n.name) : a.id = n.id := by
  obtain ⟨n', hn', hid, hblank⟩ := exists_node_of_activity? hg ha
  have hname : a.name = n'.name := congrArg Activity.name hblank
  rw [← hid, List.inj_on_of_nodup_map hb.names hn' hn (hname.symm.trans h)]

include hg in
/-- No flow leads to the start event. -/
theorem target_ne_start {f : Flow} (hf : f ∈ b.flows) : f.target ≠ g.start.id := by
  obtain ⟨start, hstart, hgroup, hdefinition⟩ := exists_start_node hg
  obtain ⟨n, hn, hsource⟩ := List.mem_map.mp (hb.sources f hf)
  intro htarget
  -- The flow would close a cycle: its source is reached from the start event.
  rw [hdefinition] at htarget
  have hreach := hb.reachable start hstart hgroup n hn
  exact hb.acyclic start.id (Relation.TransGen.tail' hreach ⟨f, hf, hsource.symm, htarget⟩)

include hg in
/-- A flow leads to every other node. -/
theorem exists_flow_to {n : BuilderNode} (hn : n ∈ b.nodes) (hne : n.id ≠ g.start.id) :
    ∃ f ∈ b.flows, f.target = n.id := by
  obtain ⟨start, hstart, hgroup, hdefinition⟩ := exists_start_node hg
  rcases Relation.ReflTransGen.cases_tail (hb.reachable start hstart hgroup n hn) with
    heq | ⟨c, -, f, hf, -, htarget⟩
  · rw [hdefinition] at hne
    exact absurd heq hne
  · exact ⟨f, hf, htarget⟩

/-- No flow leads from a node to itself. -/
theorem source_ne_target {f : Flow} (hf : f ∈ b.flows) : f.source ≠ f.target := by
  intro heq
  exact hb.acyclic f.source (.single ⟨f, hf, rfl, heq.symm⟩)

/-- As long as nodes are left, there is one to which all flows lead from nodes that are done. -/
theorem exists_next {done : List String} (h : ∃ n ∈ b.nodes, n.id ∉ done) :
    ∃ n ∈ b.nodes, n.id ∉ done ∧ ∀ f ∈ b.flows, f.target = n.id → f.source ∈ done := by
  have hirrefl : Std.Irrefl (Relation.TransGen b.Leads) := ⟨hb.acyclic⟩
  have hstrict : IsStrictOrder String (Relation.TransGen b.Leads) := {}
  have hwf : {id | id ∈ b.nodes.map (·.id)}.WellFoundedOn (Relation.TransGen b.Leads) :=
    (List.finite_toSet _).wellFoundedOn
  -- The node that is left and comes first in the order of the flows.
  obtain ⟨n, hn, hleft⟩ := h
  obtain ⟨⟨id, hid⟩, hnot, hfirst⟩ := hwf.has_min {x | x.1 ∉ done}
    ⟨⟨n.id, List.mem_map_of_mem hn⟩, hleft⟩
  obtain ⟨m, hm, rfl⟩ := List.mem_map.mp hid
  refine ⟨m, hm, hnot, fun f hf htarget => ?_⟩
  by_contra hsource
  exact hfirst ⟨f.source, hb.sources f hf⟩ hsource (.single ⟨f, hf, rfl, htarget⟩)

include hg in
/-- A gateway of the process is parallel, and no activity of it refuses arrivals. -/
theorem parallel_of_defines {a : Activity} (ha : g.Defines a) {w : Gateway}
    (hw : a.kind = .gateway w) : w.kind = .parallel := by
  obtain ⟨n, hn, -, hgroup⟩ := exists_gateway_node hg ha hw
  exact hb.parallel n hn w.kind hgroup

include hg in
/-- No activity of the process refuses arrivals. -/
theorem not_refuses {a : Activity} (ha : g.Defines a) : ¬ a.Refuses := by
  rintro ⟨w, hw, hcomplex⟩
  rw [hb.parallel_of_defines hg ha hw] at hcomplex
  cases hcomplex

include hg in
/-- An activity that is no gateway has at most one incoming flow. -/
theorem flow_eq_of_target {a : Activity} (ha : g.Defines a) (hnot : a.gateway? = none)
    {f f' : Flow} (hf : f ∈ b.flows) (hf' : f' ∈ b.flows) (htarget : f.target = a.id)
    (htarget' : f'.target = a.id) : f = f' := by
  obtain ⟨n, hn, hid, -⟩ := exists_node_of_activity? hg ha
  have hgroup : ∀ kind, n.group ≠ .gateway kind := by
    intro kind hkind
    have hk := kind_of_defines hg hn ha hid.symm
    rw [kindOf, hkind] at hk
    unfold Activity.gateway? at hnot
    cases hak : a.kind with
    | gateway w => rw [hak] at hnot; cases hnot
    | task t => rw [hak] at hk; cases hk
    | event e => rw [hak] at hk; cases hk
  have hone := hb.joins n hn hgroup
  have hmem : ∀ f ∈ b.flows, f.target = a.id → f ∈ b.flows.filter (·.target == n.id) := by
    intro f hf htarget
    exact List.mem_filter.mpr ⟨hf, by simp [htarget, hid]⟩
  have hmem' := hmem f' hf' htarget'
  have hmem := hmem f hf htarget
  rcases hlist : b.flows.filter (·.target == n.id) with _ | ⟨f₀, _ | ⟨f₁, rest⟩⟩
  · rw [hlist] at hmem
    cases hmem
  · rw [hlist, List.mem_singleton] at hmem hmem'
    rw [hmem, hmem']
  · rw [hlist] at hone
    simp at hone

end ForkJoin

end Builder

end Workflow
