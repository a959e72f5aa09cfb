import Mathlib.Data.List.Perm.Subperm
import Workflow.Document.Builder
import Workflow.Proofs.Activity.Tokens
import Workflow.Proofs.Graph.Compile

/-!
# What a builder compiles to

A process that was assembled with a builder compiles to one definition for each node
(`Builder.mem_activities`) and to the flows as they were added.  The incoming edges of an instance
are the flows that lead to it, and the outgoing ones those that leave it, in the order of their
addition (`Builder.edges_of_defines`).  If flow ids are distinct, the lookup of an edge gives the
flow that it is the id of (`Builder.edge?_of_compile`).
-/

namespace Workflow

namespace OneOrMany

variable {α : Type}

/-- The shortest spelling of a list has the elements of the list. -/
@[simp]
theorem records_ofList? (as : List α) : Document.records (ofList? as) = as := by
  match as with
  | [] => rfl
  | [a] => rfl
  | a :: b :: as => rfl

/-- A list is spelled bare when it has one element. -/
theorem ofList?_eq_one {as : List α} {a : α} (h : ofList? as = some (.one a)) : as = [a] := by
  match as with
  | [] => cases h
  | [b] => cases h; rfl
  | b :: c :: as => cases h

/-- A list is spelled as a list when it has several elements. -/
theorem ofList?_of_several {as : List α} (h : 2 ≤ as.length) : ofList? as = some (.many as) := by
  match as with
  | [] => simp at h
  | [a] => simp at h
  | a :: b :: as => rfl

end OneOrMany

namespace Builder

variable {b : Builder}

/-- What a node has beyond other nodes. -/
def kindOf (b : Builder) (n : BuilderNode) : Kind :=
  match n.group with
  | .start => .event (.plain .start)
  | .finish => .event (.plain .finish)
  | .task kind => .task ⟨kind, b.build.boundaryOf? n.id⟩
  | .gateway kind => .gateway (.ofRefs kind (b.incomingOf n.id) (b.outgoingOf n.id))
  | .throwEvent => .event (.intermediate .intermediateThrow n.trigger)
  | .catchEvent => .event (.intermediate .intermediateCatch n.trigger)

/-- The definition of a node. -/
def definitionOf (b : Builder) (n : BuilderNode) : Activity :=
  b.build.definition (b.recordOf n) (b.kindOf n)

@[simp] theorem id_definitionOf (n : BuilderNode) : (b.definitionOf n).id = n.id := rfl

@[simp] theorem kind_definitionOf (n : BuilderNode) : (b.definitionOf n).kind = b.kindOf n := rfl

/-- The records of a collection are those of the nodes of its group. -/
@[simp]
theorem records_collection (group : NodeGroup) :
    Document.records (b.collection group) =
      (b.nodes.filter (·.group == group)).map b.recordOf := by
  simp [collection]

/-- A record of a collection is that of a node of its group. -/
theorem mem_records_collection {group : NodeGroup} {f : ActivityRecord → Activity} {a : Activity} :
    a ∈ (Document.records (b.collection group)).map f ↔
      ∃ n ∈ b.nodes, n.group = group ∧ a = f (b.recordOf n) := by
  rw [records_collection]
  simp only [List.mem_map, List.mem_filter, beq_iff_eq]
  constructor
  · rintro ⟨r, ⟨n, ⟨hn, hg⟩, rfl⟩, rfl⟩
    exact ⟨n, hn, hg, rfl⟩
  · rintro ⟨n, hn, hg, rfl⟩
    exact ⟨b.recordOf n, ⟨n, ⟨hn, hg⟩, rfl⟩, rfl⟩

/-- The collection of the tasks of a kind. -/
theorem tasksOf_build (kind : TaskKind) : b.build.tasksOf kind = b.collection (.task kind) := by
  cases kind <;> rfl

/-- The collection of the gateways of a kind. -/
theorem gatewaysOf_build (kind : GatewayKind) :
    b.build.gatewaysOf kind = b.collection (.gateway kind) := by
  cases kind <;> rfl

/-- The definitions of tasks are those of the nodes that are tasks. -/
theorem mem_taskDefinitions {a : Activity} :
    a ∈ b.build.taskDefinitions ↔
      ∃ n ∈ b.nodes, (∃ kind, n.group = .task kind) ∧ a = b.definitionOf n := by
  simp only [Document.taskDefinitions, List.mem_flatMap, tasksOf_build, mem_records_collection]
  constructor
  · rintro ⟨kind, -, n, hn, hg, rfl⟩
    exact ⟨n, hn, ⟨kind, hg⟩, by simp [definitionOf, kindOf, hg, Document.taskOf, recordOf]⟩
  · rintro ⟨n, hn, ⟨kind, hg⟩, rfl⟩
    exact ⟨kind, by cases kind <;> simp [TaskKind.all], n, hn, hg,
      by simp [definitionOf, kindOf, hg, Document.taskOf, recordOf]⟩

/-- The definitions of gateways are those of the nodes that are gateways. -/
theorem mem_gatewayDefinitions {a : Activity} :
    a ∈ b.build.gatewayDefinitions ↔
      ∃ n ∈ b.nodes, (∃ kind, n.group = .gateway kind) ∧ a = b.definitionOf n := by
  simp only [Document.gatewayDefinitions, List.mem_flatMap, gatewaysOf_build,
    mem_records_collection]
  constructor
  · rintro ⟨kind, -, n, hn, hg, rfl⟩
    exact ⟨n, hn, ⟨kind, hg⟩, by simp [definitionOf, kindOf, hg, Document.gatewayOf, recordOf]⟩
  · rintro ⟨n, hn, ⟨kind, hg⟩, rfl⟩
    exact ⟨kind, by cases kind <;> simp [GatewayKind.all], n, hn, hg,
      by simp [definitionOf, kindOf, hg, Document.gatewayOf, recordOf]⟩

/-- The definitions of events after the start are those of the other nodes. -/
theorem mem_eventDefinitions {a : Activity} :
    a ∈ b.build.endDefinitions ++ b.build.intermediateDefinitions ↔
      ∃ n ∈ b.nodes, (n.group = .finish ∨ n.group = .throwEvent ∨ n.group = .catchEvent) ∧
        a = b.definitionOf n := by
  have hcollections : b.build.endEvent = b.collection .finish ∧
      b.build.throwEvent = b.collection .throwEvent ∧
      b.build.catchEvent = b.collection .catchEvent := ⟨rfl, rfl, rfl⟩
  simp only [Document.endDefinitions, Document.intermediateDefinitions, List.mem_append,
    hcollections, mem_records_collection]
  constructor
  · rintro (⟨n, hn, hg, rfl⟩ | ⟨n, hn, hg, rfl⟩ | ⟨n, hn, hg, rfl⟩)
    · exact ⟨n, hn, .inl hg, by simp [definitionOf, kindOf, hg, Document.plainEvent]⟩
    · exact ⟨n, hn, .inr (.inl hg), by
        simp [definitionOf, kindOf, hg, Document.intermediateEvent, recordOf]⟩
    · exact ⟨n, hn, .inr (.inr hg), by
        simp [definitionOf, kindOf, hg, Document.intermediateEvent, recordOf]⟩
  · rintro ⟨n, hn, hg | hg | hg, rfl⟩
    · exact .inl ⟨n, hn, hg, by simp [definitionOf, kindOf, hg, Document.plainEvent]⟩
    · exact .inr (.inl ⟨n, hn, hg, by
        simp [definitionOf, kindOf, hg, Document.intermediateEvent, recordOf]⟩)
    · exact .inr (.inr ⟨n, hn, hg, by
        simp [definitionOf, kindOf, hg, Document.intermediateEvent, recordOf]⟩)

/-- The other definitions are those of the nodes that are no start event. -/
theorem mem_otherDefinitions {a : Activity} :
    a ∈ b.build.otherDefinitions ↔ ∃ n ∈ b.nodes, n.group ≠ .start ∧ a = b.definitionOf n := by
  rw [Document.otherDefinitions, List.mem_append, List.mem_append, mem_taskDefinitions,
    mem_gatewayDefinitions, mem_eventDefinitions]
  constructor
  · rintro ((⟨n, hn, ⟨kind, hg⟩, rfl⟩ | ⟨n, hn, ⟨kind, hg⟩, rfl⟩) | ⟨n, hn, hg, rfl⟩)
    · exact ⟨n, hn, by simp [hg], rfl⟩
    · exact ⟨n, hn, by simp [hg], rfl⟩
    · exact ⟨n, hn, by rcases hg with hg | hg | hg <;> simp [hg], rfl⟩
  · rintro ⟨n, hn, hg, rfl⟩
    -- One case for each group other than that of the start event.
    cases h : n.group with
    | start => exact absurd h hg
    | task kind => exact .inl (.inl ⟨n, hn, ⟨kind, h⟩, rfl⟩)
    | gateway kind => exact .inl (.inr ⟨n, hn, ⟨kind, h⟩, rfl⟩)
    | finish => exact .inr ⟨n, hn, .inl h, rfl⟩
    | throwEvent => exact .inr ⟨n, hn, .inr (.inl h), rfl⟩
    | catchEvent => exact .inr ⟨n, hn, .inr (.inr h), rfl⟩

section Compiles

variable {g : Graph}

/-- The graph has the flows as they were added. -/
theorem edges_of_compile (h : b.build.compile = .ok g) : g.edges = b.flows := by
  obtain ⟨r, -, -, -, -, rfl⟩ := Document.compile_ok_iff.mp h
  show Document.records (listed b.flows) = b.flows
  cases b.flows <;> rfl

/-- The start event is the one node of its group. -/
theorem start_of_compile (h : b.build.compile = .ok g) :
    ∃ n, b.nodes.filter (·.group == .start) = [n] ∧ g.start = b.definitionOf n := by
  obtain ⟨r, hr, -, -, -, rfl⟩ := Document.compile_ok_iff.mp h
  have hone : (b.nodes.filter (·.group == .start)).map b.recordOf = [r] :=
    OneOrMany.ofList?_eq_one hr
  obtain ⟨n, hn, rfl⟩ := List.map_eq_singleton_iff.mp hone
  have hgroup : n.group = .start := by
    have hmem : n ∈ b.nodes.filter (·.group == .start) := by
      rw [hn]
      exact List.mem_singleton_self n
    simpa using (List.mem_filter.mp hmem).2
  exact ⟨n, hn, by simp [Document.graphOf, definitionOf, kindOf, hgroup, Document.plainEvent]⟩

/-- The start event is the definition of a node. -/
theorem exists_start_node (h : b.build.compile = .ok g) :
    ∃ n ∈ b.nodes, n.group = .start ∧ g.start = b.definitionOf n := by
  obtain ⟨n, hn, hdefinition⟩ := start_of_compile h
  have hmem : n ∈ b.nodes.filter (·.group == .start) := by
    rw [hn]
    exact List.mem_singleton_self n
  obtain ⟨hnode, hgroup⟩ := List.mem_filter.mp hmem
  exact ⟨n, hnode, eq_of_beq hgroup, hdefinition⟩

/-- The definitions are those of the nodes. -/
theorem mem_activities (h : b.build.compile = .ok g) {a : Activity} :
    a ∈ g.activities ↔ ∃ n ∈ b.nodes, a = b.definitionOf n := by
  obtain ⟨start, hstart, hdefinition⟩ := start_of_compile h
  have hmem : ∀ n, n ∈ b.nodes ∧ n.group = .start ↔ n = start := by
    intro n
    have hone := List.mem_singleton (a := n) (b := start)
    rw [← hstart] at hone
    simpa using hone
  have hothers : g.others = b.build.otherDefinitions := by
    obtain ⟨r, -, -, -, -, rfl⟩ := Document.compile_ok_iff.mp h
    rfl
  rw [Graph.activities, hdefinition, hothers, List.mem_cons, mem_otherDefinitions]
  constructor
  · rintro (rfl | ⟨n, hn, -, rfl⟩)
    · exact ⟨start, ((hmem start).mpr rfl).1, rfl⟩
    · exact ⟨n, hn, rfl⟩
  · rintro ⟨n, hn, rfl⟩
    by_cases hg : n.group = .start
    · rw [(hmem n).mp ⟨hn, hg⟩]
      exact .inl rfl
    · exact .inr ⟨n, hn, hg, rfl⟩

/-- The definition of a node is found by its id. -/
theorem activity?_of_compile (h : b.build.compile = .ok g) {n : BuilderNode} (hn : n ∈ b.nodes) :
    g.activity? n.id = some (b.definitionOf n) :=
  (Document.wellFormed_of_compile h).activity?_of_mem ((mem_activities h).mpr ⟨n, hn, rfl⟩)

/-- A definition that is found by its id is that of a node. -/
theorem exists_node_of_activity? (h : b.build.compile = .ok g) {id : String} {d : Activity}
    (hd : g.activity? id = some d) : ∃ n ∈ b.nodes, n.id = id ∧ d = b.definitionOf n := by
  obtain ⟨hmem, hid⟩ := Graph.activity?_some hd
  obtain ⟨n, hn, rfl⟩ := (mem_activities h).mp hmem
  exact ⟨n, hn, hid, rfl⟩

/-- The instances of the definition of a node are known by its id. -/
theorem blank_of_defines (h : b.build.compile = .ok g) {n : BuilderNode} (hn : n ∈ b.nodes)
    {a : Activity} (ha : g.Defines a) (hid : a.id = n.id) : a.blank = b.definitionOf n := by
  have hfound := activity?_of_compile h hn
  rw [← hid, ha] at hfound
  exact Option.some.inj hfound

/-- Their family part is known too, but for what changes while they are live. -/
theorem kind_of_defines (h : b.build.compile = .ok g) {n : BuilderNode} (hn : n ∈ b.nodes)
    {a : Activity} (ha : g.Defines a) (hid : a.id = n.id) : a.kind.blank = b.kindOf n := by
  rw [← Activity.kind_blank, blank_of_defines h hn ha hid, kind_definitionOf]

/-- The instances of a node that is a task are tasks. -/
theorem exists_task_of_defines (h : b.build.compile = .ok g) {n : BuilderNode} (hn : n ∈ b.nodes)
    {kind : TaskKind} (hgroup : n.group = .task kind) {a : Activity} (ha : g.Defines a)
    (hid : a.id = n.id) : ∃ t, a.kind = .task t := by
  have hkind := kind_of_defines h hn ha hid
  rw [kindOf, hgroup] at hkind
  cases hk : a.kind with
  | task t => exact ⟨t, rfl⟩
  | gateway w => rw [hk] at hkind; cases hkind
  | event v => rw [hk] at hkind; cases hkind

/-- An instance that is a gateway is that of a gateway node of the same kind. -/
theorem exists_gateway_node (h : b.build.compile = .ok g) {a : Activity} (ha : g.Defines a)
    {w : Gateway} (hw : a.kind = .gateway w) :
    ∃ n ∈ b.nodes, n.id = a.id ∧ n.group = .gateway w.kind := by
  obtain ⟨n, hn, hid, -⟩ := exists_node_of_activity? h ha
  have hkind := (kind_of_defines h hn ha hid.symm).symm
  rw [hw] at hkind
  unfold kindOf at hkind
  split at hkind
  · cases hkind
  · cases hkind
  · cases hkind
  · next kind hgroup =>
    have hsame : kind = w.kind := congrArg Gateway.kind (Kind.gateway.inj hkind)
    exact ⟨n, hn, hid, hsame ▸ hgroup⟩
  · cases hkind
  · cases hkind

end Compiles

/-! ## Edges -/

/-- The incoming edges of a node are the flows that lead to it. -/
theorem records_incomingOf (id : String) :
    Document.records (b.incomingOf id) = (b.flows.filter (·.target == id)).map (·.id) := by
  simp [incomingOf]

/-- The outgoing edges of a node are the flows that leave it. -/
theorem records_outgoingOf (id : String) :
    Document.records (b.outgoingOf id) = (b.flows.filter (·.source == id)).map (·.id) := by
  simp [outgoingOf]

/-- An instance has the flows that lead to it and those that leave it as its edges. -/
theorem edges_of_defines {g : Graph} (h : b.build.compile = .ok g) {a : Activity}
    (ha : g.Defines a) : a.incoming = b.incomingOf a.id ∧ a.outgoing = b.outgoingOf a.id := by
  obtain ⟨n, -, hid, hblank⟩ := exists_node_of_activity? h ha
  have hin : a.blank.incoming = b.incomingOf n.id := by rw [hblank]; rfl
  have hout : a.blank.outgoing = b.outgoingOf n.id := by rw [hblank]; rfl
  rw [hid] at hin hout
  exact ⟨hin, hout⟩

/-- The tokens of a gateway are those of the flows that lead to it, in their order. -/
theorem edges_tokens {g : Graph} (h : b.build.compile = .ok g) {a : Activity} (ha : g.Defines a)
    {w : Gateway} (hw : a.kind = .gateway w) :
    a.tokens.map Token.edge = (b.flows.filter (·.target == a.id)).map (·.id) := by
  have hmatch := ((Document.wellFormed_of_compile h).matchRefs ha hw).1
  rw [Activity.tokens_of_gateway hw, Tokens.edges_of_matchRefs hmatch, (edges_of_defines h ha).1,
    records_incomingOf]

/-- A gateway has a token for every flow that leads to it. -/
theorem exists_token {g : Graph} (h : b.build.compile = .ok g) {a : Activity} (ha : g.Defines a)
    {w : Gateway} (hw : a.kind = .gateway w) {f : Flow} (hf : f ∈ b.flows)
    (htarget : f.target = a.id) : ∃ t ∈ a.tokens, t.edge = f.id := by
  have hmem : f.id ∈ a.tokens.map Token.edge := by
    rw [edges_tokens h ha hw]
    exact List.mem_map_of_mem (List.mem_filter.mpr ⟨hf, by simp [htarget]⟩)
  exact List.mem_map.mp hmem

/-- A token is that of a flow that leads to its activity. -/
theorem exists_flow_of_token {g : Graph} (h : b.build.compile = .ok g) {a : Activity}
    (ha : g.Defines a) {t : Token} (ht : t ∈ a.tokens) :
    ∃ f ∈ b.flows, f.id = t.edge ∧ f.target = a.id := by
  cases hk : a.gateway? with
  | none => rw [Activity.tokens_of_not_gateway hk] at ht; cases ht
  | some w =>
    have hmem : t.edge ∈ (b.flows.filter (·.target == a.id)).map (·.id) := by
      rw [← edges_tokens h ha (Activity.kind_of_gateway? hk)]
      exact List.mem_map_of_mem ht
    obtain ⟨f, hf, hid⟩ := List.mem_map.mp hmem
    obtain ⟨hf, htarget⟩ := List.mem_filter.mp hf
    exact ⟨f, hf, hid, eq_of_beq htarget⟩

section Distinct

variable (distinct : (b.flows.map (·.id)).Nodup)

include distinct

/-- Flows with the same id are the same. -/
theorem flow_eq_of_id {f f' : Flow} (hf : f ∈ b.flows) (hf' : f' ∈ b.flows) (h : f.id = f'.id) :
    f = f' :=
  List.inj_on_of_nodup_map distinct hf hf' h

/-- A flow is found by its id. -/
theorem edge?_of_compile {g : Graph} (h : b.build.compile = .ok g) {f : Flow} (hf : f ∈ b.flows) :
    g.edge? f.id = some f := by
  unfold Graph.edge?
  rw [edges_of_compile h]
  exact find?_of_mem (·.id) distinct hf

/-- The nodes that some flows lead to are their targets. -/
theorem targetIds_of_compile {g : Graph} (h : b.build.compile = .ok g) {flows : List Flow}
    (hflows : ∀ f ∈ flows, f ∈ b.flows) :
    g.targetIds (flows.map (·.id)) = flows.map (·.target) := by
  unfold Graph.targetIds
  rw [List.filterMap_map]
  have hfound : ∀ f ∈ flows, (g.edge? ∘ (·.id)) f = some f := by
    intro f hf
    exact edge?_of_compile distinct h (hflows f hf)
  rw [List.filterMap_congr hfound, List.filterMap_some]

/-- There are no more untaken tokens on a route than the route has edges into the activity, if its
tokens are those of the flows that lead to it. -/
theorem length_untaken_le_of_edges {g : Graph} (h : b.build.compile = .ok g) {a : Activity}
    (hedges : a.tokens.map Token.edge = (b.flows.filter (·.target == a.id)).map (·.id))
    (route : List String) :
    (a.tokens.filter fun t => !t.taken && route.contains t.edge).length ≤
      (g.targetIds route).count a.id := by
  let untaken := a.tokens.filter fun t => !t.taken && route.contains t.edge
  let leadsHere : String → Bool := fun edge =>
    ((g.edge? edge).map (·.target == a.id)).getD false
  -- The tokens are those of different flows.
  have hnodup : (untaken.map Token.edge).Nodup := by
    have hall : (a.tokens.map Token.edge).Nodup := by
      rw [hedges]
      exact distinct.sublist (List.filter_sublist.map _)
    exact hall.sublist (List.filter_sublist.map _)
  have hsubset : untaken.map Token.edge ⊆ route.filter leadsHere := by
    intro edge hedge
    obtain ⟨t, ht, rfl⟩ := List.mem_map.mp hedge
    obtain ⟨htok, hcond⟩ := List.mem_filter.mp ht
    have hflow : t.edge ∈ (b.flows.filter (·.target == a.id)).map (·.id) :=
      hedges ▸ List.mem_map_of_mem htok
    obtain ⟨f, hf, hid⟩ := List.mem_map.mp hflow
    obtain ⟨hf, htarget⟩ := List.mem_filter.mp hf
    have hfound := edge?_of_compile distinct h hf
    rw [hid] at hfound
    refine List.mem_filter.mpr ⟨?_, by simpa [leadsHere, hfound] using htarget⟩
    simpa using (Bool.and_eq_true_iff.mp hcond).2
  calc untaken.length = (untaken.map Token.edge).length := (List.length_map ..).symm
    _ ≤ (route.filter leadsHere).length := (List.subperm_of_subset hnodup hsubset).length_le
    _ = (g.targetIds route).count a.id := by
      rw [Graph.targetIds, List.count, List.countP_map, List.countP_filterMap,
        List.countP_eq_length_filter]
      rfl

/-- There are no more untaken tokens on a route than the route has edges into the instance. -/
theorem length_untaken_le {g : Graph} (h : b.build.compile = .ok g) {a : Activity}
    (ha : g.Defines a) (route : List String) :
    (a.tokens.filter fun t => !t.taken && route.contains t.edge).length ≤
      (g.targetIds route).count a.id := by
  cases hk : a.gateway? with
  | none => rw [Activity.tokens_of_not_gateway hk]; exact Nat.zero_le _
  | some w =>
    exact length_untaken_le_of_edges distinct h (edges_tokens h ha (Activity.kind_of_gateway? hk))
      route

end Distinct

end Builder

end Workflow
