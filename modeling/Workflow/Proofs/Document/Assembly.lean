import Mathlib.Algebra.BigOperators.Group.List.Basic
import Mathlib.Algebra.Ring.Nat
import Workflow.Proofs.Document.Builder
import Workflow.Proofs.Document.Compile

/-!
# What the additions to a builder compile to

Nodes, flows, lanes and boundary events are added to a builder in any order and any number
(`Builder.Addition`).  The builder keeps each sort in the order of the additions, and its document
lists the nodes group by group instead: the same nodes in another order (`Builder.perm_entries`).
So a process that was assembled compiles just when one start event and some end event were added and
the ids of the nodes are distinct; an empty list of edges, which a document can have, is never
assembled.

Each compiled activity then refers to the flows that name it, and in which of the three spellings is
a matter of their number alone (`Spells`).  `Builder.exists_compile_assemble_iff` says both of the
additions, without the builder.
-/

namespace Workflow

/-! ## Lists -/

/-- A list is, but for the order, the groups into which a key divides it, if every key that occurs
is listed and none is listed twice. -/
theorem perm_flatMap_filter {α κ : Type} [DecidableEq α] [DecidableEq κ] (key : α → κ)
    {keys : List κ} (unique : keys.Nodup) {as : List α} (covered : ∀ a ∈ as, key a ∈ keys) :
    (keys.flatMap fun k => as.filter (key · == k)).Perm as := by
  rw [List.perm_iff_count]
  intro a
  -- Of the groups only that of its key counts an element.
  have hgroup : ∀ k, (as.filter (key · == k)).count a = if k = key a then as.count a else 0 := by
    intro k
    split
    · next h => exact List.count_filter (by simp [h])
    · next h =>
      rw [List.count_eq_zero]
      intro hmem
      exact h (eq_of_beq (List.mem_filter.mp hmem).2).symm
  have hsum : ∀ keys : List κ, (keys.map fun k => if k = key a then as.count a else 0).sum =
      keys.count (key a) * as.count a := by
    intro keys
    induction keys with
    | nil => simp
    | cons k keys ih => by_cases h : k = key a <;> simp [h, ih, Nat.add_mul, Nat.add_comm]
  rw [List.count_flatMap]
  simp only [Function.comp_def, hgroup, hsum]
  by_cases ha : a ∈ as
  · rw [List.count_eq_one_of_mem unique (covered a ha), one_mul]
  · rw [List.count_eq_zero.mpr ha, mul_zero]

/-! ## Spellings -/

/-- Whether a collection has these elements, in the spelling that their number asks for. -/
structure Spells {α : Type} (collection : Option (OneOrMany α)) (as : List α) : Prop where
  /-- The elements are these, in this order. -/
  elements : Document.records collection = as
  /-- The collection is absent just when there is no element. -/
  absent : collection = none ↔ as = []
  /-- The collection is bare just when there is one element. -/
  bare : (∃ a, collection = some (.one a)) ↔ as.length = 1
  /-- The collection is a list just when there are several elements. -/
  listed : (∃ bs, collection = some (.many bs)) ↔ 2 ≤ as.length

/-- The shortest spelling of a list spells it. -/
theorem spells_ofList? {α : Type} (as : List α) : Spells (OneOrMany.ofList? as) as := by
  refine ⟨OneOrMany.records_ofList? as, ?_, ?_, ?_⟩ <;>
    match as with
    | [] => simp [OneOrMany.ofList?]
    | [_] => simp [OneOrMany.ofList?]
    | _ :: _ :: _ => simp [OneOrMany.ofList?]

/-- The empty list is no spelling of anything. -/
theorem Spells.ne_many_nil {α : Type} {collection : Option (OneOrMany α)} {as : List α}
    (h : Spells collection as) : collection ≠ some (.many []) := by
  intro hempty
  have hnil : as = [] := by
    rw [← h.elements, hempty]
    rfl
  have hmany : 2 ≤ as.length := h.listed.mp ⟨[], hempty⟩
  simp [hnil] at hmany

/-- The first flow that leaves a node is what is found. -/
theorem find?_source_iff {flows : List Flow} {source : String} {f : Flow} :
    flows.find? (·.source == source) = some f ↔ IsFirst (·.source = source) flows f :=
  find?_eq_some_iff_isFirst fun f => by simp

/-- Whether an edge is that of the first flow that leaves a node, or empty where none leaves it. -/
def FirstEdge (flows : List Flow) (source edge : String) : Prop :=
  (∃ f, IsFirst (·.source = source) flows f ∧ edge = f.id) ∨
    (∀ f ∈ flows, f.source ≠ source) ∧ edge = ""

/-- There is just one such edge. -/
theorem firstEdge_iff {flows : List Flow} {source edge : String} :
    FirstEdge flows source edge ↔
      edge = ((flows.find? (·.source == source)).map (·.id)).getD "" := by
  unfold FirstEdge
  simp only [← find?_source_iff]
  cases hfind : flows.find? (·.source == source) with
  | none =>
    have hnone : ∀ f ∈ flows, f.source ≠ source := by simpa using hfind
    simp only [reduceCtorEq, false_and, exists_false, false_or, and_iff_right hnone,
      Option.map_none, Option.getD_none]
  | some f =>
    have hsource : f.source = source := by simpa using List.find?_some hfind
    have hsome : ¬ ∀ f ∈ flows, f.source ≠ source := fun hnone =>
      hnone f (List.mem_of_find?_eq_some hfind) hsource
    simp [hsome]

namespace Builder

variable {b : Builder} {g : Graph}

/-! ## Additions -/

/-- Something that is added to a builder. -/
inductive Addition where
  /-- A start event. -/
  | start (id name : String)
  /-- An end event. -/
  | finish (id name : String)
  /-- A task of a kind. -/
  | task (kind : TaskKind) (id name : String)
  /-- A gateway of a kind. -/
  | gateway (kind : GatewayKind) (id name : String)
  /-- A throwing intermediate event. -/
  | throwEvent (id name : String)
  /-- A catching intermediate event. -/
  | catchEvent (id name : String) (trigger : Trigger)
  /-- A boundary event attached to a task. -/
  | boundary (id attachedTo : String) (trigger : Option Trigger)
  /-- A lane. -/
  | lane (id name : String) (members : List String)
  /-- A flow. -/
  | flow (id source target : String)

/-- The builder after an addition. -/
def add (b : Builder) : Addition → Builder
  | .start id name => b.start id name
  | .finish id name => b.finish id name
  | .task kind id name => b.task kind id name
  | .gateway kind id name => b.gateway kind id name
  | .throwEvent id name => b.throwEvent id name
  | .catchEvent id name trigger => b.catchEvent id name trigger
  | .boundary id attachedTo trigger => b.boundary id attachedTo trigger
  | .lane id name members => b.lane id name members
  | .flow id source target => b.flow id source target

/-- The builder of a process after some additions. -/
def assemble (id : String) (additions : List Addition) : Builder := additions.foldl add { id }

namespace Addition

/-- The group and the id of the node that is added, if it is a node. -/
def node? : Addition → Option (NodeGroup × String)
  | start id _ => some (.start, id)
  | finish id _ => some (.finish, id)
  | task kind id _ => some (.task kind, id)
  | gateway kind id _ => some (.gateway kind, id)
  | throwEvent id _ => some (.throwEvent, id)
  | catchEvent id _ _ => some (.catchEvent, id)
  | _ => none

/-- The flow that is added, if it is one. -/
def flow? : Addition → Option Flow
  | flow id source target => some ⟨id, source, target⟩
  | _ => none

/-- The boundary event that is added, if it is one. -/
def boundary? : Addition → Option BuilderBoundary
  | boundary id attachedTo trigger => some ⟨id, attachedTo, trigger⟩
  | _ => none

end Addition

/-- A list that each addition makes longer by what it adds has, after some additions, what they
add. -/
theorem foldl_add {β : Type} (view : Builder → List β) (part : Addition → Option β)
    (step : ∀ b x, view (b.add x) = view b ++ (part x).toList) (b : Builder)
    (additions : List Addition) :
    view (additions.foldl add b) = view b ++ additions.filterMap part := by
  induction additions generalizing b with
  | nil => simp
  | cons x additions ih =>
    rw [List.foldl_cons, ih, step, List.append_assoc]
    cases h : part x <;> simp [h]

/-- The nodes of an assembled builder are those that were added. -/
theorem nodes_assemble (id : String) (additions : List Addition) :
    (assemble id additions).nodes.map (fun n => (n.group, n.id)) =
      additions.filterMap Addition.node? := by
  refine foldl_add (fun b => b.nodes.map fun n => (n.group, n.id)) _ (fun b x => ?_) _ _
  cases x <;> simp [add, start, finish, task, gateway, throwEvent, catchEvent, addNode, boundary,
    lane, flow, Addition.node?]

/-- The flows of an assembled builder are those that were added. -/
theorem flows_assemble (id : String) (additions : List Addition) :
    (assemble id additions).flows = additions.filterMap Addition.flow? := by
  refine foldl_add Builder.flows _ (fun b x => ?_) _ _
  cases x <;> simp [add, start, finish, task, gateway, throwEvent, catchEvent, addNode, boundary,
    lane, flow, Addition.flow?]

/-- The boundary events of an assembled builder are those that were added. -/
theorem boundaries_assemble (id : String) (additions : List Addition) :
    (assemble id additions).boundaries = additions.filterMap Addition.boundary? := by
  refine foldl_add Builder.boundaries _ (fun b x => ?_) _ _
  cases x <;> simp [add, start, finish, task, gateway, throwEvent, catchEvent, addNode, boundary,
    lane, flow, Addition.boundary?]

/-! ## Which processes compile -/

/-- The records of a group are those of its nodes. -/
theorem collectionOf_build (group : NodeGroup) :
    b.build.collectionOf group = b.collection group := by
  cases group with
  | task kind => exact tasksOf_build kind
  | gateway kind => exact gatewaysOf_build kind
  | _ => rfl

/-- The document has the nodes that were added, group by group. -/
theorem perm_entries (b : Builder) :
    (b.build.entries.map (·.2.id)).Perm (b.nodes.map (·.id)) := by
  have hentries : b.build.entries.map (·.2.id) =
      (NodeGroup.all.flatMap fun group => b.nodes.filter (·.group == group)).map (·.id) := by
    simp [Document.entries, collectionOf_build, List.map_flatMap, recordOf, Function.comp_def]
  have hall : ∀ n ∈ b.nodes, n.group ∈ NodeGroup.all := fun n _ => NodeGroup.mem_all n.group
  rw [hentries]
  exact (perm_flatMap_filter BuilderNode.group (by decide) hall).map _

/-- The document of a builder has distinct ids if the nodes do, and no empty list of edges. -/
theorem sound_build : b.build.Sound ↔ (b.nodes.map (·.id)).Nodup := by
  constructor
  · intro h
    exact (perm_entries b).nodup_iff.mp h.unique
  · intro h
    refine ⟨(perm_entries b).nodup_iff.mpr h, ?_⟩
    rintro ⟨group, r⟩ hr
    rw [Document.mem_entries, collectionOf_build, records_collection] at hr
    obtain ⟨n, -, rfl⟩ := List.mem_map.mp hr
    exact ⟨(spells_ofList? _).ne_many_nil, (spells_ofList? _).ne_many_nil⟩

/-- The document of a builder compiles just when one start event and some end event were added and
no two nodes have the same id. -/
theorem exists_compile_build_iff :
    (∃ g, b.build.compile = .ok g) ↔
      (b.nodes.filter (·.group == .start)).length = 1 ∧ (∃ n ∈ b.nodes, n.group = .finish) ∧
        (b.nodes.map (·.id)).Nodup := by
  have hstart : (∃ r, b.build.startEvent = some (.one r)) ↔
      (b.nodes.filter (·.group == .start)).length = 1 := by
    have hbare := (spells_ofList? ((b.nodes.filter (·.group == .start)).map b.recordOf)).bare
    rwa [List.length_map] at hbare
  have hend : b.build.endEvent.isSome = true ↔ ∃ n ∈ b.nodes, n.group = .finish := by
    have habsent : b.build.endEvent = none ↔
        (b.nodes.filter (·.group == .finish)).map b.recordOf = [] := (spells_ofList? _).absent
    rw [Option.isSome_iff_ne_none, Ne, habsent]
    simp
  rw [← hstart, ← hend, ← sound_build]
  constructor
  · rintro ⟨g, compiled⟩
    obtain ⟨r, hr, hsome, hlists, hunique, -⟩ := Document.compile_ok_iff.mp compiled
    exact ⟨⟨r, hr⟩, hsome, (Document.sound_iff hr).mpr ⟨hlists, hunique⟩⟩
  · rintro ⟨⟨r, hr⟩, hsome, hsound⟩
    obtain ⟨hlists, hunique⟩ := (Document.sound_iff hr).mp hsound
    exact ⟨_, Document.compile_ok_iff.mpr ⟨r, hr, hsome, hlists, hunique, rfl⟩⟩

/-! ## What they compile to -/

/-- Whether additions make a process that compiles. -/
structure Complete (additions : List Addition) : Prop where
  /-- One start event is added. -/
  start : ((additions.filterMap Addition.node?).filter (·.1 == .start)).length = 1
  /-- An end event is added. -/
  finish : ∃ n ∈ additions.filterMap Addition.node?, n.1 = .finish
  /-- The ids of the nodes that are added are distinct. -/
  unique : ((additions.filterMap Addition.node?).map (·.2)).Nodup

/-- Whether a boundary event is that of a task: the first that is attached to it, which leads along
the first flow that leaves it. -/
def HangsOn (additions : List Addition) (task : String) (e : BoundaryEvent) : Prop :=
  ∃ x edge, IsFirst (·.attachedTo = task) (additions.filterMap Addition.boundary?) x ∧
    FirstEdge (additions.filterMap Addition.flow?) x.id edge ∧
    e = ⟨x.id, task, edge, some (x.trigger.getD .normal), {}⟩

/-- Whether a graph is what additions make. -/
structure Yields (additions : List Addition) (g : Graph) : Prop where
  /-- There is one activity for each node. -/
  ids : (g.activities.map (·.id)).Perm ((additions.filterMap Addition.node?).map (·.2))
  /-- An activity is reached by the flows that lead to it, in the order of their addition. -/
  incoming : ∀ a ∈ g.activities, Spells a.incoming
    (((additions.filterMap Addition.flow?).filter (·.target == a.id)).map (·.id))
  /-- An activity is left by the flows that lead out of it, in the order of their addition. -/
  outgoing : ∀ a ∈ g.activities, Spells a.outgoing
    (((additions.filterMap Addition.flow?).filter (·.source == a.id)).map (·.id))
  /-- A task has the first boundary event that is attached to it. -/
  tasks : ∀ kind task, (.task kind, task) ∈ additions.filterMap Addition.node? →
    ∃ a t, g.activity? task = some a ∧ a.kind = .task t ∧ t.kind = kind ∧
      ∀ e, t.boundary = some e ↔ HangsOn additions task e

/-- The activities of a compiled process have the ids of the nodes. -/
theorem perm_activities (compiled : b.build.compile = .ok g) :
    (g.activities.map (·.id)).Perm (b.nodes.map (·.id)) := by
  have hids : g.activities.map (·.id) = b.build.entries.map (·.2.id) := by
    rw [Document.activities_of_compile compiled, List.map_map]
    exact List.map_congr_left fun e _ => Document.id_definitionFor e.1 e.2
  rw [hids]
  exact perm_entries b

/-- The boundary records of a document are those of the boundary events that were added. -/
theorem records_boundaryEvent (b : Builder) :
    Document.records b.build.boundaryEvent = b.boundaries.map b.boundaryRecord := by
  show Document.records (listed (b.boundaries.map b.boundaryRecord)) = _
  cases b.boundaries <;> rfl

/-- The boundary event that the document gives a task is the first that was attached to it. -/
theorem hangsOn_assemble {id : String} {additions : List Addition} {task : String}
    {e : BoundaryEvent} :
    (assemble id additions).build.boundaryOf? task = some e ↔ HangsOn additions task e := by
  have hedge : ∀ x edge, FirstEdge (additions.filterMap Addition.flow?) x.id edge ↔
      edge = ((assemble id additions).boundaryRecord x).outgoing := by
    intro x edge
    rw [firstEdge_iff, ← flows_assemble id, boundaryRecord]
  rw [Document.boundaryOf?_eq_some_iff, Document.Attaches, records_boundaryEvent,
    boundaries_assemble, HangsOn]
  simp only [isFirst_map, hedge]
  constructor
  · rintro ⟨r, ⟨x, hx, rfl⟩, rfl⟩
    exact ⟨x, _, hx, rfl, rfl⟩
  · rintro ⟨x, edge, hx, rfl, rfl⟩
    exact ⟨_, ⟨x, hx, rfl⟩, rfl⟩

/-- A compiled process is what the additions make. -/
theorem yields_of_compile {id : String} {additions : List Addition}
    (compiled : (assemble id additions).build.compile = .ok g) : Yields additions g := by
  have hg := Document.wellFormed_of_compile compiled
  have hnodes := nodes_assemble id additions
  have hedges : ∀ a ∈ g.activities, a.incoming = (assemble id additions).incomingOf a.id ∧
      a.outgoing = (assemble id additions).outgoingOf a.id := fun a ha =>
    edges_of_defines compiled (hg.defines (hg.activity?_of_mem ha))
  refine ⟨?_, fun a ha => ?_, fun a ha => ?_, fun kind task htask => ?_⟩
  · have hids : (assemble id additions).nodes.map (·.id) =
        (additions.filterMap Addition.node?).map (·.2) := by
      rw [← hnodes, List.map_map]
      rfl
    rw [← hids]
    exact perm_activities compiled
  · rw [(hedges a ha).1, ← flows_assemble id]
    exact spells_ofList? _
  · rw [(hedges a ha).2, ← flows_assemble id]
    exact spells_ofList? _
  · rw [← hnodes] at htask
    obtain ⟨n, hn, hpair⟩ := List.mem_map.mp htask
    obtain ⟨hgroup, rfl⟩ := Prod.mk.inj hpair
    have hkind : ((assemble id additions).definitionOf n).kind =
        .task ⟨kind, (assemble id additions).build.boundaryOf? n.id⟩ := by
      rw [kind_definitionOf, kindOf, hgroup]
    exact ⟨_, _, activity?_of_compile compiled hn, hkind, rfl, fun e => hangsOn_assemble⟩

/-- What was added compiles just when one start event and some end event were added and the ids of
the nodes are distinct.  Each activity then refers to the flows that name it, in their order and in
the spelling that their number asks for; and every boundary event, that of a task among them, leads
along the first flow that leaves it, if any does. -/
theorem exists_compile_assemble_iff (id : String) (additions : List Addition) :
    ((∃ g, (assemble id additions).build.compile = .ok g) ↔ Complete additions) ∧
      (∀ g, (assemble id additions).build.compile = .ok g → Yields additions g) ∧
      List.Forall₂ (fun x r => r.id = x.id ∧ r.attachedTo = x.attachedTo ∧ r.trigger = x.trigger ∧
          FirstEdge (additions.filterMap Addition.flow?) x.id r.outgoing)
        (additions.filterMap Addition.boundary?)
        (Document.records (assemble id additions).build.boundaryEvent) := by
  refine ⟨?_, fun g compiled => yields_of_compile compiled, ?_⟩
  · have hnodes := nodes_assemble id additions
    rw [exists_compile_build_iff]
    constructor
    · rintro ⟨hstart, ⟨n, hn, hfinish⟩, hunique⟩
      refine ⟨?_, ⟨(n.group, n.id), ?_, hfinish⟩, ?_⟩
      · rwa [← hnodes, List.filter_map, List.length_map]
      · rw [← hnodes]
        exact List.mem_map_of_mem hn
      · rwa [← hnodes, List.map_map]
    · rintro ⟨hstart, ⟨n, hn, hfinish⟩, hunique⟩
      rw [← hnodes] at hstart hn hunique
      rw [List.filter_map, List.length_map] at hstart
      rw [List.map_map] at hunique
      obtain ⟨node, hnode, rfl⟩ := List.mem_map.mp hn
      exact ⟨hstart, ⟨node, hnode, hfinish⟩, hunique⟩
  · rw [records_boundaryEvent, boundaries_assemble, List.forall₂_map_right_iff, List.forall₂_same]
    intro x _
    refine ⟨rfl, rfl, rfl, firstEdge_iff.mpr ?_⟩
    rw [← flows_assemble id, boundaryRecord]

/-- A process whose flows and boundary events come before the nodes that they name, and whose task
has two boundary events, of which the first is left by two flows. -/
def refund : List Addition :=
  [.flow "f_late" "late" "remind", .flow "f_end" "join" "end",
    .boundary "late" "check" (some .timer), .finish "end" "End", .boundary "lost" "check" none,
    .flow "f_escalate" "late" "end",
    .task .script "remind" "", .gateway .exclusive "join" "Join", .flow "f_remind" "remind" "join",
    .task .user "check" "Check", .lane "office" "Office" ["check"],
    .flow "f_start" "start" "check", .flow "f_check" "check" "join", .start "start" "Start"]

/-- It compiles; its join has two edges in and one out, and its task has the boundary event that was
added first, with the flow that was. -/
theorem exists_compile_refund :
    ∃ g, (assemble "refund" refund).build.compile = .ok g ∧ Complete refund ∧ Yields refund g ∧
      (g.activity? "join").map (fun a => (a.incoming, a.outgoing)) =
        some (some (.many ["f_remind", "f_check"]), some (.one "f_end")) ∧
      (g.activity? "check").map (·.kind) =
        some (.task ⟨.user, some ⟨"late", "check", "f_late", some .timer, {}⟩⟩) := by
  obtain ⟨g, compiled⟩ : ∃ g, (assemble "refund" refund).build.compile = .ok g := ⟨_, rfl⟩
  obtain ⟨hcompiles, hyields, -⟩ := exists_compile_assemble_iff "refund" refund
  refine ⟨g, compiled, hcompiles.mp ⟨g, compiled⟩, hyields g compiled, ?_, ?_⟩ <;>
    cases compiled <;> rfl

end Builder

end Workflow
