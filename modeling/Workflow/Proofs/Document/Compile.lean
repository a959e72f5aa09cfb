import Workflow.Document.Builder
import Workflow.Proofs.Graph.Compile

/-!
# What becomes of the records of a document

The activity records of a document lie in thirteen collections, each of them absent, bare or a list.
Compiling goes through the collections in one fixed order (`Document.entries`).  A document compiles
just when its start event is given bare, its end events are not left out, all ids differ and no
record lists its edges as an empty list (`Document.exists_compile_iff`).  End events that are given
as an empty list are not left out, so a process without an end event may compile
(`Document.not_forall_exists_finish`).

Nothing decides what a definition is but its record, the group of its collection, the lanes and the
boundary events.  `Document.Describes` says how, field by field, and the definitions of a graph are
those that the entries describe, one by one (`Document.compile_faithful`).
-/

namespace Workflow

namespace NodeGroup

/-- Every group of nodes, in the order in which their collections are compiled. -/
def all : List NodeGroup :=
  start :: (TaskKind.all.map task ++ GatewayKind.all.map gateway ++
    [finish, throwEvent, catchEvent])

/-- Every group of nodes is listed. -/
theorem mem_all (group : NodeGroup) : group ∈ all := by
  cases group with
  | task kind => cases kind <;> decide
  | gateway kind => cases kind <;> decide
  | _ => decide

/-- The kind of the events of a group of events. -/
def eventKind? : NodeGroup → Option EventKind
  | start => some .start
  | finish => some .finish
  | throwEvent => some .intermediateThrow
  | catchEvent => some .intermediateCatch
  | _ => none

/-- Only the start events are events of the first kind. -/
theorem eventKind?_start (group : NodeGroup) :
    group.eventKind? = some .start ↔ group = .start := by
  cases group <;> simp [eventKind?]

/-- Only the end events are events of the last kind. -/
theorem eventKind?_finish (group : NodeGroup) :
    group.eventKind? = some .finish ↔ group = .finish := by
  cases group <;> simp [eventKind?]

end NodeGroup

/-- Whether an activity is an event of a kind. -/
def Activity.isEvent (a : Activity) (kind : EventKind) : Bool := a.event?.any (·.kind == kind)

namespace Document

variable {p : Document} {g : Graph}

/-! ## Records in the order of compilation -/

/-- The collection of a group. -/
def collectionOf (p : Document) : NodeGroup → Option (OneOrMany ActivityRecord)
  | .start => p.startEvent
  | .finish => p.endEvent
  | .task kind => p.tasksOf kind
  | .gateway kind => p.gatewaysOf kind
  | .throwEvent => p.throwEvent
  | .catchEvent => p.catchEvent

/-- The activity records, each with the group of its collection, in the order of compilation. -/
def entries (p : Document) : List (NodeGroup × ActivityRecord) :=
  NodeGroup.all.flatMap fun group => (records (p.collectionOf group)).map (group, ·)

/-- The definition of a record of a group. -/
def definitionFor (p : Document) (group : NodeGroup) (r : ActivityRecord) : Activity :=
  match group with
  | .start => p.plainEvent .start r
  | .finish => p.plainEvent .finish r
  | .task kind => p.taskOf kind r
  | .gateway kind => p.gatewayOf kind r
  | .throwEvent => p.intermediateEvent .intermediateThrow r
  | .catchEvent => p.intermediateEvent .intermediateCatch r

/-- A definition has the id of its record. -/
@[simp]
theorem id_definitionFor (group : NodeGroup) (r : ActivityRecord) :
    (p.definitionFor group r).id = r.id := by
  cases group <;> rfl

/-- A definition lists its edges as its record does. -/
theorem listsEdges_definitionFor (group : NodeGroup) (r : ActivityRecord) :
    ListsEdges (p.definitionFor group r) ↔
      r.incoming ≠ some (.many []) ∧ r.outgoing ≠ some (.many []) := by
  cases group <;> rfl

/-- The group tells which definitions are events of a kind. -/
theorem isEvent_definitionFor (group : NodeGroup) (r : ActivityRecord) (kind : EventKind) :
    (p.definitionFor group r).isEvent kind = true ↔ group.eventKind? = some kind := by
  cases group <;>
    simp [definitionFor, plainEvent, intermediateEvent, taskOf, gatewayOf, definition,
      Activity.define, Activity.isEvent, Activity.event?, Event.plain, Event.intermediate,
      NodeGroup.eventKind?]

/-- The records of a collection are the entries of its group. -/
theorem mem_entries {group : NodeGroup} {r : ActivityRecord} :
    (group, r) ∈ p.entries ↔ r ∈ records (p.collectionOf group) := by
  simp only [entries, List.mem_flatMap, List.mem_map, Prod.mk.injEq]
  constructor
  · rintro ⟨_, -, r, hr, rfl, rfl⟩
    exact hr
  · intro hr
    exact ⟨group, group.mem_all, r, hr, rfl, rfl⟩

/-- The definitions of a graph are those of the entries, one by one. -/
theorem activities_graphOf {start : ActivityRecord} (h : p.startEvent = some (.one start)) :
    (p.graphOf start).activities = p.entries.map fun e => p.definitionFor e.1 e.2 := by
  simp [Graph.activities, graphOf, otherDefinitions, taskDefinitions, gatewayDefinitions,
    endDefinitions, intermediateDefinitions, entries, NodeGroup.all, TaskKind.all,
    GatewayKind.all, collectionOf, h, records, definitionFor, Function.comp_def]

/-- A graph compiled from a document has the definitions of its entries. -/
theorem activities_of_compile (compiled : p.compile = .ok g) :
    g.activities = p.entries.map fun e => p.definitionFor e.1 e.2 := by
  obtain ⟨r, hstart, -, -, -, rfl⟩ := compile_ok_iff.mp compiled
  exact activities_graphOf hstart

/-- A definition that is an event of a kind is that of a record of the group of such events. -/
theorem exists_isEvent_iff (compiled : p.compile = .ok g) {group : NodeGroup} {kind : EventKind}
    (only : ∀ group', group'.eventKind? = some kind ↔ group' = group) {a : Activity} :
    a ∈ g.activities ∧ a.isEvent kind = true ↔
      ∃ r ∈ records (p.collectionOf group), a = p.definitionFor group r := by
  rw [activities_of_compile compiled, List.mem_map]
  constructor
  · rintro ⟨⟨⟨group', r⟩, hr, rfl⟩, hkind⟩
    obtain rfl := (only group').mp ((isEvent_definitionFor group' r kind).mp hkind)
    exact ⟨r, mem_entries.mp hr, rfl⟩
  · rintro ⟨r, hr, rfl⟩
    exact ⟨⟨(group, r), mem_entries.mpr hr, rfl⟩,
      (isEvent_definitionFor group r kind).mpr ((only group).mpr rfl)⟩

/-! ## Which documents compile -/

/-- Whether no two activity records have the same id, and none lists its edges as an empty list. -/
structure Sound (p : Document) : Prop where
  /-- The ids are distinct across all collections. -/
  unique : (p.entries.map (·.2.id)).Nodup
  /-- No record has an empty list of edges on either side. -/
  lists : ∀ e ∈ p.entries, e.2.incoming ≠ some (.many []) ∧ e.2.outgoing ≠ some (.many [])

/-- What is asked of the definitions is asked of the records. -/
theorem sound_iff {start : ActivityRecord} (h : p.startEvent = some (.one start)) :
    p.Sound ↔ (∀ a ∈ (p.graphOf start).activities, ListsEdges a) ∧
      ((p.graphOf start).activities.map (·.id)).Nodup := by
  have hids : (p.graphOf start).activities.map (·.id) = p.entries.map (·.2.id) := by
    rw [activities_graphOf h, List.map_map]
    exact List.map_congr_left fun e _ => id_definitionFor e.1 e.2
  have hlists : (∀ a ∈ (p.graphOf start).activities, ListsEdges a) ↔
      ∀ e ∈ p.entries, e.2.incoming ≠ some (.many []) ∧ e.2.outgoing ≠ some (.many []) := by
    rw [activities_graphOf h, List.forall_mem_map]
    exact forall₂_congr fun e _ => listsEdges_definitionFor e.1 e.2
  rw [hids, hlists]
  exact ⟨fun hs => ⟨hs.lists, hs.unique⟩, fun ⟨hlists, hunique⟩ => ⟨hunique, hlists⟩⟩

/-- A collection that is there has a record or is the empty list. -/
theorem isSome_iff_records {α : Type} {collection : Option (OneOrMany α)} :
    collection.isSome = true ↔ records collection ≠ [] ∨ collection = some (.many []) := by
  cases collection with
  | none => simp [records]
  | some c =>
    cases c with
    | one r => simp [records]
    | many rs => cases rs <;> simp [records]

/-- A compiled process has one start event. -/
theorem existsUnique_start (compiled : p.compile = .ok g) :
    ∃! a, a ∈ g.activities ∧ a.isEvent .start = true := by
  obtain ⟨r, hstart, -⟩ := compile_ok_iff.mp compiled
  have hiff : ∀ a, a ∈ g.activities ∧ a.isEvent .start = true ↔
      a = p.definitionFor .start r := by
    intro a
    rw [exists_isEvent_iff compiled NodeGroup.eventKind?_start]
    simp [collectionOf, hstart, records]
  exact ⟨_, (hiff _).mpr rfl, fun a ha => (hiff a).mp ha⟩

/-- A compiled process has an end event unless the list of its end events was empty. -/
theorem exists_finish_iff (compiled : p.compile = .ok g) :
    (∃ a, a ∈ g.activities ∧ a.isEvent .finish = true) ↔ p.endEvent ≠ some (.many []) := by
  obtain ⟨r, -, hend, -⟩ := compile_ok_iff.mp compiled
  have hrecords : (∃ a, a ∈ g.activities ∧ a.isEvent .finish = true) ↔
      records p.endEvent ≠ [] := by
    constructor
    · rintro ⟨a, ha⟩
      obtain ⟨r, hr, -⟩ := (exists_isEvent_iff compiled NodeGroup.eventKind?_finish).mp ha
      exact List.ne_nil_of_mem hr
    · intro hne
      obtain ⟨r, hr⟩ := List.exists_mem_of_ne_nil _ hne
      exact ⟨_, (exists_isEvent_iff compiled NodeGroup.eventKind?_finish).mpr ⟨r, hr, rfl⟩⟩
  rw [hrecords]
  constructor
  · rintro hne hempty
    exact hne (by rw [hempty]; rfl)
  · intro hne
    exact (isSome_iff_records.mp hend).resolve_right hne

/-- A document compiles just when its start event is given bare, it has end events or an empty list
of them, all ids differ and no record lists its edges as an empty list.  The graph has one start
event, and it has an end event unless the list of them was empty. -/
theorem exists_compile_iff (p : Document) :
    ((∃ g, p.compile = .ok g) ↔
      (∃ r, p.startEvent = some (.one r)) ∧
        (records p.endEvent ≠ [] ∨ p.endEvent = some (.many [])) ∧ p.Sound) ∧
      ∀ g, p.compile = .ok g →
        (∃! a, a ∈ g.activities ∧ a.isEvent .start = true) ∧
          ((∃ a, a ∈ g.activities ∧ a.isEvent .finish = true) ↔
            p.endEvent ≠ some (.many [])) := by
  refine ⟨?_, fun g compiled => ⟨existsUnique_start compiled, exists_finish_iff compiled⟩⟩
  rw [← isSome_iff_records]
  constructor
  · rintro ⟨g, compiled⟩
    obtain ⟨r, hstart, hend, hlists, hunique, -⟩ := compile_ok_iff.mp compiled
    exact ⟨⟨r, hstart⟩, hend, (sound_iff hstart).mpr ⟨hlists, hunique⟩⟩
  · rintro ⟨⟨r, hstart⟩, hend, hsound⟩
    obtain ⟨hlists, hunique⟩ := (sound_iff hstart).mp hsound
    exact ⟨_, compile_ok_iff.mpr ⟨r, hstart, hend, hlists, hunique, rfl⟩⟩

/-- A process that starts and never ends, as its end events are an empty list. -/
def endless : Document where
  id := "endless"
  startEvent := some (.one
    { id := "start", name := some "Start", outgoing := some (.one "f_work") })
  endEvent := some (.many [])
  task := some (.one { id := "work", name := some "Work", incoming := some (.one "f_work") })
  sequenceFlow := some (.many [⟨"f_work", "start", "work"⟩])

/-- It compiles, to a graph without an end event. -/
theorem exists_compile_endless :
    ∃ g, endless.compile = .ok g ∧ g.activities.map (·.id) = ["start", "work"] ∧
      (∃! a, a ∈ g.activities ∧ a.isEvent .start = true) ∧
      ¬ ∃ a, a ∈ g.activities ∧ a.isEvent .finish = true := by
  obtain ⟨g, compiled, hids⟩ : ∃ g, endless.compile = .ok g ∧
      g.activities.map (·.id) = ["start", "work"] := ⟨_, rfl, rfl⟩
  obtain ⟨hone, hend⟩ := (exists_compile_iff endless).2 g compiled
  exact ⟨g, compiled, hids, hone, fun h => hend.mp h rfl⟩

/-- So a document may compile without a record of an end event, and to a graph without one. -/
theorem not_forall_exists_finish :
    ¬ ∀ p : Document,
      ((∃ g, p.compile = .ok g) ↔
        (∃ r, p.startEvent = some (.one r)) ∧ records p.endEvent ≠ [] ∧ p.Sound) ∧
      ∀ g, p.compile = .ok g →
        (∃! a, a ∈ g.activities ∧ a.isEvent .start = true) ∧
          ∃ a, a ∈ g.activities ∧ a.isEvent .finish = true := by
  intro claim
  have hcompiles : ∃ g, endless.compile = .ok g := ⟨_, rfl⟩
  exact ((claim endless).1.mp hcompiles).2.1 rfl

/-! ## What the definitions are -/

/-- Whether tokens are those of some edges, one for each and in the same spelling, and none is
taken. -/
def Untaken (ts : Option Tokens) (refs : Option EdgeRefs) : Prop :=
  ts.map (·.map Token.edge) = refs ∧ ∀ t ∈ records ts, t.taken = false

/-- Whether a boundary event is the one that the document gives a task: its record is the first that
is attached to the task, it is a normal one if the record does not say what sets it off, and it has
not been live. -/
def Attaches (p : Document) (task : String) (b : BoundaryEvent) : Prop :=
  ∃ r, IsFirst (·.attachedTo = task) (records p.boundaryEvent) r ∧
    b = ⟨r.id, task, r.outgoing, some (r.trigger.getD .normal), {}⟩

/-- Whether the family part of a definition is the one that its record and its group say. -/
def DescribesKind (p : Document) (r : ActivityRecord) : NodeGroup → Kind → Prop
  | .start, k => k = .event ⟨.start, none⟩
  | .finish, k => k = .event ⟨.finish, none⟩
  | .throwEvent, k => k = .event ⟨.intermediateThrow, some (r.trigger.getD .normal)⟩
  | .catchEvent, k => k = .event ⟨.intermediateCatch, some (r.trigger.getD .normal)⟩
  | .task kind, k => ∃ t, k = .task t ∧ t.kind = kind ∧ ∀ b, t.boundary = some b ↔ p.Attaches r.id b
  | .gateway kind, k => ∃ w, k = .gateway w ∧ w.kind = kind ∧
    Untaken w.incoming r.incoming ∧ Untaken w.outgoing r.outgoing

/-- Whether a definition is the one that a record of a group says. -/
structure Describes (p : Document) (group : NodeGroup) (r : ActivityRecord) (a : Activity) :
    Prop where
  /-- It has the id of the record. -/
  id : a.id = r.id
  /-- It has the name of the record. -/
  name : a.name = r.name
  /-- It lists the incoming edges as the record does. -/
  incoming : a.incoming = r.incoming
  /-- It lists the outgoing edges as the record does. -/
  outgoing : a.outgoing = r.outgoing
  /-- It is tagged with the first lane that lists its id, if there is one. -/
  lane : ∀ tag, a.lane = some tag ↔
    ∃ l, IsFirst (r.id ∈ ·.members) (records p.lanes) l ∧ tag = ⟨l.id, l.name⟩
  /-- It has no status and was never live. -/
  lifecycle : a.lifecycle = {}
  /-- It is of the family that the group says. -/
  kind : p.DescribesKind r group a.kind

/-- The lane of a node is tagged by the first that lists it. -/
theorem laneOf?_eq_some_iff {id : String} {tag : LaneTag} :
    p.laneOf? id = some tag ↔
      ∃ l, IsFirst (id ∈ ·.members) (records p.lanes) l ∧ tag = ⟨l.id, l.name⟩ := by
  have hlists : ∀ l : Lane, l.members.contains id = true ↔ id ∈ l.members := by simp
  simp only [laneOf?, Option.map_eq_some_iff, find?_eq_some_iff_isFirst hlists]
  exact exists_congr fun l => and_congr_right fun _ => eq_comm

/-- The boundary event of a task is that of the first record attached to it. -/
theorem boundaryOf?_eq_some_iff {task : String} {b : BoundaryEvent} :
    p.boundaryOf? task = some b ↔ p.Attaches task b := by
  have hattached : ∀ r : BoundaryRecord, (r.attachedTo == task) = true ↔ r.attachedTo = task := by
    simp
  simp only [boundaryOf?, Option.map_eq_some_iff, find?_eq_some_iff_isFirst hattached]
  refine exists_congr fun r => and_congr_right fun hr => ?_
  obtain ⟨before, after, -, hfirst, -⟩ := hr
  rw [BoundaryEvent.define, hfirst, eq_comm]

/-- The tokens that a gateway is given are those of its edges, and none is taken. -/
theorem untaken_ofRefs (refs : Option EdgeRefs) : Untaken (Tokens.ofRefs refs) refs := by
  have hedge : ∀ es : List String, es.map (Token.edge ∘ Token.fresh) = es := List.map_id
  cases refs with
  | none => exact ⟨rfl, by simp [Tokens.ofRefs, records]⟩
  | some refs =>
    cases refs with
    | one e => exact ⟨rfl, by simp [Tokens.ofRefs, records, OneOrMany.map, Token.fresh]⟩
    | many es =>
      constructor
      · simp [Tokens.ofRefs, OneOrMany.map, hedge]
      · simp [Tokens.ofRefs, records, OneOrMany.map, Token.fresh]

/-- The definition of a record is the one that the record says. -/
theorem describes_definitionFor (group : NodeGroup) (r : ActivityRecord) :
    p.Describes group r (p.definitionFor group r) where
  id := id_definitionFor group r
  name := by cases group <;> rfl
  incoming := by cases group <;> rfl
  outgoing := by cases group <;> rfl
  lane tag := by
    have hlane : (p.definitionFor group r).lane = p.laneOf? r.id := by cases group <;> rfl
    rw [hlane, laneOf?_eq_some_iff]
  lifecycle := by cases group <;> rfl
  kind := by
    cases group with
    | start => rfl
    | finish => rfl
    | throwEvent => rfl
    | catchEvent => rfl
    | task kind => exact ⟨_, rfl, rfl, fun b => boundaryOf?_eq_some_iff⟩
    | gateway kind =>
      exact ⟨_, rfl, rfl, untaken_ofRefs r.incoming, untaken_ofRefs r.outgoing⟩

/-- The graph of a document has the definitions that the document's records say, one by one in their
order, and its flows.  An id finds just the one definition that has it, and the start event is the
one the document gives. -/
theorem compile_faithful (compiled : p.compile = .ok g) :
    List.Forall₂ (fun e a => p.Describes e.1 e.2 a) p.entries g.activities ∧
      g.edges = records p.sequenceFlow ∧
      (g.activities.map (·.id)).Nodup ∧
      (∀ id a, g.activity? id = some a ↔ a ∈ g.activities ∧ a.id = id) ∧
      ∃ r, p.startEvent = some (.one r) ∧ p.Describes .start r g.start := by
  have hg := wellFormed_of_compile compiled
  refine ⟨?_, ?_, hg.unique, fun id a => ?_, ?_⟩
  · rw [activities_of_compile compiled, List.forall₂_map_right_iff, List.forall₂_same]
    exact fun e _ => describes_definitionFor e.1 e.2
  · obtain ⟨r, -, -, -, -, rfl⟩ := compile_ok_iff.mp compiled
    rfl
  · constructor
    · exact Graph.activity?_some
    · rintro ⟨ha, rfl⟩
      exact hg.activity?_of_mem ha
  · obtain ⟨r, hstart, -, -, -, rfl⟩ := compile_ok_iff.mp compiled
    exact ⟨r, hstart, describes_definitionFor .start r⟩

/-- A process whose task lies in two lanes and has two boundary events, and whose gateway lists one
edge in and refers to one edge bare. -/
def parcel : Document where
  id := "parcel"
  startEvent := some (.one { id := "start", name := some "Start", outgoing := some (.one "f_in") })
  endEvent := some (.many [{ id := "end", incoming := some (.many ["f_out", "f_lost"]) }])
  lanes := some (.many [⟨"store", none, ["pack"]⟩, ⟨"office", some "Office", ["pack", "check"]⟩])
  boundaryEvent := some (.many
    [⟨"lost", "pack", "f_lost", none⟩, ⟨"late", "pack", "f_out", some .timer⟩])
  scriptTask := some (.one
    { id := "pack", incoming := some (.one "f_pack"), outgoing := some (.one "f_out") })
  exclusiveGateway := some (.many
    [{ id := "check", incoming := some (.many ["f_in"]), outgoing := some (.one "f_pack") }])
  sequenceFlow := some (.many [⟨"f_in", "start", "check"⟩, ⟨"f_pack", "check", "pack"⟩,
    ⟨"f_out", "pack", "end"⟩, ⟨"f_lost", "lost", "end"⟩])

/-- The task is defined before the gateway, in the first of its lanes and with the first of its
boundary events, and the gateway has its tokens in the spelling of its edges. -/
theorem compile_faithful_parcel :
    ∃ g, parcel.compile = .ok g ∧
      g.activities.map (·.id) = ["start", "pack", "check", "end"] ∧
      (g.activity? "pack").map (fun a => (a.lane, a.kind)) =
        some (some ⟨"store", none⟩,
          .task ⟨.script, some ⟨"lost", "pack", "f_lost", some .normal, {}⟩⟩) ∧
      (g.activity? "check").map (·.kind) =
        some (.gateway
          ⟨.exclusive, some (.many [⟨"f_in", false⟩]), some (.one ⟨"f_pack", false⟩)⟩) ∧
      List.Forall₂ (fun e a => parcel.Describes e.1 e.2 a) parcel.entries g.activities ∧
      ∀ id a, g.activity? id = some a ↔ a ∈ g.activities ∧ a.id = id := by
  obtain ⟨g, compiled⟩ : ∃ g, parcel.compile = .ok g := ⟨_, rfl⟩
  obtain ⟨hentries, -, -, hindex, -⟩ := compile_faithful compiled
  refine ⟨g, compiled, ?_, ?_, ?_, hentries, hindex⟩ <;> cases compiled <;> rfl

end Document

end Workflow
