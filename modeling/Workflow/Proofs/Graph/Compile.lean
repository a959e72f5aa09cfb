import Mathlib.Data.List.Nodup
import Workflow.Graph.Compile
import Workflow.Proofs.Activity.Blank
import Workflow.Proofs.FirstMatch

/-!
# What compiling gives

`Document.compile_ok_iff` says which documents compile and to what: the start event is given bare,
there is a record of an end event, no record has an empty list of edges, all ids differ, and the
definitions are those of the records in the fixed order.

From this follows what every later argument uses of a compiled process (`Graph.WellFormed`): ids
identify definitions, definitions are blank, and the tokens of a gateway are those of its edges.  A
live or completed activity is an instance of the definition that it blanks to (`Graph.Defines`).
-/

namespace Workflow

namespace Document

/-- Two steps that may be refused succeed together when each of them does. -/
theorem bind_ok_iff {α β : Type} {x : Except Error α} {f : α → Except Error β} {b : β} :
    (x >>= f) = .ok b ↔ ∃ a, x = .ok a ∧ f a = .ok b := by
  cases x with
  | error e => simp [bind, Except.bind]
  | ok a => simp [bind, Except.bind]

/-- Neither side of the activity is an empty list of edges. -/
def ListsEdges (a : Activity) : Prop :=
  a.incoming ≠ some (.many []) ∧ a.outgoing ≠ some (.many [])

/-- The check of one side passes unless it is an empty list. -/
theorem checkRefs_ok_iff (id : String) (direction : Direction) {refs : Option EdgeRefs} :
    checkRefs id direction refs = .ok () ↔ refs ≠ some (.many []) := by
  unfold checkRefs
  split
  · simp
  · next h => simp only [true_iff]; exact fun hr => h hr

/-- One more definition is accepted when it lists its edges and its id is new. -/
theorem accept_ok_iff {accepted res : List Activity} {a : Activity} :
    accept accepted a = .ok res ↔
      ListsEdges a ∧ (∀ b ∈ accepted, b.id ≠ a.id) ∧ res = accepted ++ [a] := by
  unfold accept ListsEdges
  rw [← checkRefs_ok_iff a.id .incoming,
    ← checkRefs_ok_iff a.id .outgoing]
  cases checkRefs a.id .incoming a.incoming with
  | error e => simp [bind, Except.bind]
  | ok u =>
    cases checkRefs a.id .outgoing a.outgoing with
    | error e => simp [bind, Except.bind]
    | ok v =>
      -- Both sides pass, and the id decides.
      by_cases hdup : accepted.any (·.id == a.id)
      · have hnot : ¬ ∀ b ∈ accepted, b.id ≠ a.id := by simpa using hdup
        simp [bind, Except.bind, hdup, hnot]
      · have hnew : ∀ b ∈ accepted, b.id ≠ a.id := by simpa using hdup
        simp only [bind, Except.bind, hdup]
        constructor
        · intro h; cases h; exact ⟨⟨trivial, trivial⟩, hnew, rfl⟩
        · rintro ⟨-, -, rfl⟩; rfl

/-- Definitions are accepted in turn when each lists its edges and their ids are all new. -/
theorem foldlM_accept_ok_iff {as accepted res : List Activity}
    (hacc : (accepted.map (·.id)).Nodup) :
    as.foldlM accept accepted = .ok res ↔
      (∀ a ∈ as, ListsEdges a) ∧ ((accepted ++ as).map (·.id)).Nodup ∧ res = accepted ++ as := by
  induction as generalizing accepted with
  | nil =>
    simp only [List.foldlM_nil, List.append_nil, List.not_mem_nil, false_implies, implies_true,
      true_and, hacc]
    constructor
    · intro h; cases h; rfl
    · rintro rfl; rfl
  | cons a as ih =>
    rw [List.foldlM_cons]
    cases ha : accept accepted a with
    | error e =>
      simp only [bind, Except.bind, reduceCtorEq, false_iff]
      rintro ⟨hlists, hnodup, -⟩
      -- What is asked of the whole list lets the first definition pass.
      have hnew : ∀ b ∈ accepted, b.id ≠ a.id := by
        intro b hb heq
        rw [List.map_append, List.nodup_append] at hnodup
        exact hnodup.2.2 b.id (List.mem_map_of_mem hb) a.id (by simp) heq
      have hok := accept_ok_iff.mpr ⟨hlists a (by simp), hnew, rfl⟩
      rw [ha] at hok
      cases hok
    | ok first =>
      obtain ⟨hlists, hnew, rfl⟩ := accept_ok_iff.mp ha
      have hnodup : ((accepted ++ [a]).map (·.id)).Nodup := by
        rw [List.map_append, List.map_singleton, ← List.concat_eq_append]
        refine hacc.concat fun hmem => ?_
        obtain ⟨b, hb, hid⟩ := List.mem_map.mp hmem
        exact hnew b hb hid
      simp only [bind, Except.bind]
      rw [ih hnodup]
      simp [hlists]

/-- The definitions of a document behind the start event, in their fixed order. -/
def otherDefinitions (p : Document) : List Activity :=
  p.taskDefinitions ++ p.gatewayDefinitions ++ (p.endDefinitions ++ p.intermediateDefinitions)

/-- The graph of a document whose start event has this record. -/
def graphOf (p : Document) (start : ActivityRecord) : Graph :=
  ⟨p.plainEvent .start start, p.otherDefinitions, records p.sequenceFlow⟩

/-- The start event and the other definitions are accepted together when each lists its edges and
all ids differ. -/
theorem accept_all_ok_iff {p : Document} {r : ActivityRecord} {res : List Activity} :
    (accept [] (p.plainEvent .start r) >>= p.otherDefinitions.foldlM accept) = .ok res ↔
      (∀ a ∈ (p.graphOf r).activities, ListsEdges a) ∧
        ((p.graphOf r).activities.map (·.id)).Nodup ∧ res = (p.graphOf r).activities := by
  have h : (p.graphOf r).activities.foldlM accept [] = .ok res ↔ _ :=
    foldlM_accept_ok_iff (by simp)
  simpa [graphOf, Graph.activities] using h

/-- Which documents compile, and to what. -/
theorem compile_ok_iff {p : Document} {g : Graph} :
    p.compile = .ok g ↔
      ∃ r, p.startEvent = some (.one r) ∧ p.endEvent.isSome ∧
        (∀ a ∈ (p.graphOf r).activities, ListsEdges a) ∧
        ((p.graphOf r).activities.map (·.id)).Nodup ∧ g = p.graphOf r := by
  unfold compile startRecord
  split
  · next h => simp [h, bind, Except.bind]
  · next h => simp [h, bind, Except.bind]
  · next r hr =>
    simp only [hr, Option.some.injEq, OneOrMany.one.injEq, exists_eq_left']
    cases hend : p.endEvent with
    | none =>
      -- The missing end event is refused after the definitions have been accepted.
      simp only [Option.isNone_none, if_true, Option.isSome_none, Bool.false_eq_true, false_and,
        iff_false]
      intro h
      obtain ⟨record, -, h⟩ := bind_ok_iff.mp h
      obtain ⟨first, -, h⟩ := bind_ok_iff.mp h
      obtain ⟨inner, -, h⟩ := bind_ok_iff.mp h
      cases h
    | some ends =>
      simp only [Option.isNone_some, Bool.false_eq_true, if_false, Option.isSome_some, true_and]
      constructor
      · intro h
        obtain ⟨record, hrecord, h⟩ := bind_ok_iff.mp h
        cases hrecord
        obtain ⟨first, hfirst, h⟩ := bind_ok_iff.mp h
        obtain ⟨inner, hinner, h⟩ := bind_ok_iff.mp h
        obtain ⟨all, houter, h⟩ := bind_ok_iff.mp h
        cases h
        -- The definitions are accepted in two passes, which are one pass over all of them.
        have hpasses : p.otherDefinitions.foldlM accept first = .ok all := by
          rw [otherDefinitions, List.foldlM_append]
          exact bind_ok_iff.mpr ⟨inner, hinner, houter⟩
        obtain ⟨hlists, hnodup, rfl⟩ :=
          accept_all_ok_iff.mp (bind_ok_iff.mpr ⟨first, hfirst, hpasses⟩)
        exact ⟨hlists, hnodup, rfl⟩
      · rintro ⟨hlists, hnodup, rfl⟩
        obtain ⟨first, hfirst, hpasses⟩ :=
          bind_ok_iff.mp (accept_all_ok_iff.mpr ⟨hlists, hnodup, rfl⟩)
        rw [otherDefinitions, List.foldlM_append] at hpasses
        obtain ⟨inner, hinner, houter⟩ := bind_ok_iff.mp hpasses
        refine bind_ok_iff.mpr ⟨r, rfl, bind_ok_iff.mpr ⟨first, hfirst, ?_⟩⟩
        exact bind_ok_iff.mpr ⟨inner, hinner, bind_ok_iff.mpr ⟨_, houter, rfl⟩⟩

/-! ## Well-formed graphs -/

/-- The definition of a record is blank when its family part is. -/
theorem blank_definition {p : Document} {r : ActivityRecord} {kind : Kind}
    (h : kind.blank = kind) : (p.definition r kind).blank = p.definition r kind := by
  simp [definition, Activity.define, Activity.blank, h]

/-- The definition of a task is blank: its boundary event, if any, is not live. -/
theorem blank_taskOf (p : Document) (kind : TaskKind) (r : ActivityRecord) :
    (p.taskOf kind r).blank = p.taskOf kind r := by
  apply blank_definition
  unfold boundaryOf?
  cases (records p.boundaryEvent).find? (·.attachedTo == r.id) with
  | none => rfl
  | some b => rfl

/-- The definition of a gateway is blank: nothing has arrived and nothing is chosen. -/
theorem blank_gatewayOf (p : Document) (kind : GatewayKind) (r : ActivityRecord) :
    (p.gatewayOf kind r).blank = p.gatewayOf kind r :=
  blank_definition (congrArg Kind.gateway (Gateway.blank_ofRefs kind r.incoming r.outgoing))

/-- A definition of a compiled process comes from a record: it is a task's, a gateway's, or an
event's. -/
theorem mem_activities_graphOf {p : Document} {start : ActivityRecord} {d : Activity}
    (h : d ∈ (p.graphOf start).activities) :
    (∃ kind r, d = p.taskOf kind r) ∨ (∃ kind r, d = p.gatewayOf kind r) ∨
      ∃ e r, d = p.definition r (.event e) := by
  simp only [Graph.activities, graphOf, otherDefinitions, taskDefinitions, gatewayDefinitions,
    endDefinitions, intermediateDefinitions, List.mem_cons, List.mem_append, List.mem_flatMap,
    List.mem_map] at h
  rcases h with rfl | (⟨kind, -, r, -, rfl⟩ | ⟨kind, -, r, -, rfl⟩) |
    ⟨r, -, rfl⟩ | ⟨r, -, rfl⟩ | ⟨r, -, rfl⟩
  · exact .inr (.inr ⟨_, start, rfl⟩)
  · exact .inl ⟨kind, r, rfl⟩
  · exact .inr (.inl ⟨kind, r, rfl⟩)
  · exact .inr (.inr ⟨_, r, rfl⟩)
  · exact .inr (.inr ⟨_, r, rfl⟩)
  · exact .inr (.inr ⟨_, r, rfl⟩)

end Document

namespace Graph

/-- What holds of every compiled process. -/
structure WellFormed (g : Graph) : Prop where
  /-- No two definitions have the same id. -/
  unique : (g.activities.map (·.id)).Nodup
  /-- Definitions are blank. -/
  blank : ∀ d ∈ g.activities, d.blank = d
  /-- A gateway has one untaken token for each of its edges. -/
  tokens : ∀ d ∈ g.activities, ∀ w, d.kind = .gateway w → w = .ofRefs w.kind d.incoming d.outgoing

/-- A definition of a graph is found by its id. -/
theorem WellFormed.activity?_of_mem {g : Graph} (hg : g.WellFormed) {d : Activity}
    (h : d ∈ g.activities) : g.activity? d.id = some d := by
  unfold activity?
  exact find?_of_mem (·.id) hg.unique h

/-- The definition that is found by an id is blank. -/
theorem WellFormed.blank_activity? {g : Graph} (hg : g.WellFormed) {id : String} {d : Activity}
    (h : g.activity? id = some d) : d.blank = d :=
  hg.blank d (activity?_some h).1

end Graph

/-- A compiled process is well-formed. -/
theorem Document.wellFormed_of_compile {p : Document} {g : Graph} (h : p.compile = .ok g) :
    g.WellFormed := by
  obtain ⟨r, -, -, -, hnodup, rfl⟩ := compile_ok_iff.mp h
  refine ⟨hnodup, fun d hd => ?_, fun d hd w hw => ?_⟩
  · rcases mem_activities_graphOf hd with ⟨kind, r, rfl⟩ | ⟨kind, r, rfl⟩ | ⟨e, r, rfl⟩
    · exact blank_taskOf p kind r
    · exact blank_gatewayOf p kind r
    · exact blank_definition rfl
  · rcases mem_activities_graphOf hd with ⟨kind, r, rfl⟩ | ⟨kind, r, rfl⟩ | ⟨e, r, rfl⟩
    · cases hw
    · cases hw; rfl
    · cases hw

/-! ## Instances -/

/-- Whether the activity is an instance of the definition of its id. -/
def Graph.Defines (g : Graph) (a : Activity) : Prop := g.activity? a.id = some a.blank

/-- An activity with the blank of another is an instance of the same definition. -/
theorem Graph.Defines.of_blank {g : Graph} {a b : Activity} (h : g.Defines a)
    (hb : b.blank = a.blank) : g.Defines b := by
  have hid := Activity.id_eq_of_blank hb
  unfold Graph.Defines
  rw [hid, hb]
  exact h

/-- Activities of one id are instances of one definition. -/
theorem Graph.Defines.blank_eq {g : Graph} {a b : Activity} (ha : g.Defines a) (hb : g.Defines b)
    (hid : a.id = b.id) : a.blank = b.blank := by
  unfold Graph.Defines at ha hb
  rw [hid, hb] at ha
  exact (Option.some.inj ha).symm

/-- A definition is an instance of itself. -/
theorem Graph.WellFormed.defines {g : Graph} (hg : g.WellFormed) {id : String} {d : Activity}
    (h : g.activity? id = some d) : g.Defines d := by
  unfold Graph.Defines
  rw [(activity?_some h).2, h, hg.blank_activity? h]

/-- The tokens of a live gateway stand for its edges. -/
theorem Graph.WellFormed.matchRefs {g : Graph} (hg : g.WellFormed) {a : Activity}
    (h : g.Defines a) {w : Gateway} (hw : a.kind = .gateway w) :
    Tokens.matchRefs w.incoming a.incoming = true ∧
      Tokens.matchRefs w.outgoing a.outgoing = true := by
  -- The definition's gateway is the blank of this one, and has one token for each edge.
  have hblank : a.blank.kind = .gateway w.blank := by simp [hw, Kind.blank]
  have htokens := hg.tokens a.blank (activity?_some h).1 w.blank hblank
  have hin : Tokens.blank w.incoming = Tokens.ofRefs a.incoming :=
    congrArg Gateway.incoming htokens
  have hout : Tokens.blank w.outgoing = Tokens.ofRefs a.outgoing :=
    congrArg Gateway.outgoing htokens
  exact ⟨Tokens.matchRefs_iff_blank.mpr hin, Tokens.matchRefs_iff_blank.mpr hout⟩

/-- The tokens of an instance match its edges. -/
theorem Graph.WellFormed.tokensMatch {g : Graph} (hg : g.WellFormed) {a : Activity}
    (h : g.Defines a) : a.tokensMatch = true := by
  unfold Activity.tokensMatch
  cases hk : a.kind with
  | task t => rfl
  | event e => rfl
  | gateway w =>
    obtain ⟨hin, hout⟩ := hg.matchRefs h hk
    simp [Gateway.matchRefs, hin, hout]

end Workflow
