import Workflow.History.Restore
import Workflow.Proofs.Engine.Dispatch
import Workflow.Proofs.Graph.Compile
import Workflow.Proofs.Graph.Routing

/-!
# Coherent histories

A history is coherent with a process when no two live activities share an id and every activity,
live or completed, has a definition of which it is an instance (`Graph.Defines`).  The second half
alone is agreement; saved records may bring two live activities of one id, and so break the first
half.  Each operation on a history keeps both, whatever the graph looks like: writing back, logging,
following a route, and making an activity live in the place of another.  A property that all of
these keep (`History.Kept`) is kept by whatever a handler does (`Step.Reaches.kept`).

A coherent history is restored from its own records as it was (`History.restore_coherent`).
-/

namespace Workflow

namespace Gateway

/-- A split is not seen in the blank. -/
theorem blank_routes {w w' : Gateway} {route : List String} (h : w.routes? = some (route, w')) :
    w'.blank = w.blank := by
  unfold routes? at h
  split at h
  · cases h; exact w.blank_afterSplit
  · cases h

/-- The flow goes on along outgoing edges, in their order and along none of them twice. -/
theorem splitEdges_sublist (w : Gateway) :
    w.splitEdges.Sublist ((Document.records w.outgoing).map Token.edge) := by
  unfold splitEdges
  split
  · exact List.nil_sublist _
  · next out hout =>
    rw [hout]
    split
    · exact List.Sublist.refl _
    · exact List.Sublist.refl _
    · next ts _ =>
      cases hfind : ts.find? (·.taken) with
      | none => exact List.nil_sublist _
      | some t =>
        have hmem : t.edge ∈ ts.map Token.edge :=
          List.mem_map_of_mem (List.mem_of_find?_eq_some hfind)
        exact List.singleton_sublist.mpr hmem
    · exact List.filter_sublist.map _

/-- The flow goes on along outgoing edges. -/
theorem splitEdges_subset (w : Gateway) :
    ∀ edge ∈ w.splitEdges, edge ∈ (Document.records w.outgoing).map Token.edge :=
  fun _ hedge => w.splitEdges_sublist.subset hedge

/-- An exclusive gateway goes on along at most one edge, however many were chosen. -/
theorem length_splitEdges_le {w : Gateway} (h : w.kind = .exclusive) :
    w.splitEdges.length ≤ 1 := by
  unfold splitEdges
  split
  · exact Nat.zero_le 1
  · next out _ =>
    rw [h]
    cases out with
    | one t => exact Nat.le_refl 1
    | many ts =>
      show (((ts.find? (·.taken)).map Token.edge).toList).length ≤ 1
      cases ts.find? (·.taken) with
      | none => exact Nat.zero_le 1
      | some t => exact Nat.le_refl 1

end Gateway

namespace Activity

/-- A gateway that goes on has a join that holds, and is split. -/
theorem routes_gateway {a a' : Activity} {route : List String} {w : Gateway}
    (hw : a.kind = .gateway w) (h : a.routes? = some (route, a')) :
    w.joinSatisfied = true ∧ route = w.splitEdges ∧
      a' = { a with kind := .gateway w.afterSplit } := by
  unfold routes? at h
  rw [hw] at h
  obtain ⟨r, hroutes, heq⟩ := Option.map_eq_some_iff.mp h
  cases heq
  unfold Gateway.routes? at hroutes
  split at hroutes
  · next hjoin => cases hroutes; exact ⟨hjoin, rfl, rfl⟩
  · cases hroutes

/-- A task or an event goes on along all edges that leave it. -/
theorem routes_of_not_gateway {a : Activity} (h : a.gateway? = none) :
    a.routes? = some (Document.records a.outgoing, a) := by
  unfold gateway? at h
  unfold routes?
  split
  · next w hw => rw [hw] at h; cases h
  · rfl

/-- The split of a finished activity is not seen in the blank. -/
theorem blank_routes {a a' : Activity} {route : List String} (h : a.routes? = some (route, a')) :
    a'.blank = a.blank := by
  unfold routes? at h
  split at h
  · next w hw =>
    obtain ⟨r, hr, heq⟩ := Option.map_eq_some_iff.mp h
    cases heq
    exact blank_of_gateway hw (Gateway.blank_routes hr)
  · cases h; rfl

/-- The split of a finished activity keeps its status. -/
theorem status_routes {a a' : Activity} {route : List String} (h : a.routes? = some (route, a')) :
    a'.status = a.status := by
  unfold routes? at h
  split at h
  · obtain ⟨r, -, heq⟩ := Option.map_eq_some_iff.mp h
    cases heq
    rfl
  · cases h; rfl

/-- A record with the edges of its tokens is reattached to its own blank as it was. -/
theorem reattach_blank {a : Activity} (h : a.tokensMatch = true) : a.blank.reattach a = .ok a := by
  -- The changing part of the family part is what its blank wipes out.
  have hkind : restoreKind a.kind.blank a.kind = a.kind := by
    cases a.kind with
    | gateway w => rfl
    | event e => rfl
    | task t =>
      cases hb : t.boundary with
      | none => simp [Kind.blank, restoreKind, hb]; rw [← hb]
      | some b => simp [Kind.blank, restoreKind, hb, BoundaryEvent.blank]; rw [← hb]
  have hlive : { a.blank with
      lifecycle := a.lifecycle, kind := restoreKind a.blank.kind a.kind } = a := by
    rw [kind_blank, hkind]
    rfl
  unfold reattach
  rw [if_neg (by simp [category])]
  simp only [hlive, h, if_true]

end Activity

/-- The definition that a record belongs to is one of the process. -/
theorem Graph.mem_of_counterpart? (g : Graph) {record d : Activity}
    (h : g.counterpart? record = some d) : d ∈ g.activities := by
  unfold counterpart? at h
  split at h
  · next d' hd' => cases h; exact (activity?_some hd').1
  · dsimp only at h
    split at h
    · cases h; exact List.mem_cons_self ..
    · cases h

/-- What is taken from a record is not seen in the blank: where the boundary event stands, and
tokens that stand for the edges of the definition. -/
theorem Graph.WellFormed.blank_restoreKind {g : Graph} (hg : g.WellFormed) {d record : Activity}
    (hd : d ∈ g.activities) (hmatch : Activity.tokensMatch { d with
      lifecycle := record.lifecycle, kind := Activity.restoreKind d.kind record.kind } = true) :
    (Activity.restoreKind d.kind record.kind).blank = d.kind := by
  have hkind : d.kind.blank = d.kind := congrArg Activity.kind (hg.blank d hd)
  cases hdk : d.kind with
  | gateway w =>
    rw [hdk] at hkind
    cases hrk : record.kind with
    | gateway recorded =>
      simp only [Activity.tokensMatch, Activity.restoreKind, hdk, hrk, Gateway.matchRefs,
        Bool.and_eq_true, Tokens.matchRefs_iff_blank] at hmatch
      obtain ⟨hin, hout⟩ := hmatch
      have hw : w = ⟨w.kind, Tokens.blank recorded.incoming, Tokens.blank recorded.outgoing⟩ := by
        rw [hin, hout]
        exact hg.tokens d hd w hdk
      exact congrArg Kind.gateway hw.symm
    | task recorded => exact hkind
    | event recorded => exact hkind
  | task t =>
    rw [hdk] at hkind
    cases hrk : record.kind with
    | task recorded =>
      unfold Activity.restoreKind
      dsimp only
      split
      · next b recorded hb _ =>
        have hsame : Kind.blank (.task { t with
            boundary := some { b with lifecycle := recorded.lifecycle } }) =
            Kind.blank (.task t) := by
          simp [Kind.blank, hb, BoundaryEvent.blank]
        exact hsame.trans hkind
      · exact hkind
    | gateway recorded => exact hkind
    | event recorded => exact hkind
  | event e => rfl

/-- What is restored of a record is an instance of the definition that it belongs to. -/
theorem Graph.WellFormed.blank_reattach {g : Graph} (hg : g.WellFormed) {d record a : Activity}
    (hd : d ∈ g.activities) (h : d.reattach record = .ok a) : a.blank = d := by
  unfold Activity.reattach at h
  dsimp only at h
  split at h
  · cases h
  · split at h
    · next hmatch =>
      cases h
      have hkind := hg.blank_restoreKind hd hmatch
      have hblank := hg.blank d hd
      calc Activity.blank { d with
              lifecycle := record.lifecycle, kind := Activity.restoreKind d.kind record.kind }
          = { d.blank with kind := (Activity.restoreKind d.kind record.kind).blank } := rfl
        _ = { d.blank with kind := d.kind } := by rw [hkind]
        _ = d := by rw [hblank]
    · cases h

/-- A finished instance goes on along edges that its definition lists as outgoing. -/
theorem Graph.WellFormed.routes_subset {g : Graph} (hg : g.WellFormed) {a a' : Activity}
    {route : List String} (ha : g.Defines a) (hr : a.routes? = some (route, a')) :
    ∀ edge ∈ route, edge ∈ Document.records a.outgoing := by
  intro edge hedge
  cases hk : a.gateway? with
  | some w =>
    have hw := Activity.kind_of_gateway? hk
    obtain ⟨-, rfl, -⟩ := Activity.routes_gateway hw hr
    rw [← Tokens.edges_of_matchRefs (hg.matchRefs ha hw).2]
    exact w.splitEdges_subset edge hedge
  | none =>
    rw [Activity.routes_of_not_gateway hk] at hr
    cases hr
    exact hedge

namespace History

variable {g : Graph} {h : History}

/-- Whether every activity, live or completed, has its definition. -/
structure Agrees (g : Graph) (h : History) : Prop where
  /-- Live activities are instances of definitions. -/
  live : ∀ a ∈ h.head, g.Defines a
  /-- So are completed ones. -/
  completed : ∀ a ∈ h.stack, g.Defines a

/-- Whether the live activities have ids of their own and every activity has its definition. -/
structure Coherent (g : Graph) (h : History) : Prop where
  /-- No two live activities have the same id. -/
  unique : (h.head.map (·.id)).Nodup
  /-- Live activities are instances of definitions. -/
  live : ∀ a ∈ h.head, g.Defines a
  /-- So are completed ones. -/
  completed : ∀ a ∈ h.stack, g.Defines a

/-- The activities of a coherent history have their definitions. -/
theorem Coherent.agrees (hc : h.Coherent g) : h.Agrees g := ⟨hc.live, hc.completed⟩

/-- A history in which only the start event is live is coherent. -/
theorem coherent_start (hg : g.WellFormed) (now : Instant) :
    Coherent g { head := [g.start.instantiate now] } := by
  have hstart : g.activity? g.start.id = some g.start :=
    hg.activity?_of_mem (List.mem_cons_self ..)
  refine ⟨by simp, fun a ha => ?_, fun a ha => nomatch ha⟩
  rw [List.mem_singleton.mp ha]
  exact (hg.defines hstart).of_blank (Activity.blank_instantiate _ _)

/-- A live activity found by id is live and has that id. -/
theorem headById?_some {id : String} {a : Activity} (ha : h.headById? id = some a) :
    a ∈ h.head ∧ a.id = id :=
  ⟨List.mem_of_find?_eq_some ha, by simpa using List.find?_some ha⟩

/-- A live activity of a coherent history is found by its id. -/
theorem Coherent.headById?_of_mem (hc : h.Coherent g) {a : Activity} (ha : a ∈ h.head) :
    h.headById? a.id = some a := by
  unfold headById?
  exact find?_of_mem (·.id) hc.unique ha

/-- A completed activity found by id is on the stack and has that id. -/
theorem lastCompleted?_some {id : String} {a : Activity} (ha : h.lastCompleted? id = some a) :
    a ∈ h.stack ∧ a.id = id := by
  have hmem := List.mem_of_find?_eq_some ha
  exact ⟨List.mem_reverse.mp hmem, by simpa using List.find?_some ha⟩

/-- An entry of a log with one more entry is the new one or one from before. -/
theorem split_append {stack before later : List Activity} {a x : Activity}
    (hs : stack ++ [x] = before ++ a :: later) :
    (before = stack ∧ a = x) ∨ ∃ later', stack = before ++ a :: later' := by
  rcases List.eq_nil_or_concat later with rfl | ⟨later', y, rfl⟩
  · obtain ⟨hstack, hx⟩ := List.append_inj' hs rfl
    exact .inl ⟨hstack.symm, (List.singleton_inj.mp hx).symm⟩
  · refine .inr ⟨later', ?_⟩
    have hcons : stack ++ [x] = (before ++ a :: later') ++ [y] := by simpa using hs
    exact (List.append_inj' hcons rfl).1

/-- Writing back keeps the ids of the live activities. -/
@[simp]
theorem ids_writeBack (h : History) (a : Activity) :
    (h.writeBack a).head.map (·.id) = h.head.map (·.id) :=
  map_updateFirst (·.id) (fun b hb => by simpa using (eq_of_beq hb).symm) h.head

/-- Writing an instance back keeps agreement. -/
theorem Agrees.writeBack (hc : h.Agrees g) {a : Activity} (ha : g.Defines a) :
    (h.writeBack a).Agrees g where
  live := forall_updateFirst hc.live fun _ _ _ => ha
  completed := hc.completed

/-- Writing an instance back keeps coherence. -/
theorem Coherent.writeBack (hc : h.Coherent g) {a : Activity} (ha : g.Defines a) :
    (h.writeBack a).Coherent g where
  unique := by rw [ids_writeBack]; exact hc.unique
  live := (hc.agrees.writeBack ha).live
  completed := hc.completed

/-- Logging an instance keeps agreement. -/
theorem Agrees.retire (hc : h.Agrees g) {a : Activity} (ha : g.Defines a) :
    (h.retire a).Agrees g where
  live := fun b hb => hc.live b (List.mem_of_mem_filter hb)
  completed := List.forall_mem_append.mpr ⟨hc.completed, List.forall_mem_singleton.mpr ha⟩

/-- Logging an instance keeps coherence. -/
theorem Coherent.retire (hc : h.Coherent g) {a : Activity} (ha : g.Defines a) :
    (h.retire a).Coherent g where
  unique := hc.unique.sublist (List.filter_sublist.map _)
  live := (hc.agrees.retire ha).live
  completed := (hc.agrees.retire ha).completed

/-- An activity joins the live ones only where its id is not live. -/
theorem join_unique {as : List Activity} (unique : (as.map (·.id)).Nodup) (a : Activity) :
    ((join as a).map (·.id)).Nodup := by
  unfold join
  split
  · exact unique
  · next hnot =>
    rw [any_id_iff] at hnot
    rw [List.map_append, List.map_singleton, ← List.concat_eq_append]
    exact unique.concat hnot

/-- A joined activity was live or is the new one. -/
theorem mem_join {as : List Activity} {a b : Activity} (hb : b ∈ join as a) : b ∈ as ∨ b = a := by
  unfold join at hb
  split at hb
  · exact .inl hb
  · simpa using hb

/-- Joining activities keep the ids of the live ones distinct. -/
theorem merge_unique (unique : (h.head.map (·.id)).Nodup) (successors : List Activity) :
    ((h.merge successors).head.map (·.id)).Nodup := by
  unfold History.merge
  induction successors generalizing h with
  | nil => exact unique
  | cons a successors ih =>
    exact ih (h := { h with head := join h.head a }) (join_unique unique a)

/-- Activities whose ids are not live join the live ones at the end. -/
theorem merge_eq_append {successors : List Activity}
    (unique : ((h.head ++ successors).map (·.id)).Nodup) :
    h.merge successors = { h with head := h.head ++ successors } := by
  unfold History.merge
  induction successors generalizing h with
  | nil => simp
  | cons a successors ih =>
    have hnew : ¬ h.head.any (·.id == a.id) := by
      rw [List.map_append, List.nodup_append] at unique
      rw [any_id_iff]
      exact fun hmem => unique.2.2 a.id hmem a.id (by simp) rfl
    have hjoin : join h.head a = h.head ++ [a] := by rw [join, if_neg hnew]
    rw [List.foldl_cons, hjoin]
    have hrest := ih (h := { h with head := h.head ++ [a] }) (by simpa using unique)
    simpa using hrest

/-- What holds of the live activities and of those that join them holds of all that are live
then. -/
theorem forall_merge {Q : Activity → Prop} (live : ∀ a ∈ h.head, Q a)
    {successors : List Activity} (joining : ∀ a ∈ successors, Q a) :
    ∀ a ∈ (h.merge successors).head, Q a := by
  unfold History.merge
  induction successors generalizing h with
  | nil => exact live
  | cons b successors ih =>
    have hfirst : ∀ a ∈ join h.head b, Q a := by
      intro a ha
      rcases mem_join ha with ha | rfl
      · exact live a ha
      · exact joining a (List.mem_cons_self ..)
    exact ih (h := { h with head := join h.head b }) hfirst fun a ha =>
      joining a (List.mem_cons_of_mem _ ha)

/-- What an arrival keeps and what holds of a new activity that has been arrived at holds of
everything that is live when the flow has gone on, also when a target refuses. -/
theorem forall_onward {Q : Activity → Prop} {route : List String} {now : Instant} {x : Activity}
    (arrive : ∀ a, Q a → Q (a.arrive route now).1)
    (made : ∀ id d, g.activity? id = some d → Q ((d.instantiate now).arrive route now).1)
    (live : ∀ a ∈ (h.retire x).head, Q a) : ∀ a ∈ (h.onward g route x now).head, Q a := by
  obtain ⟨hhead, hfresh⟩ := Graph.advance_forall arrive made live
  unfold onward
  refine forall_merge hhead ?_
  -- A refused route makes nothing.
  unfold Graph.Advance.made
  split
  · next fresh hok => exact hfresh fresh hok
  · intro a ha
    cases ha

/-- Following a route from an instance keeps agreement, also when a target refuses. -/
theorem Agrees.onward (hg : g.WellFormed) (hc : h.Agrees g) {a : Activity} (ha : g.Defines a)
    (route : List String) (now : Instant) : (h.onward g route a now).Agrees g where
  live := forall_onward (fun b hb => hb.of_blank (b.blank_arrive route now))
    (fun _ d hd => (hg.defines hd).of_blank
      ((Activity.blank_arrive _ route now).trans (d.blank_instantiate now))) (hc.retire ha).live
  completed := (hc.retire ha).completed

/-- What is live after an activity is logged and followed along a route that no target refuses. -/
theorem onward_eq_append {x : Activity} {route : List String} {now : Instant}
    {head fresh : List Activity} (unique : ((h.retire x).head.map (·.id)).Nodup)
    (hadvance : g.advance route (h.retire x).head now = ⟨head, .ok fresh⟩) :
    h.onward g route x now = { head := head ++ fresh, stack := h.stack ++ [x] } := by
  have hids := Graph.advance_unique unique (congrArg Graph.Advance.fresh hadvance)
  rw [hadvance] at hids
  unfold onward
  simp only [hadvance, Graph.Advance.made]
  rw [merge_eq_append hids]
  rfl

/-- Following a route from an instance keeps coherence, also when a target refuses. -/
theorem Coherent.onward (hg : g.WellFormed) (hc : h.Coherent g) {a : Activity} (ha : g.Defines a)
    (route : List String) (now : Instant) : (h.onward g route a now).Coherent g where
  unique := by
    refine merge_unique ?_ _
    rw [Graph.advance_head_ids]
    exact (hc.retire ha).unique
  live := (hc.agrees.onward hg ha route now).live
  completed := (hc.agrees.onward hg ha route now).completed

/-- Making an activity live logs nothing. -/
@[simp]
theorem stack_pushHead (h : History) (a : Activity) : (h.pushHead a).stack = h.stack := by
  unfold pushHead
  split <;> rfl

/-- What holds of the live activities and of one more holds of all when that one is live, in the
place of another or besides them. -/
theorem forall_pushHead {Q : Activity → Prop} (live : ∀ b ∈ h.head, Q b) {a : Activity}
    (ha : Q a) : ∀ b ∈ (h.pushHead a).head, Q b := by
  unfold pushHead
  split
  · exact forall_updateFirst live fun _ _ _ => ha
  · exact List.forall_mem_append.mpr ⟨live, List.forall_mem_singleton.mpr ha⟩

/-- Making an instance live, in the place of another or as one more, keeps agreement. -/
theorem Agrees.pushHead (hc : h.Agrees g) {a : Activity} (ha : g.Defines a) :
    (h.pushHead a).Agrees g where
  live := forall_pushHead hc.live ha
  completed := by rw [stack_pushHead]; exact hc.completed

/-- Making an instance live, in the place of another or as one more, keeps coherence. -/
theorem Coherent.pushHead (hc : h.Coherent g) {a : Activity} (ha : g.Defines a) :
    (h.pushHead a).Coherent g where
  unique := by
    unfold History.pushHead
    split
    · rw [ids_writeBack]; exact hc.unique
    · next hnot =>
      have hjoin := join_unique hc.unique a
      rwa [join, if_neg hnot] at hjoin
  live := (hc.agrees.pushHead ha).live
  completed := (hc.agrees.pushHead ha).completed

/-- Changes of live activities that their blanks do not show keep agreement. -/
theorem Agrees.map (hc : h.Agrees g) {f : Activity → Activity}
    (keeps : ∀ a, (f a).blank = a.blank) : Agrees g { h with head := h.head.map f } where
  live := by
    intro b hb
    obtain ⟨a, ha, rfl⟩ := List.mem_map.mp hb
    exact (hc.live a ha).of_blank (keeps a)
  completed := hc.completed

/-- Changes of live activities that their blanks do not show keep coherence. -/
theorem Coherent.map (hc : h.Coherent g) {f : Activity → Activity}
    (keeps : ∀ a, (f a).blank = a.blank) : Coherent g { h with head := h.head.map f } where
  unique := by
    have hid : ∀ a, (f a).id = a.id := fun a => Activity.id_eq_of_blank (keeps a)
    simpa [List.map_map, Function.comp_def, hid] using hc.unique
  live := (hc.agrees.map keeps).live
  completed := hc.completed

/-- A change of the first match that its blank does not show keeps the ids. -/
theorem ids_updateFirst {as : List Activity} {p : Activity → Bool} {a b : Activity}
    (ha : as.find? p = some a) (hb : b.blank = a.blank) :
    (Workflow.updateFirst p (fun _ => b) as).map (·.id) = as.map (·.id) := by
  induction as with
  | nil => rfl
  | cons c as ih =>
    rw [List.find?_cons] at ha
    unfold Workflow.updateFirst
    split at ha
    · next hpc =>
      -- The one that is changed has the id of the one that was found.
      cases ha
      rw [if_pos hpc]
      simp [Activity.id_eq_of_blank hb]
    · next hpc => rw [if_neg (by simp [hpc]), List.map_cons, List.map_cons, ih ha]

/-- A change of the first match that its blank does not show keeps agreement. -/
theorem Agrees.updateFirst (hc : h.Agrees g) {p : Activity → Bool} {a b : Activity}
    (ha : h.head.find? p = some a) (hb : b.blank = a.blank) :
    Agrees g { h with head := Workflow.updateFirst p (fun _ => b) h.head } where
  live := forall_updateFirst hc.live fun _ _ _ =>
    (hc.live a (List.mem_of_find?_eq_some ha)).of_blank hb
  completed := hc.completed

/-- A change of the first match that its blank does not show keeps coherence. -/
theorem Coherent.updateFirst (hc : h.Coherent g) {p : Activity → Bool} {a b : Activity}
    (ha : h.head.find? p = some a) (hb : b.blank = a.blank) :
    Coherent g { h with head := Workflow.updateFirst p (fun _ => b) h.head } where
  unique := by
    rw [ids_updateFirst ha hb]
    exact hc.unique
  live := (hc.agrees.updateFirst ha hb).live
  completed := hc.completed

/-- Whether a property of histories is kept by everything that an engine and a handler do to a
history.  It says at least that every activity has its definition. -/
structure Kept (g : Graph) (H : History → Prop) : Prop where
  /-- Every activity has its definition. -/
  agrees : ∀ {h}, H h → h.Agrees g
  /-- Writing an instance back keeps the property. -/
  writeBack : ∀ {h a}, H h → g.Defines a → H (h.writeBack a)
  /-- So does logging one. -/
  retire : ∀ {h a}, H h → g.Defines a → H (h.retire a)
  /-- So does following a route from one. -/
  onward : ∀ {h a}, H h → g.Defines a → ∀ route now, H (h.onward g route a now)
  /-- So does making one live. -/
  pushHead : ∀ {h a}, H h → g.Defines a → H (h.pushHead a)
  /-- So do changes of live activities that their blanks do not show. -/
  map : ∀ {h} {f : Activity → Activity}, H h → (∀ a, (f a).blank = a.blank) →
    H { h with head := h.head.map f }

/-- Agreement is kept. -/
theorem kept_agrees (hg : g.WellFormed) : Kept g (Agrees g) where
  agrees := id
  writeBack := fun hc ha => hc.writeBack ha
  retire := fun hc ha => hc.retire ha
  onward := fun hc ha route now => hc.onward hg ha route now
  pushHead := fun hc ha => hc.pushHead ha
  map := fun hc keeps => hc.map keeps

/-- Coherence is kept. -/
theorem kept_coherent (hg : g.WellFormed) : Kept g (Coherent g) where
  agrees := Coherent.agrees
  writeBack := fun hc ha => hc.writeBack ha
  retire := fun hc ha => hc.retire ha
  onward := fun hc ha route now => hc.onward hg ha route now
  pushHead := fun hc ha => hc.pushHead ha
  map := fun hc keeps => hc.map keeps

/-- Instances are restored from their records as they were. -/
theorem restoreAll_defines (hg : g.WellFormed) {as : List Activity} (h : ∀ a ∈ as, g.Defines a) :
    restoreAll g as = .ok as := by
  induction as with
  | nil => rfl
  | cons a as ih =>
    have ha := h a (by simp)
    -- The counterpart of an instance is its own blank.
    have hfound : g.counterpart? a = some a.blank := by
      unfold Graph.counterpart?
      rw [show g.activity? a.id = some a.blank from ha]
    unfold restoreAll
    rw [hfound]
    dsimp only
    rw [Activity.reattach_blank (hg.tokensMatch ha), ih fun b hb => h b (by simp [hb])]
    rfl

/-- One activity is restored for each record that belongs to a definition, in order, and it is an
instance of that definition, whatever the records say. -/
theorem map_blank_restoreAll (hg : g.WellFormed) {records as : List Activity}
    (h : restoreAll g records = .ok as) :
    as.map (·.blank) = records.filterMap g.counterpart? := by
  induction records generalizing as with
  | nil => cases h; rfl
  | cons record records ih =>
    unfold restoreAll at h
    split at h
    · next hnone => rw [List.filterMap_cons_none hnone]; exact ih h
    · next d hd =>
      obtain ⟨a, ha, h⟩ := Document.bind_ok_iff.mp h
      obtain ⟨rest, hrest, h⟩ := Document.bind_ok_iff.mp h
      cases h
      have hblank : a.blank = d := hg.blank_reattach (g.mem_of_counterpart? hd) ha
      rw [List.filterMap_cons_some hd, List.map_cons, hblank, ih hrest]

/-- The activities of restored records have their definitions. -/
theorem defines_restoreAll (hg : g.WellFormed) {records as : List Activity}
    (h : restoreAll g records = .ok as) : ∀ a ∈ as, g.Defines a := by
  intro a ha
  have hmem : a.blank ∈ records.filterMap g.counterpart? := by
    rw [← map_blank_restoreAll hg h]
    exact List.mem_map_of_mem ha
  obtain ⟨record, -, hd⟩ := List.mem_filterMap.mp hmem
  exact hg.activity?_of_mem (g.mem_of_counterpart? hd)

/-- A restored history agrees with the process, whatever was saved. -/
theorem agrees_restore (hg : g.WellFormed) {head stack : List Activity}
    (hrestore : restore g head stack = .ok h) : h.Agrees g := by
  obtain ⟨head', hhead, hrestore⟩ := Document.bind_ok_iff.mp hrestore
  obtain ⟨stack', hstack, hrestore⟩ := Document.bind_ok_iff.mp hrestore
  cases hrestore
  exact ⟨defines_restoreAll hg hhead, defines_restoreAll hg hstack⟩

/-- A coherent history is restored from its own records as it was. -/
theorem restore_coherent (hg : g.WellFormed) (hc : h.Coherent g) :
    restore g h.head h.stack = .ok h := by
  unfold restore
  rw [restoreAll_defines hg hc.live, restoreAll_defines hg hc.completed]
  rfl

end History

namespace Step

variable {g : Graph}

/-- Redirections in turn, along flows out of a boundary event, keep what is kept. -/
theorem foldl_redirectAlong_kept {H : History → Prop} (hk : History.Kept g H) (hg : g.WellFormed)
    {st : Step} (hst : st.graph = g) (edge : String) (flows : List Flow) {h : History} (hh : H h) :
    H (flows.foldl (st.redirectAlong edge) h) := by
  induction flows generalizing h with
  | nil => exact hh
  | cons flow flows ih =>
    refine ih ?_
    unfold redirectAlong
    split
    · exact hh
    · next d hd =>
      rw [hst] at hd
      apply hk.pushHead hh
      -- The redirected activity comes from the stack or, if it never completed, from the process.
      have hfrom : g.Defines ((h.lastCompleted? d.id).getD d) := by
        cases hl : h.lastCompleted? d.id with
        | none => exact hg.defines hd
        | some a => exact (hk.agrees hh).completed a (History.lastCompleted?_some hl).1
      exact hfrom.of_blank (blank_redirected _ _ _ _)

/-- An action keeps what is kept.  Only a takeover and a stop of the other branches reach the
history. -/
theorem perform_kept {H : History → Prop} (hk : History.Kept g H) (hg : g.WellFormed)
    {st st' : Step} {action : Action} (h : st.perform action = .ok st') (hst : st.graph = g)
    (hh : H st.history) : H st'.history := by
  rcases perform_cases h with ⟨edit, a, ha, rfl, -⟩ | ⟨-, t, b, ht, hb, rfl⟩ | ⟨-, rfl⟩
  · exact hh
  · exact foldl_redirectAlong_kept hk hg hst _ _ hh
  · refine hk.map hh fun a => ?_
    split
    · rfl
    · exact Activity.blank_set _ _ _

/-- Actions in turn keep what is kept. -/
theorem Reaches.kept {H : History → Prop} (hk : History.Kept g H) (hg : g.WellFormed)
    {allowed : Action → Prop} {st st' : Step} (h : Reaches allowed st st') (hst : st.graph = g)
    (hh : H st.history) : H st'.history := by
  have hboth : st'.graph = g ∧ H st'.history :=
    h.keeps (J := fun st => st.graph = g ∧ H st.history)
      (fun _ _ _ _ done hboth =>
        ⟨(perform_frame done).1.trans hboth.1, perform_kept hk hg done hboth.1 hboth.2⟩)
      ⟨hst, hh⟩
  exact hboth.2

/-- Whether the step is on a process and a coherent history, with an instance to work on. -/
structure Coherent (g : Graph) (st : Step) : Prop where
  /-- The graph is that of the process. -/
  graph : st.graph = g
  /-- The history is coherent. -/
  history : st.history.Coherent g
  /-- The activity is an instance of its definition. -/
  activity : g.Defines st.activity

/-- An action keeps the step coherent. -/
theorem coherent_perform (hg : g.WellFormed) {st st' : Step} {action : Action}
    (h : st.perform action = .ok st') (hc : st.Coherent g) : st'.Coherent g := by
  obtain ⟨hgraph, -, -, hblank⟩ := perform_frame h
  exact ⟨hgraph.trans hc.graph,
    perform_kept (History.kept_coherent hg) hg h hc.graph hc.history,
    hc.activity.of_blank hblank⟩

/-- Actions in turn keep the step coherent. -/
theorem Reaches.coherent {allowed : Action → Prop} (hg : g.WellFormed) {st st' : Step}
    (h : Reaches allowed st st') (hc : st.Coherent g) : st'.Coherent g :=
  h.keeps (fun _ _ _ _ done => coherent_perform hg done) hc

end Step

end Workflow
