import Mathlib.Data.List.Perm.Subperm
import Workflow.Proofs.Engine.Reachable
import Workflow.Proofs.History.Branches

/-!
# Sequential processes

A process is sequential when all its gateways are exclusive and no other activity lists more than
one outgoing edge.  Then the flow never goes on along two edges, whatever the handlers choose, and
only a takeover makes a second activity live.  So the history keeps an invariant
(`History.OnPath`): the log is a path from the start event along the edges of the process, at most
one activity is live, and it is one to which the path goes on.

What an engine does to its history keeps it.  Writing back and stopping other branches change no id,
an activity that is logged is the live one and lengthens the path, and a route that leads to at most
one node leaves at most one activity live.  `Engine.UsedWithin.stays_sequential` reads the invariant
off the engine, whether its process has cycles or not.
-/

namespace Workflow

/-! ## Sequential graphs -/

namespace Graph

variable {g : Graph} {a a' : Activity} {route : List String}

/-- Whether every gateway of the process is exclusive and every other activity lists at most one
outgoing edge. -/
structure Sequential (g : Graph) : Prop where
  /-- Gateways are exclusive. -/
  exclusive : ∀ d ∈ g.activities, ∀ w ∈ d.gateway?, w.kind = .exclusive
  /-- Other activities list at most one outgoing edge. -/
  single : ∀ d ∈ g.activities, d.gateway? = none → (Document.records d.outgoing).length ≤ 1

/-- The flow goes on along at most one edge from an activity of a sequential process. -/
theorem Sequential.length_route_le (hg : g.Sequential) (ha : g.Defines a)
    (hr : a.routes? = some (route, a')) : route.length ≤ 1 := by
  have hdefinition : a.blank ∈ g.activities := (activity?_some ha).1
  cases hk : a.gateway? with
  | some w =>
    have hw := Activity.kind_of_gateway? hk
    obtain ⟨-, rfl, -⟩ := Activity.routes_gateway hw hr
    have hblank : w.blank ∈ a.blank.gateway? := by rw [Activity.gateway?_blank, hk]; rfl
    have hexclusive : w.blank.kind = .exclusive := hg.exclusive _ hdefinition _ hblank
    exact Gateway.length_splitEdges_le hexclusive
  | none =>
    rw [Activity.routes_of_not_gateway hk] at hr
    cases hr
    have hblank : a.blank.gateway? = none := by rw [Activity.gateway?_blank, hk]; rfl
    exact hg.single a.blank hdefinition hblank

/-- A route leads to no more nodes than it has edges. -/
theorem length_targetIds_le (g : Graph) (route : List String) :
    (g.targetIds route).length ≤ route.length := by
  unfold targetIds
  rw [List.length_map]
  exact List.length_filterMap_le _ _

/-- Whether a log goes on at a node: at the start event when it is empty, and otherwise at the end
of an edge that its last entry, which has finished, lists as outgoing. -/
def GoesOnAt (g : Graph) (stack : List Activity) (id : String) : Prop :=
  match stack.getLast? with
  | none => id = g.start.id
  | some x => x.status = some .finished ∧
      ∃ f ∈ g.edges, f.id ∈ Document.records x.outgoing ∧ f.target = id

/-- A log goes on behind a finished entry where the route of that entry leads. -/
theorem WellFormed.goesOnAt_targets (hg : g.WellFormed) (ha : g.Defines a)
    (hr : a.routes? = some (route, a')) (finished : a.status = some .finished)
    (stack : List Activity) {id : String} (hid : id ∈ g.targetIds route) :
    g.GoesOnAt (stack ++ [a']) id := by
  unfold GoesOnAt
  rw [List.getLast?_concat]
  obtain ⟨f, hf, hedge, htarget⟩ := exists_edge_of_mem_targetIds hid
  -- The split keeps the status and the edges.
  have hblank : a'.blank = a.blank := Activity.blank_routes hr
  have hout : a'.outgoing = a.outgoing := by rw [← a'.outgoing_blank, hblank, a.outgoing_blank]
  refine ⟨(Activity.status_routes hr).trans finished, f, hf, ?_, htarget⟩
  rw [hout]
  exact hg.routes_subset ha hr f.id hedge

/-- Whether a log is a path of the process: each entry is one at which the log before it goes on. -/
inductive Path (g : Graph) : List Activity → Prop where
  /-- The empty log. -/
  | nil : Path g []
  /-- A path with one more entry. -/
  | concat {stack : List Activity} {a : Activity} (before : Path g stack)
      (next : g.GoesOnAt stack a.id) : Path g (stack ++ [a])

/-- Each entry of a path is one at which the entries below it go on. -/
theorem Path.goesOnAt {stack : List Activity} (h : g.Path stack) {i : ℕ} {x : Activity}
    (hx : stack[i]? = some x) : g.GoesOnAt (stack.take i) x.id := by
  induction h with
  | nil => cases hx
  | @concat stack a before next ih =>
    rcases Nat.lt_or_ge i stack.length with hi | hi
    · rw [List.getElem?_append_left hi] at hx
      rw [List.take_append_of_le_length (Nat.le_of_lt hi)]
      exact ih hx
    · -- There is no entry behind the last one.
      rw [List.getElem?_append_right hi, List.getElem?_singleton] at hx
      split at hx
      · next hzero =>
        cases hx
        obtain rfl : i = stack.length := by omega
        rw [List.take_left]
        exact next
      · cases hx

end Graph

/-! ## Histories on a path -/

namespace History

variable {g : Graph} {h : History} {a a' : Activity}

/-- Whether the log is a path, and at most one activity is live, at which the path goes on. -/
structure OnPath (g : Graph) (h : History) : Prop where
  /-- The log is a path. -/
  path : g.Path h.stack
  /-- At most one activity is live. -/
  single : h.head.length ≤ 1
  /-- The path goes on there. -/
  next : ∀ id ∈ h.head.map (·.id), g.GoesOnAt h.stack id

/-- Only the log and the live ids matter. -/
theorem OnPath.of_ids (hp : h.OnPath g) {h' : History} (hstack : h'.stack = h.stack)
    (hids : h'.head.map (·.id) = h.head.map (·.id)) : h'.OnPath g where
  path := by rw [hstack]; exact hp.path
  single := by
    have hlength := congrArg List.length hids
    rw [List.length_map, List.length_map] at hlength
    rw [hlength]
    exact hp.single
  next := by rw [hstack, hids]; exact hp.next

/-- Where only the start event is live and nothing is logged, the path is about to begin. -/
theorem onPath_start (g : Graph) (now : Instant) :
    OnPath g { head := [g.start.instantiate now] } where
  path := .nil
  single := Nat.le_refl 1
  next := by
    intro id hid
    rw [List.map_singleton, List.mem_singleton, Activity.id_instantiate] at hid
    exact hid

/-- Logging the live activity leaves none. -/
theorem OnPath.head_retire (hp : h.OnPath g) (ha : a.id ∈ h.head.map (·.id)) :
    (h.retire a).head = [] := by
  obtain ⟨b, hb, hid⟩ := List.mem_map.mp ha
  obtain ⟨c, hc⟩ := List.length_eq_one_iff.mp
    (Nat.le_antisymm hp.single (List.length_pos_of_mem hb))
  rw [hc, List.mem_singleton] at hb
  unfold retire
  rw [hc, ← hb]
  simp [hid]

/-- Logging the live activity lengthens the path. -/
theorem OnPath.retire (hp : h.OnPath g) (ha : a.id ∈ h.head.map (·.id)) :
    (h.retire a).OnPath g where
  path := hp.path.concat (hp.next a.id ha)
  single := by rw [hp.head_retire ha]; exact Nat.zero_le 1
  next := by
    rw [hp.head_retire ha]
    intro id hid
    cases hid

/-- In a sequential process the flow goes on from the live activity to at most one other, at which
the path goes on. -/
theorem OnPath.onward (hg : g.WellFormed) (sequential : g.Sequential) (hc : h.Coherent g)
    (hp : h.OnPath g) (hdefines : g.Defines a) (ha : a.id ∈ h.head.map (·.id))
    (finished : a.status = some .finished) {route : List String}
    (hr : a.routes? = some (route, a')) (now : Instant) : (h.onward g route a' now).OnPath g := by
  have hblank : a'.blank = a.blank := Activity.blank_routes hr
  rw [← Activity.id_eq_of_blank hblank] at ha
  -- Nothing else is live, so whatever is live then is a target of the route.
  have htargets : ∀ id ∈ (h.onward g route a' now).head.map (·.id), id ∈ g.targetIds route := by
    intro id hid
    by_contra hnot
    obtain ⟨b, hb, rfl⟩ := List.mem_map.mp hid
    have hlive := (hc.onward hg (hdefines.of_blank hblank) route now).headById?_of_mem hb
    rw [headById?_onward hnot, headById?, hp.head_retire ha] at hlive
    cases hlive
  have hunique := (hc.onward hg (hdefines.of_blank hblank) route now).unique
  refine ⟨(hp.retire ha).path, ?_, fun id hid => ?_⟩
  · calc (h.onward g route a' now).head.length
        = ((h.onward g route a' now).head.map (·.id)).length := by rw [List.length_map]
      _ ≤ (g.targetIds route).length := (hunique.subperm htargets).length_le
      _ ≤ route.length := g.length_targetIds_le route
      _ ≤ 1 := sequential.length_route_le hdefines hr
  · exact hg.goesOnAt_targets hdefines hr finished h.stack (htargets id hid)

end History

/-! ## Engines of sequential processes -/

/-- Without a takeover a handler changes no id of a live activity. -/
theorem Step.Reaches.ids_head {st st' : Step} (h : Reaches (· ≠ .takeBoundaryEvent) st st') :
    st'.history.head.map (·.id) = st.history.head.map (·.id) := by
  refine h.keeps (J := fun st' => st'.history.head.map (·.id) = st.history.head.map (·.id))
    (fun action st₁ st₂ allowed done ih => ?_) rfl
  rcases perform_cases done with ⟨edit, a, -, rfl, -⟩ | ⟨htake, -⟩ | ⟨-, rfl⟩
  · exact ih
  · exact absurd htake allowed
  · -- The other branches get another status.
    rw [← ih]
    simp only [stopAllExceptThis, List.map_map]
    refine List.map_congr_left fun b _ => ?_
    simp only [Function.comp_apply]
    split <;> rfl

namespace Engine

variable {σ : Type} {p : Document} {g : Graph}

/-- Whether the engine is coherent with the process, its history is on a path, and no registered
handler takes a boundary event. -/
structure OnPath (g : Graph) (e : Engine σ) : Prop where
  /-- The engine is coherent. -/
  coherent : e.Coherent g
  /-- The history is on a path. -/
  history : e.history.OnPath g
  /-- Registered handlers take no boundary event. -/
  handlers : ∀ table, e.handlers = some table → ∀ handler, table.Has handler →
    handler.Within (· ≠ .takeBoundaryEvent)

/-- The conclusion of the live activity keeps the history on a path. -/
theorem conclude_onPath (hg : g.WellFormed) (sequential : g.Sequential) {e : Engine σ}
    (hc : e.history.Coherent g) (hp : e.history.OnPath g) {a : Activity} (hdefines : g.Defines a)
    (ha : a.id ∈ e.history.head.map (·.id)) (now : Instant) :
    (e.conclude g a now).1.history.OnPath g := by
  rcases conclude_history e g a now with h | ⟨-, h⟩ | ⟨-, -, h⟩ | ⟨route, a', hs, hr, h⟩
  · rw [h]; exact hp
  · rw [h]; exact hp.retire ha
  · rw [h]; exact hp.of_ids rfl (History.ids_writeBack ..)
  · rw [h]; exact hp.onward hg sequential hc hdefines ha hs hr now

/-- A dispatch keeps the engine on a path, if its handler takes no boundary event. -/
theorem OnPath.dispatch (hg : g.WellFormed) (sequential : g.Sequential) {e : Engine σ}
    (he : e.OnPath g) (id : String) (origin : Origin) {handler : Handler σ}
    (within : handler.Within (· ≠ .takeBoundaryEvent)) (payload : Json) (memory : σ)
    (now : Instant) : (e.dispatch id origin handler payload memory now).engine.OnPath g := by
  have hcoherent := he.coherent.dispatch hg id origin handler payload memory now
  have hhandlers := (dispatch_frame e id origin handler payload memory now).2
  refine ⟨hcoherent, ?_, by rw [hhandlers]; exact he.handlers⟩
  rcases dispatch_cases e id origin within payload memory now with
    h | ⟨graph, found, st, hgraph, hfound, -, hreach, h⟩
  · rw [h]; exact he.history
  · obtain rfl : g = graph := Option.some.inj (he.coherent.graph.symm.trans hgraph)
    have hst : st.Coherent g := hreach.coherent hg (he.coherent.opened hfound now)
    obtain ⟨-, -, hstack, hblank⟩ := hreach.frame
    have hids : (e.leave st).history.head.map (·.id) = e.history.head.map (·.id) :=
      (History.ids_writeBack ..).trans hreach.ids_head
    have hleft : (e.leave st).history.OnPath g := he.history.of_ids hstack hids
    rcases h with h | h
    · rw [h]; exact hleft
    · rw [h]
      -- What is concluded has the id under which it was found live.
      have hlive : st.activity.id ∈ (e.leave st).history.head.map (·.id) := by
        have hid : st.activity.id = found.id := Activity.id_eq_of_blank hblank
        rw [hids, hid]
        exact List.mem_map_of_mem (History.headById?_some hfound).1
      exact conclude_onPath hg sequential (hst.history.writeBack hst.activity) hleft hst.activity
        hlive now

/-- An edit of a live activity keeps the engine on a path. -/
theorem OnPath.edit {e : Engine σ} (he : e.OnPath g) {q : Activity → Bool} {a b : Activity}
    {edit : Edit} {now : Instant} (ha : e.history.head.find? q = some a)
    (hb : a.edit now edit = .ok b) :
    OnPath g { e with
      history := { e.history with head := updateFirst q (fun _ => b) e.history.head } } where
  coherent := he.coherent.edit ha hb
  history := he.history.of_ids rfl (History.ids_updateFirst ha (Activity.blank_edit hb))
  handlers := he.handlers

/-- Every engine of a sequential process is on a path, as long as no handler takes a boundary
event. -/
theorem UsedWithin.onPath (compiled : p.compile = .ok g) (sequential : g.Sequential) {e : Engine σ}
    (h : e.UsedWithin (· ≠ .takeBoundaryEvent) p) : e.OnPath g := by
  have hg := Document.wellFormed_of_compile compiled
  induction h with
  | made within h =>
    obtain ⟨g', hg', hgraph, hhistory, hhandlers, -⟩ := withProcess_ok h
    obtain rfl : g = g' := Except.ok.inj (compiled.symm.trans hg')
    refine ⟨coherent_start hg hgraph hhistory, ?_, fun table htable => ?_⟩
    · rw [hhistory]
      exact History.onPath_start g _
    · rw [hhandlers] at htable
      cases htable
      exact within
  | called before c within ih =>
    exact after_keeps (fun handler => handler.Within (· ≠ .takeBoundaryEvent))
      (fun _ _ he hserves => within_of_serves (fun _ => by simp) he.handlers hserves)
      (fun _ id origin _ payload memory now he hmay =>
        he.dispatch hg sequential id origin hmay payload memory now)
      (fun _ _ _ he => ⟨⟨he.coherent.graph, he.coherent.history⟩, he.history, he.handlers⟩)
      ih within
  | editedById before may h ih =>
    obtain ⟨a, b, ha, hb, rfl⟩ := editById_ok h
    exact ih.edit ha hb
  | editedByName before may h ih =>
    obtain ⟨a, b, ha, hb, rfl⟩ := editByName_ok h
    exact ih.edit ha hb

/-- A sequential process stays sequential, and its log is a path.  At most one activity is live, the
first entry of the log is of the start event, and between two neighbouring entries there is an edge
of the process that the lower one, which has finished, lists as outgoing and that leads to the
upper one. -/
theorem UsedWithin.stays_sequential (compiled : p.compile = .ok g) (sequential : g.Sequential)
    {e : Engine σ} (h : e.UsedWithin (· ≠ .takeBoundaryEvent) p) :
    e.history.head.length ≤ 1 ∧
      (∀ x, e.history.stack[0]? = some x → x.blank = g.start) ∧
      ∀ (i : ℕ) x y, e.history.stack[i]? = some x → e.history.stack[i + 1]? = some y →
        x.status = some .finished ∧
          ∃ f ∈ g.edges, f.id ∈ Document.records x.outgoing ∧ f.target = y.id := by
  have hg := Document.wellFormed_of_compile compiled
  have he := h.onPath compiled sequential
  refine ⟨he.history.single, fun x hx => ?_, fun i x y hx hy => ?_⟩
  · have hid : x.id = g.start.id := he.history.path.goesOnAt hx
    have hdefines : g.activity? x.id = some x.blank :=
      he.coherent.history.completed x (List.mem_of_getElem? hx)
    rw [hid, hg.activity?_of_mem (List.mem_cons_self ..)] at hdefines
    exact (Option.some.inj hdefines).symm
  · have hnext := he.history.path.goesOnAt hy
    have hlast : (e.history.stack.take (i + 1)).getLast? = some x := by
      rw [List.take_add_one, hx, Option.toList_some, List.getLast?_concat]
    unfold Graph.GoesOnAt at hnext
    rw [hlast] at hnext
    exact hnext

end Engine

/-! ## A process that goes back -/

/-- A handler that finishes its gateway with both edges chosen at first, and with the one to the end
from then on. -/
def Handler.reviews : Handler Bool := fun _ payload again =>
  .act (.takeOutgoingById (if again then "write" else "end")) fun _ _ =>
    .act (.takeOutgoingById "end") fun _ _ =>
      .act (.edit (.setStatus .finished)) fun _ _ => .done (false, .ok payload)

namespace Review

/-- A process with an exclusive gateway from which the flow ends or goes back to the task before
it. -/
def process : Builder :=
  ({ id := "review" } : Builder)
    |>.start "start" "Start" |>.finish "end" "End"
    |>.task .user "write" "Write" |>.gateway .exclusive "review" "Review"
    |>.flow "f_start" "start" "write" |>.flow "f_review" "write" "review"
    |>.flow "f_again" "review" "write" |>.flow "f_end" "review" "end"

/-- The handlers for the process, which review unattended. -/
def table : HandlerTable (Handler Bool) := HandlerTable.register {} "Review" .automatic .reviews

/-- An engine for the process. -/
def engine : Engine Bool := .ofProcess process.build table

/-- The compiled process. -/
def graph : Graph := engine.compiled

/-- The log when the flow has gone back once. -/
theorem stays_sequential_review :
    let e := engine.after (.advance .null true ⟨.epoch, 9⟩)
    e.history.stack.map (·.id) = ["start", "write", "review", "write", "review", "end"] ∧
      e.history.head.length ≤ 1 ∧
      (∀ x, e.history.stack[0]? = some x → x.blank = graph.start) ∧
      ∀ (i : ℕ) x y, e.history.stack[i]? = some x → e.history.stack[i + 1]? = some y →
        x.status = some .finished ∧
          ∃ f ∈ graph.edges, f.id ∈ Document.records x.outgoing ∧ f.target = y.id := by
  intro e
  have hreviews : Handler.reviews.Within (· ≠ .takeBoundaryEvent) := fun _ _ _ =>
    ⟨nofun, fun _ _ => ⟨nofun, fun _ _ => ⟨nofun, fun _ _ => trivial⟩⟩⟩
  have htable : ∀ handler, table.Has handler → handler.Within (· ≠ .takeBoundaryEvent) := by
    intro handler h
    rcases HandlerTable.has_register h with rfl | ⟨_, _, _, hfind, _⟩
    · exact hreviews
    · cases hfind
  have hused : e.UsedWithin (· ≠ .takeBoundaryEvent) process.build :=
    .called (.made htable rfl) _ fun _ h => nomatch h
  have hsequential : graph.Sequential := ⟨by decide, by decide⟩
  exact ⟨rfl, Engine.UsedWithin.stays_sequential rfl hsequential hused⟩

end Review

end Workflow
