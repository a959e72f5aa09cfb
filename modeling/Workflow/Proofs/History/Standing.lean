import Workflow.Proofs.Activity.Untimed
import Workflow.Proofs.Document.Builder
import Workflow.Proofs.History.Branches

/-!
# Where branches stand

Where the branch of an id stands is its live activity, but for the times (`History.standing?`).
Following a route changes it for the activities to which the route leads and in the same way for
each of them, whether it was live before or is made anew (`History.standing?_onward`): all tokens
of the route are taken, and the join says whether the activity is entered.

So what becomes of a live activity that finishes is told by where it stands alone
(`Activity.passing`), and it does the same to every other branch whatever came before.  If neither
of two activities leads to the other, they may pass in either order (`Passing.standing_comm`).
-/

namespace Workflow

/-! ## Routes -/

/-- Whether every arrival along a route is accepted, and there are as many of them as it takes for
all tokens of the route to be taken. -/
structure Graph.Receptive (g : Graph) : Prop where
  /-- No activity refuses an arrival. -/
  accepts : ∀ a, g.Defines a → ¬ a.Refuses
  /-- A route leads to an activity as often as it has untaken tokens there. -/
  enough : ∀ a, g.Defines a → ∀ route : List String,
    (a.tokens.filter fun t => !t.taken && route.contains t.edge).length ≤
      (g.targetIds route).count a.id

/-- So it is in a process without complex gateways whose flows have ids of their own. -/
theorem Builder.receptive {b : Builder} {g : Graph} (distinct : (b.flows.map (·.id)).Nodup)
    (plain : ∀ n ∈ b.nodes, n.group ≠ .gateway .complex) (h : b.build.compile = .ok g) :
    g.Receptive where
  accepts := by
    rintro a ha ⟨w, hw, hcomplex⟩
    obtain ⟨n, hn, -, hgroup⟩ := exists_gateway_node h ha hw
    rw [hcomplex] at hgroup
    exact plain n hn hgroup
  enough := fun _ ha route => length_untaken_le distinct h ha route

namespace Graph

variable {g : Graph} {route route' : List String} {id : String}

/-- What a route makes of the branch of an id: nothing unless it leads there, and else a branch that
is there already, or a new one, has received all its arrivals. -/
def received (g : Graph) (route : List String) (id : String) (s : Option Activity) :
    Option Activity :=
  if id ∈ g.targetIds route then
    (s.or ((g.activity? id).map (·.untimed))).map (·.receive route)
  else s

/-- The empty route leads nowhere. -/
@[simp]
theorem received_nil (id : String) (s : Option Activity) : g.received [] id s = s := rfl

/-- Two routes may be followed in either order. -/
theorem received_comm (g : Graph) (route route' : List String) (id : String)
    (s : Option Activity) :
    g.received route' id (g.received route id s) =
      g.received route id (g.received route' id s) := by
  unfold received
  by_cases h : id ∈ g.targetIds route <;> by_cases h' : id ∈ g.targetIds route'
  · -- The first route makes the branch, if there is none, and the second finds it.
    simp only [h, h', if_true]
    cases hs : s.or ((g.activity? id).map (·.untimed)) with
    | none =>
      obtain ⟨-, hnone⟩ := Option.or_eq_none_iff.mp hs
      simp [hnone]
    | some a => simp [Activity.receive_comm a route route']
  · simp only [h, h', if_true, if_false]
  · simp only [h, h', if_true, if_false]
  · simp only [h, h', if_false]

/-- The newcomer of an id is its definition, if that is a target and not live. -/
theorem find?_newcomers (head : List Activity) (targets : List String) (id : String) :
    (g.newcomers head targets).find? (·.id == id) =
      if id ∈ targets ∧ id ∉ head.map (·.id) then g.activity? id else none := by
  cases hfind : (g.newcomers head targets).find? (·.id == id) with
  | some d =>
    obtain ⟨htarget, hnew, hd⟩ := mem_newcomers.mp (List.mem_of_find?_eq_some hfind)
    have hid : d.id = id := by simpa using List.find?_some hfind
    rw [hid] at htarget hnew hd
    rw [if_pos ⟨htarget, hnew⟩, hd]
  | none =>
    split
    · next htarget =>
      -- The definition would be among the newcomers.
      cases hd : g.activity? id with
      | none => rfl
      | some d =>
        have hid := (activity?_some hd).2
        have hmem : d ∈ g.newcomers head targets := by
          rw [mem_newcomers, hid]
          exact ⟨htarget.1, htarget.2, hd⟩
        exact absurd (beq_iff_eq.mpr hid) (List.find?_eq_none.mp hfind d hmem)
    · rfl

end Graph

/-- As many arrivals at an activity as a route leads to it are arrivals along all edges of the
route. -/
theorem Graph.Receptive.untimed_arrivals {g : Graph} (hr : g.Receptive) {a : Activity}
    (ha : g.Defines a) {route : List String} (h : a.id ∈ g.targetIds route) (now : Instant) :
    (a.arrivals route now ((g.targetIds route).count a.id)).untimed = a.untimed.receive route :=
  Activity.untimed_arrivals (hr.accepts a ha) (List.count_pos_iff.mpr h) (hr.enough a ha route)

/-! ## Where a branch stands -/

namespace History

variable {g : Graph} {h : History} {a x : Activity} {id : String} {route : List String}
  {now : Instant}

/-- Where the branch of an id stands. -/
def standing? (h : History) (id : String) : Option Activity := (h.headById? id).map (·.untimed)

/-- A history in which no branch stands anywhere has none. -/
theorem head_eq_nil_iff : h.head = [] ↔ ∀ id, h.standing? id = none := by
  unfold standing? headById?
  constructor
  · intro hempty id
    rw [hempty]
    rfl
  · intro hnone
    refine List.eq_nil_iff_forall_not_mem.mpr fun a ha => ?_
    exact List.find?_eq_none.mp (Option.map_eq_none_iff.mp (hnone a.id)) a ha (beq_self_eq_true _)

/-- Where branches stand after an activity is written back over a live one. -/
theorem standing?_writeBack (ha : a.id ∈ h.head.map (·.id)) (id : String) :
    (h.writeBack a).standing? id = if id = a.id then some a.untimed else h.standing? id := by
  unfold standing?
  split
  · next hid => rw [hid, headById?_writeBack_self ha, Option.map_some]
  · next hne => rw [headById?_writeBack hne]

/-- Where branches stand after an activity is logged. -/
theorem standing?_retire (h : History) (a : Activity) (id : String) :
    (h.retire a).standing? id = if id = a.id then none else h.standing? id := by
  unfold standing?
  split
  · next hid => rw [hid, headById?_retire_self, Option.map_none]
  · next hne => rw [headById?_retire hne]

section Receptive

variable (hg : g.WellFormed) (hr : g.Receptive)

include hg hr

/-- No target refuses on a route from a coherent history. -/
theorem advance_of_receptive (hc : h.Coherent g) (hx : g.Defines x) (route : List String)
    (now : Instant) :
    g.advance route (h.retire x).head now =
      ⟨(h.retire x).head.map fun a => a.arrivals route now ((g.targetIds route).count a.id),
        .ok ((g.newcomers (h.retire x).head (g.targetIds route)).map fun d =>
          (d.instantiate now).arrivals route now ((g.targetIds route).count d.id))⟩ :=
  Graph.advance_eq (hc.retire hx).unique (fun a ha _ => hr.accepts a ((hc.retire hx).live a ha))
    fun _ _ d hd => hr.accepts d (hg.defines hd)

/-- Where branches stand after an activity is logged and followed along a route. -/
theorem standing?_onward (hc : h.Coherent g) (hx : g.Defines x) (route : List String)
    (now : Instant) (id : String) :
    (h.onward g route x now).standing? id =
      g.received route id (if id = x.id then none else h.standing? id) := by
  have hcx := hc.retire hx
  rw [← standing?_retire, onward_eq_append hcx.unique (advance_of_receptive hg hr hc hx route now)]
  unfold standing? headById? Graph.received
  dsimp only
  rw [List.find?_append, List.find?_map, List.find?_map]
  simp only [Function.comp_def, Activity.id_arrivals, Activity.id_instantiate,
    Graph.find?_newcomers]
  cases hfind : (h.retire x).head.find? (·.id == id) with
  | some a =>
    -- The branch is live already.
    obtain ⟨hmem, rfl⟩ := headById?_some hfind
    simp only [Option.map_some, Option.some_or]
    split
    · next htarget => rw [hr.untimed_arrivals (hcx.live a hmem) htarget now]
    · next hnot => rw [List.count_eq_zero_of_not_mem hnot, Activity.arrivals_zero]
  | none =>
    have hnew : id ∉ (h.retire x).head.map (·.id) := by
      intro hmem
      obtain ⟨a, ha, hid⟩ := List.mem_map.mp hmem
      exact List.find?_eq_none.mp hfind a ha (beq_iff_eq.mpr hid)
    -- The branch is made anew where the route leads to a node of the process.
    simp only [Option.map_none, Option.none_or, hnew, not_false_eq_true, and_true]
    split
    · next htarget =>
      cases hd : g.activity? id with
      | none => rfl
      | some d =>
        obtain rfl := (Graph.activity?_some hd).2
        have hdefines : g.Defines (d.instantiate now) :=
          (hg.defines hd).of_blank (d.blank_instantiate now)
        have hid : (d.instantiate now).id ∈ g.targetIds route := by
          rw [Activity.id_instantiate]
          exact htarget
        have harrivals := hr.untimed_arrivals hdefines hid now
        rw [Activity.id_instantiate, Activity.receive_instantiate] at harrivals
        simp only [Option.map_some, harrivals]
    · rfl

end Receptive

end History

/-! ## Passing -/

/-- What becomes of a live activity that finishes, but for the times. -/
structure Passing where
  /-- Its id. -/
  id : String
  /-- What stays live of it before the route is followed: the activity itself while its join
  waits. -/
  stays : Option Activity
  /-- The route along which the flow goes on. -/
  route : List String
  /-- What is logged. -/
  logged : List Activity

/-- The passing of a live activity, which depends only on where it stands. -/
def Activity.passing (a : Activity) : Passing :=
  match (a.untimed.putIn .finished).routes? with
  | none => ⟨a.id, some (a.untimed.putIn .paused), [], []⟩
  | some (route, logged) => ⟨a.id, none, route, [logged]⟩

namespace Passing

/-- Where a branch stands after a passing. -/
def standing (m : Passing) (g : Graph) (id : String) (s : Option Activity) : Option Activity :=
  g.received m.route id (if id = m.id then m.stays else s)

/-- A passing leaves other branches alone to which its route does not lead. -/
theorem standing_of_notMem {m : Passing} {g : Graph} {id : String} (hne : id ≠ m.id)
    (h : id ∉ g.targetIds m.route) (s : Option Activity) : m.standing g id s = s := by
  rw [standing, if_neg hne, Graph.received, if_neg h]

/-- Two activities may pass in either order if neither leads to the other. -/
theorem standing_comm {m m' : Passing} {g : Graph} (hne : m.id ≠ m'.id)
    (h : m'.id ∉ g.targetIds m.route) (h' : m.id ∉ g.targetIds m'.route) (id : String)
    (s : Option Activity) :
    m'.standing g id (m.standing g id s) = m.standing g id (m'.standing g id s) := by
  by_cases hid : id = m.id
  · -- The branch is that of the one, and the other does not reach it.
    subst hid
    rw [standing_of_notMem hne h', standing_of_notMem hne h']
  · by_cases hid' : id = m'.id
    · subst hid'
      rw [standing_of_notMem hne.symm h, standing_of_notMem hne.symm h]
    · unfold standing
      rw [if_neg hid, if_neg hid, if_neg hid', if_neg hid']
      exact g.received_comm m.route m'.route id s

end Passing

namespace Activity

variable {a b : Activity}

@[simp]
theorem id_passing (a : Activity) : a.passing.id = a.id := by
  unfold passing
  split <;> rfl

/-- Activities that stand alike pass alike. -/
theorem passing_congr (h : a.untimed = b.untimed) : a.passing = b.passing := by
  have hid : a.id = b.id := by rw [← id_untimed a, h, id_untimed]
  unfold passing
  rw [h, hid]

/-- An activity finishes along the same route whenever it was reached. -/
theorem routes?_untimed (a : Activity) :
    a.untimed.routes? = a.routes?.map fun (route, a) => (route, a.untimed) := by
  cases hk : a.kind with
  | gateway w => simp [routes?, untimed, mapBoundary, hk, Function.comp_def]
  | task t => simp [routes?, untimed, mapBoundary, hk]
  | event v => simp [routes?, untimed, mapBoundary, hk]

/-- The passing of an activity, told from the instance that has finished. -/
theorem passing_of_finished {now : Instant} {x : Activity}
    (hx : x = (a.set .started now).set .finished now) :
    a.passing = match x.routes? with
      | none => ⟨a.id, some (x.set .paused now).untimed, [], []⟩
      | some (route, x') => ⟨a.id, none, route, [x'.untimed]⟩ := by
  have hfinished : a.untimed.putIn .finished = x.untimed := by simp [hx]
  have hpaused : a.untimed.putIn .paused = (x.set .paused now).untimed := by simp [hx]
  unfold passing
  rw [hfinished, hpaused, routes?_untimed]
  cases x.routes? <;> rfl

end Activity

/-- An activity passes along edges that its definition lists as outgoing. -/
theorem Graph.WellFormed.passing_subset {g : Graph} (hg : g.WellFormed) {a : Activity}
    (ha : g.Defines a) : a.passing.route ⊆ Document.records a.outgoing := by
  have hblank : (a.untimed.putIn .finished).blank = a.blank := by simp
  have hout : (a.untimed.putIn .finished).outgoing = a.outgoing := by
    show (a.untimed.putIn .finished).blank.outgoing = a.blank.outgoing
    rw [hblank]
  unfold Activity.passing
  split
  · exact List.nil_subset _
  · next hr =>
    rw [← hout]
    exact hg.routes_subset (ha.of_blank hblank) hr

/-- Whether a history comes from another by a passing. -/
structure History.Passes (g : Graph) (m : Passing) (h h' : History) : Prop where
  /-- Every branch stands where the passing has left it. -/
  standing : ∀ id, h'.standing? id = m.standing g id (h.standing? id)
  /-- Logged is what the passing logs. -/
  stack : ∃ logged, h'.stack = h.stack ++ logged ∧ logged.map (·.untimed) = m.logged

namespace History

section Passes

variable {g : Graph} {h : History} {a x : Activity} {now : Instant} (hc : h.Coherent g)
  (ha : a ∈ h.head) (hx : x = (a.set .started now).set .finished now)

include hc ha hx

/-- What a handler that finishes an activity writes back is an instance that is live. -/
theorem Coherent.finished : x.id = a.id ∧ g.Defines x ∧ x.id ∈ h.head.map (·.id) := by
  have hid : x.id = a.id := by rw [hx]; rfl
  have hblank : x.blank = a.blank := by rw [hx, Activity.blank_set, Activity.blank_set]
  exact ⟨hid, (hc.live a ha).of_blank hblank, hid ▸ List.mem_map_of_mem ha⟩

/-- A finished activity whose join waits passes by being paused. -/
theorem Coherent.passes_paused (hroutes : x.routes? = none) :
    h.Passes g a.passing ((h.writeBack x).writeBack (x.set .paused now)) := by
  obtain ⟨hid, -, hlive⟩ := hc.finished ha hx
  have hpassing := Activity.passing_of_finished hx
  rw [hroutes] at hpassing
  have hlive' : (x.set .paused now).id ∈ (h.writeBack x).head.map (·.id) := by
    rw [ids_writeBack]
    exact hlive
  refine ⟨fun id => ?_, [], (List.append_nil _).symm, by rw [hpassing]; rfl⟩
  rw [standing?_writeBack hlive', standing?_writeBack hlive, hpassing, Activity.id_set, hid,
    Passing.standing, Graph.received_nil]
  by_cases heq : id = a.id
  · rw [if_pos heq, if_pos heq]
  · rw [if_neg heq, if_neg heq, if_neg heq]

/-- Any other finished activity passes by being logged and followed along its route, on which no
target refuses. -/
theorem Coherent.passes_onward (hg : g.WellFormed) (hr : g.Receptive) {route : List String}
    {x' : Activity} (hroutes : x.routes? = some (route, x')) :
    (∃ head fresh, g.advance route ((h.writeBack x).retire x').head now = ⟨head, .ok fresh⟩) ∧
      h.Passes g a.passing ((h.writeBack x).onward g route x' now) := by
  obtain ⟨hid, hdefines, hlive⟩ := hc.finished ha hx
  have hpassing := Activity.passing_of_finished hx
  rw [hroutes] at hpassing
  have hblank := Activity.blank_routes hroutes
  have hid' : x'.id = a.id := (Activity.id_eq_of_blank hblank).trans hid
  have hc' : (h.writeBack x).Coherent g := hc.writeBack hdefines
  have hadvance := advance_of_receptive hg hr hc' (hdefines.of_blank hblank) route now
  refine ⟨⟨_, _, hadvance⟩, fun id => ?_, [x'], ?_, by rw [hpassing]; rfl⟩
  · rw [standing?_onward hg hr hc' (hdefines.of_blank hblank), standing?_writeBack hlive, hpassing,
      hid', hid, Passing.standing]
    by_cases heq : id = a.id
    · rw [if_pos heq, if_pos heq]
    · rw [if_neg heq, if_neg heq, if_neg heq]
  · rw [onward_eq_append (hc'.retire (hdefines.of_blank hblank)).unique hadvance]
    rfl

end Passes

end History

end Workflow
