import Workflow.Proofs.Engine.Errands

/-!
# Routes that are refused

A complex gateway cannot be reached along a route.  The refusal comes when the flow has left the
finished activity already, and nothing of that is taken back: the activity is logged and its branch
is gone, and what the route would have made anew is not made.  The branches that were live when the
handler returned stay live, all but the one that has finished, whatever the route leads to
(`History.ids_onward_refused`), and those that it does not lead to stay as they were.

So a target of a refused route is live after the call only if it was live before
(`Engine.Arises.refused_route`), and the flow does not reach the others
(`Dispute.not_forall_siblings_live`).
-/

namespace Workflow

/-- An arrival is refused by an activity that refuses. -/
theorem Activity.arrive_refused {a : Activity} (h : a.Refuses) (route : List String)
    (now : Instant) : (a.arrive route now).2 = some (.complexTraversal a.id) := by
  obtain ⟨w, hw, hcomplex⟩ := h
  unfold arrive
  have hkind : (w.arrive route).kind = .complex := hcomplex
  simp only [hw, hkind]

namespace Graph

variable {g : Graph} {route : List String} {now : Instant}

/-- Whether a node refuses every arrival. -/
def Refuses (g : Graph) (id : String) : Prop := ∃ d, g.activity? id = some d ∧ d.Refuses

/-- An instance refuses when its definition does. -/
theorem refuses_iff {a : Activity} (ha : g.Defines a) : g.Refuses a.id ↔ a.Refuses := by
  have hfound : g.activity? a.id = some a.blank := ha
  unfold Refuses
  rw [hfound]
  constructor
  · rintro ⟨d, hd, hrefuses⟩
    cases hd
    exact Activity.refuses_blank.mp hrefuses
  · exact fun h => ⟨a.blank, rfl, Activity.refuses_blank.mpr h⟩

/-- A visit to an unknown node is no arrival, and any other visit is answered as an instance of the
target answers. -/
theorem visit_answer (hg : g.WellFormed) {r : Arrivals} (hr : ∀ a ∈ r.head ++ r.fresh, g.Defines a)
    (target : String) (route : List String) (now : Instant) :
    (¬ g.Refuses target ∧ (g.visit route now r target).2 = none) ∨
      ∃ a, g.Defines a ∧ a.id = target ∧
        (g.visit route now r target).2 = (a.arrive route now).2 := by
  unfold visit
  split
  · next a ha =>
    exact .inr ⟨a, hr a (List.mem_append_left _ (List.mem_of_find?_eq_some ha)),
      by simpa using List.find?_some ha, rfl⟩
  · split
    · next a ha =>
      exact .inr ⟨a, hr a (List.mem_append_right _ (List.mem_of_find?_eq_some ha)),
        by simpa using List.find?_some ha, rfl⟩
    · split
      · next d hd =>
        exact .inr ⟨d.instantiate now, (hg.defines hd).of_blank (d.blank_instantiate now),
          (d.id_instantiate now).trans (activity?_some hd).2, rfl⟩
      · next hnone =>
        refine .inl ⟨?_, rfl⟩
        rintro ⟨d, hd, -⟩
        rw [hnone] at hd
        cases hd

/-- A visit to a target that does not refuse is not refused. -/
theorem visit_accepted (hg : g.WellFormed) {r : Arrivals}
    (hr : ∀ a ∈ r.head ++ r.fresh, g.Defines a) {target : String} (accepts : ¬ g.Refuses target)
    (route : List String) (now : Instant) : (g.visit route now r target).2 = none := by
  rcases visit_answer hg hr target route now with ⟨-, hanswer⟩ | ⟨a, ha, rfl, hanswer⟩
  · exact hanswer
  · rw [hanswer]
    exact Activity.arrive_error fun h => accepts ((refuses_iff ha).mpr h)

/-- What a visit to instances leaves are instances. -/
theorem visit_defines (hg : g.WellFormed) {r : Arrivals}
    (hr : ∀ a ∈ r.head ++ r.fresh, g.Defines a) (target : String) (route : List String)
    (now : Instant) : ∀ a ∈ (g.visit route now r target).1.head ++
      (g.visit route now r target).1.fresh, g.Defines a :=
  visit_forall (fun a ha => ha.of_blank (a.blank_arrive route now))
    (fun _ d hd => (hg.defines hd).of_blank
      ((Activity.blank_arrive _ route now).trans (d.blank_instantiate now))) r target hr

/-- Visits in turn end at the first target that refuses, whatever comes behind it. -/
theorem visitAll_refused (hg : g.WellFormed) {ahead behind : List String} {id : String}
    (accept : ∀ t ∈ ahead, ¬ g.Refuses t) (refuses : g.Refuses id) {r : Arrivals}
    (hr : ∀ a ∈ r.head ++ r.fresh, g.Defines a) :
    (g.visitAll route now (ahead ++ id :: behind) r).2 = some (.complexTraversal id) := by
  induction ahead generalizing r with
  | nil =>
    have hvisit : (g.visit route now r id).2 = some (.complexTraversal id) := by
      rcases visit_answer hg hr id route now with ⟨hnot, -⟩ | ⟨a, ha, rfl, hanswer⟩
      · exact absurd refuses hnot
      · rw [hanswer]
        exact Activity.arrive_refused ((refuses_iff ha).mp refuses) route now
    rw [List.nil_append]
    unfold visitAll
    split
    · next heq => rw [heq] at hvisit; exact hvisit
    · next heq => rw [heq] at hvisit; cases hvisit
  | cons t ahead ih =>
    obtain ⟨haccepts, hlater⟩ := List.forall_mem_cons.mp accept
    have hvisit := visit_accepted hg hr haccepts route now
    have hleft := visit_defines hg hr t route now
    rw [List.cons_append]
    unfold visitAll
    split
    · next heq => rw [heq] at hvisit; cases hvisit
    · next heq => rw [heq] at hleft; exact ih hlater hleft

/-- A route is refused by the first of its targets that refuses. -/
theorem advance_refused (hg : g.WellFormed) {ahead behind : List String} {id : String}
    (targets : g.targetIds route = ahead ++ id :: behind) (accept : ∀ t ∈ ahead, ¬ g.Refuses t)
    (refuses : g.Refuses id) {head : List Activity} (live : ∀ a ∈ head, g.Defines a)
    (now : Instant) :
    (g.advance route head now).fresh = .error (.complexTraversal id) := by
  have hvisits : (g.visitAll route now (g.targetIds route) ⟨head, []⟩).2 =
      some (.complexTraversal id) := by
    rw [targets]
    exact visitAll_refused hg accept refuses (by simpa using live)
  unfold advance
  split
  · next heq => rw [heq] at hvisits; cases hvisits
  · next heq => rw [heq] at hvisits; cases hvisits; rfl

end Graph

namespace History

variable {g : Graph} {h : History} {a : Activity} {route : List String} {now : Instant}

/-- The live ids when an activity is logged. -/
theorem ids_retire (h : History) (a : Activity) :
    (h.retire a).head.map (·.id) = (h.head.map (·.id)).filter (· != a.id) := by
  unfold retire
  rw [List.filter_map]
  rfl

/-- A refused route makes nothing live, and no other branch than that of the logged activity is
gone. -/
theorem ids_onward_refused {err : Error}
    (refused : (g.advance route (h.retire a).head now).fresh = .error err) :
    (h.onward g route a now).head.map (·.id) = (h.head.map (·.id)).filter (· != a.id) := by
  unfold onward
  simp only [refused, Graph.Advance.made]
  exact (Graph.advance_head_ids _).trans (h.ids_retire a)

end History

/-! ## Rounds whose route is refused -/

variable {σ : Type} {g : Graph} {now : Instant}

namespace Round

variable {r : Round σ} {route : List String} {a : Activity}

/-- A round leaves its activity logged and followed along its route, and it fails when the route is
refused. -/
theorem Routes.left_onward (h : r.Routes g now route a) (mayRun : r.MayRun)
    (built : r.engine.graph = some g) :
    (r.left now).engine.history =
        (r.engine.leave (r.step g now)).history.onward g route a now ∧
      ∃ value, (r.left now).reply = (g.advance route
        ((r.engine.leave (r.step g now)).history.retire a).head now).refusal?.elim (.ok value)
          .error := by
  obtain ⟨graph, hrun⟩ := mayRun
  obtain rfl : graph = g := Option.some.inj ((Engine.toRun_ok_iff.mp hrun).1.symm.trans built)
  obtain ⟨memory, value, hreturns⟩ := h.returns
  have hcomplete := (r.engine.leave (r.step graph now)).complete_of_routes graph now h.routes
  have hconclude := Engine.conclude_of_complete h.finished hcomplete
  rw [left, Engine.dispatch_eq hrun hreturns]
  simp only [Engine.ended, hconclude]
  refine ⟨?_, value, rfl⟩
  -- Whether the engine has finished does not show in the history.
  cases (graph.advance route
    ((r.engine.leave (r.step graph now)).history.retire a).head now).refusal? with
  | none => exact Engine.history_finishIfDone _ _
  | some err => rfl

/-- A round fails when its route is refused.  It leaves the activity logged and the flow as far as
the refusal. -/
theorem Routes.left_refused (h : r.Routes g now route a) (mayRun : r.MayRun)
    (built : r.engine.graph = some g) {err : Error} (refused : (g.advance route
      ((r.engine.leave (r.step g now)).history.retire a).head now).fresh = .error err) :
    (r.left now).reply = .error err ∧ (r.left now).engine.history =
      (r.engine.leave (r.step g now)).history.onward g route a now := by
  obtain ⟨hhistory, value, hreply⟩ := h.left_onward mayRun built
  rw [Graph.Advance.refusal?, refused] at hreply
  exact ⟨hreply, hhistory⟩

end Round

namespace Turn

variable {turn : Turn σ} {e : Engine σ} {payload : Json} {memory : σ} {rounds : List (Round σ)}

/-- A round that fails is the last, and the turn is what it leaves. -/
theorem Plays.failed_last (h : turn.Plays now e payload memory rounds) {r : Round σ}
    (hr : r ∈ rounds) {err : Error} (fails : (r.left now).reply = .error err) :
    rounds.getLast? = some r ∧ turn.engine = (r.left now).engine ∧ turn.reply = .error err := by
  induction h with
  | rest => cases hr
  | failed mayRun fails' engine hmemory reply =>
    obtain rfl := List.mem_singleton.mp hr
    rw [fails] at fails'
    cases fails'
    exact ⟨rfl, engine, reply⟩
  | @next first rounds value mayRun ok later ih =>
    rcases List.mem_cons.mp hr with rfl | hr
    · rw [fails] at ok
      cases ok
    · obtain ⟨hlast, hturn⟩ := ih hr
      refine ⟨?_, hturn⟩
      rw [List.getLast?_cons, hlast]
      rfl

/-- The first round starts from what the turn has started from. -/
theorem Plays.first {r : Round σ} (h : turn.Plays now e payload memory (r :: rounds)) :
    r.engine = e ∧ r.memory = memory ∧ r.invocation.payload = payload ∧ r.MayRun := by
  cases h with
  | failed mayRun => exact ⟨rfl, rfl, rfl, mayRun⟩
  | next mayRun => exact ⟨rfl, rfl, rfl, mayRun⟩

/-- The only round of a turn that calls one handler. -/
theorem Comprises.single (h : turn.Comprises now e payload memory rounds) {i : Invocation σ}
    (calls : turn.invocations = [i]) : rounds = [⟨e, memory, i⟩] := by
  have hmap := h.invocations.symm.trans calls
  obtain ⟨r, rfl, hi⟩ := List.map_eq_singleton_iff.mp hmap
  obtain ⟨engine, memory', i'⟩ := r
  obtain ⟨rfl, rfl, -, -⟩ := h.plays.first
  cases hi
  rfl

end Turn

namespace Engine

/-- A refused route destroys no branch but that of the activity that has finished.  When a handler
returns and leaves its activity finished with a route to some complex gateway, that ends the call.
The call answers a complex traversal, with the id of the first such gateway on the route.  The
activity is logged and its branch is gone; every other branch that was live when the handler
returned stays live, in the same order, and stays as it was unless the route leads there; and no
other branch becomes live, so that a target of the route is live just if it was live when the
handler returned and is not the finished activity itself. -/
theorem Arises.refused_route {e : Engine σ} (arises : e.Arises) (built : e.graph = some g)
    (errand : Errand σ) (payload : Json) (memory : σ) (o : Occasion) :
    ∃ rounds, (e.turn errand payload memory o).Comprises o.now e payload memory rounds ∧
      ∀ r ∈ rounds, ∀ route a ahead id behind, r.Routes g o.now route a →
        g.targetIds route = ahead ++ id :: behind → (∀ t ∈ ahead, ¬ g.Refuses t) → g.Refuses id →
        rounds.getLast? = some r ∧
        (e.turn errand payload memory o).reply = .error (.complexTraversal id) ∧
        (e.turn errand payload memory o).engine.history.stack =
          (r.step g o.now).history.stack ++ [a] ∧
        (e.turn errand payload memory o).engine.history.head.map (·.id) =
          ((r.step g o.now).history.head.map (·.id)).filter (· != r.activity.id) ∧
        ∀ t, t ∉ g.targetIds route → t ≠ r.activity.id →
          (e.turn errand payload memory o).engine.history.headById? t =
            (r.step g o.now).history.headById? t := by
  obtain ⟨rounds, hcomprises, -, -⟩ := turn_rounds arises.agrees errand payload memory o
  refine ⟨rounds, hcomprises, fun r hr route a ahead id behind hroutes targets accept refuses => ?_⟩
  obtain ⟨-, hrounds⟩ := frame_of_plays hcomprises.plays arises.agrees
  obtain ⟨mayRun, hagrees, hgraph, -⟩ := hrounds r hr
  have hbuilt : r.engine.graph = some g := hgraph.trans built
  obtain ⟨hg, hhistory⟩ := hagrees.built g hbuilt
  obtain ⟨graph, hrun⟩ := mayRun
  have hfound := (toRun_ok_iff.mp hrun).2.1
  obtain ⟨hdefines, hleave⟩ :=
    leave_kept (History.kept_agrees hg) hg hhistory hfound (r.reaches_step g o.now)
  -- The route is followed from instances, so the first target that refuses ends it, and the call.
  have hlogged : g.Defines a := hdefines.of_blank (Activity.blank_routes hroutes.routes)
  have hrefused := Graph.advance_refused hg targets accept refuses
    (hleave.retire hlogged).live o.now
  obtain ⟨hreply, hleft⟩ := hroutes.left_refused ⟨graph, hrun⟩ hbuilt hrefused
  obtain ⟨hlast, hengine, hanswer⟩ := hcomprises.plays.failed_last hr hreply
  rw [hengine, hleft]
  have hids : (r.engine.leave (r.step g o.now)).history.head.map (·.id) =
      (r.step g o.now).history.head.map (·.id) := History.ids_writeBack ..
  refine ⟨hlast, hanswer, rfl, ?_, fun t hnot hne => ?_⟩
  · rw [History.ids_onward_refused hrefused, hids, hroutes.id_eq]
  · have hstep : (r.step g o.now).activity.id = r.activity.id :=
      Activity.id_eq_of_blank (r.blank_step g o.now)
    rw [History.headById?_onward hnot, History.headById?_retire (hroutes.id_eq ▸ hne)]
    exact History.headById?_writeBack (hstep ▸ hne)

end Engine

/-! ## A branch that the flow does not reach -/

namespace Dispute

/-- A process with a gateway from which the flow goes on to a task and to a complex gateway, while
another branch waits. -/
def process : Builder :=
  ({ id := "dispute" } : Builder)
    |>.start "start" "Start" |>.finish "end" "End"
    |>.gateway .parallel "fork" "Fork" |>.gateway .parallel "split" "Split"
    |>.gateway .complex "mixer" "Mixer" |>.task .normal "left" "Left"
    |>.task .normal "audit" "Audit"
    |>.flow "f_start" "start" "fork" |>.flow "f_left" "fork" "left"
    |>.flow "f_split" "fork" "split" |>.flow "f_audit" "split" "audit"
    |>.flow "f_mixer" "split" "mixer" |>.flow "f_end" "left" "end"

/-- An engine for the process when it waits at the task and at the gateway. -/
def waiting : Engine Unit := .waitingFor process.build ["Left", "Split"]

/-- The compiled process. -/
def graph : Graph := waiting.compiled

/-- When the gateway is run by name, the only round goes on along both its edges. -/
theorem exists_routes {rounds : List (Round Unit)}
    (h : (waiting.turn (.run "Split") .null () ⟨.epoch, 9⟩).Comprises .epoch waiting .null ()
      rounds) :
    ∃ r a, rounds = [r] ∧ r.activity.id = "split" ∧
      (r.step graph .epoch).history.head.map (·.id) = ["left", "split"] ∧
      r.Routes graph .epoch ["f_audit", "f_mixer"] a := by
  obtain ⟨i, a, hcalls, hid, hhead, hroutes⟩ : ∃ i a,
      (waiting.turn (.run "Split") .null () ⟨.epoch, 9⟩).invocations = [i] ∧
        i.activity.id = "split" ∧
        ((⟨waiting, (), i⟩ : Round Unit).step graph .epoch).history.head.map (·.id) =
          ["left", "split"] ∧
        (⟨waiting, (), i⟩ : Round Unit).Routes graph .epoch ["f_audit", "f_mixer"] a :=
    ⟨_, _, rfl, rfl, rfl, ⟨_, _, rfl⟩, rfl, rfl⟩
  exact ⟨_, a, h.single hcalls, hid, hhead, hroutes⟩

/-- The complex gateway is the second target, and the first one that refuses. -/
theorem refuses_mixer : graph.targetIds ["f_audit", "f_mixer"] = ["audit"] ++ "mixer" :: [] ∧
    ¬ graph.Refuses "audit" ∧ graph.Refuses "mixer" := by
  refine ⟨rfl, ?_, _, rfl, _, rfl, rfl⟩
  rintro ⟨d, hd, w, hw, -⟩
  cases hd
  cases hw

/-- The branch of the task survives the refusal, and that of the gateway is gone. -/
theorem refused_route_split :
    ∃ r a rounds, (waiting.turn (.run "Split") .null () ⟨.epoch, 9⟩).Comprises .epoch waiting .null
        () rounds ∧ r ∈ rounds ∧ r.Routes graph .epoch ["f_audit", "f_mixer"] a ∧
      (waiting.turn (.run "Split") .null () ⟨.epoch, 9⟩).reply =
        .error (.complexTraversal "mixer") ∧
      (waiting.turn (.run "Split") .null () ⟨.epoch, 9⟩).engine.history.stack =
        (r.step graph .epoch).history.stack ++ [a] ∧
      (waiting.turn (.run "Split") .null () ⟨.epoch, 9⟩).engine.history.head.map (·.id) =
        ["left"] := by
  have hbuilt : waiting.graph = some graph := rfl
  obtain ⟨rounds, hcomprises, hrefused⟩ := Engine.Arises.refused_route
    (Engine.arises_waitingFor ..) hbuilt (.run "Split") .null () ⟨.epoch, 9⟩
  obtain ⟨r, a, rfl, hid, hhead, hroutes⟩ := exists_routes hcomprises
  obtain ⟨htargets, haudit, hmixer⟩ := refuses_mixer
  obtain ⟨-, hreply, hstack, hids, -⟩ := hrefused r (List.mem_singleton_self r) _ a _ _ _ hroutes
    htargets (by simpa using haudit) hmixer
  rw [hhead, hid] at hids
  exact ⟨r, a, [r], hcomprises, List.mem_singleton_self r, hroutes, hreply, hstack, hids⟩

/-- So after a refused route neither the finished activity nor every other target need be live. -/
theorem not_forall_siblings_live : ¬ ∀ (e : Engine Unit) (g : Graph) (errand : Errand Unit)
    (payload : Json) (memory : Unit) (o : Occasion), e.Arises → e.graph = some g →
    e.state = .started →
    ∃ rounds, (e.turn errand payload memory o).Comprises o.now e payload memory rounds ∧
      ∀ r ∈ rounds, ∀ route a, r.Routes g o.now route a →
        (∃ t ∈ g.targetIds route, g.Refuses t) →
        let turn := e.turn errand payload memory o
        (∃ t, turn.reply = .error (.complexTraversal t)) ∧
          (r.activity.id ∈ turn.engine.history.head.map (·.id) ∨
            ∀ t ∈ g.targetIds route, t ≠ r.activity.id → (g.activity? t).isSome = true →
              ¬ g.Refuses t → t ∈ turn.engine.history.head.map (·.id)) ∧
          ¬ (turn.engine.state = .started ∧ turn.engine.history.head = []) := by
  intro claim
  obtain ⟨rounds, hcomprises, hlive⟩ := claim waiting graph (.run "Split") .null () ⟨.epoch, 9⟩
    (Engine.arises_waitingFor ..) rfl rfl
  obtain ⟨r, a, rfl, hid, -, hroutes⟩ := exists_routes hcomprises
  obtain ⟨htargets, haudit, hmixer⟩ := refuses_mixer
  obtain ⟨-, hlive, -⟩ := hlive r (List.mem_singleton_self r) _ a hroutes
    ⟨"mixer", by rw [htargets]; simp, hmixer⟩
  -- Only the waiting task is live.
  have hids : (waiting.turn (.run "Split") .null () ⟨.epoch, 9⟩).engine.history.head.map (·.id) =
      ["left"] := rfl
  rw [hids, hid] at hlive
  rcases hlive with hlive | hlive
  · exact absurd hlive (by decide)
  · have haudited := hlive "audit" (by rw [htargets]; simp) (by decide) rfl haudit
    exact absurd haudited (by decide)

end Dispute

end Workflow
