import Workflow.Proofs.Engine.Boundary
import Workflow.Proofs.Engine.Refusal

/-!
# What arms a boundary event

A task comes to be entered in two ways: the flow goes on to it along a route, or a takeover
redirects the flow to it.  An arrival along a route enters the boundary event of the task with the
task, so that both wait together (`Activity.armed_arrive`), and nothing that happens on the rest of
the route undoes it (`History.armed_onward`).  A takeover enters the task alone and leaves its
boundary event as it stood in what the task is resumed from (`Step.armed_redirected_iff`): not live
if the task is new, and finished if its entry in the log had it taken.

So after a takeover the boundary event of the target is entered just if it was when the target was
logged last (`Engine.Arises.arms_entered`), and not always (`Rejection.not_forall_takeovers_arm`).
-/

namespace Workflow

/-! ## Arrivals -/

namespace Activity

/-- Whether an activity is entered and its boundary event, if it has one, is as well. -/
structure Armed (a : Activity) : Prop where
  /-- The activity is entered. -/
  status : a.status = some .entered
  /-- Its boundary event is entered. -/
  boundary : ∀ b, a.boundary? = some b → b.lifecycle.status = some .entered

/-- Whether an activity is a gateway shows in its blank. -/
theorem gateway?_eq_none_of_blank {a b : Activity} (h : a.blank = b.blank)
    (ha : a.gateway? = none) : b.gateway? = none := by
  have hnone : b.blank.gateway? = none := by rw [← h, gateway?_blank, ha]; rfl
  rw [gateway?_blank] at hnone
  simpa using hnone

/-- An arrival arms every activity that is no gateway. -/
theorem armed_arrive {a : Activity} (h : a.gateway? = none) (route : List String) (now : Instant) :
    (a.arrive route now).1.Armed where
  status := status_arrive h
  boundary := by
    intro b hb
    unfold arrive at hb
    unfold gateway? at h
    cases hk : a.kind with
    | task t =>
      rw [hk] at hb
      have hset : (a.mapBoundary (·.set .entered now)).boundary? = some b := hb
      rw [boundary?_mapBoundary] at hset
      obtain ⟨b', -, rfl⟩ := Option.map_eq_some_iff.mp hset
      exact Lifecycle.status_set ..
    | gateway w => rw [hk] at h; cases h
    | event v =>
      -- Only tasks have boundary events.
      rw [hk] at hb
      have hnone : a.boundary? = some b := hb
      unfold boundary? at hnone
      rw [hk] at hnone
      cases hnone

end Activity

namespace Arrivals

/-- The first of the activities with this id, live before or made anew. -/
def find? (r : Arrivals) (id : String) : Option Activity := (r.head ++ r.fresh).find? (·.id == id)

/-- Whether what is found under an id is armed, unless it is a gateway. -/
def ArmedAt (r : Arrivals) (id : String) : Prop :=
  ∀ a, r.find? id = some a → a.gateway? = none → a.Armed

end Arrivals

namespace Graph

variable {g : Graph} {route : List String} {now : Instant} {r : Arrivals} {target id : String}

/-- A visit puts the activity that is found under the target's id after its arrival, or adds the one
that is made from the definition, after its arrival as well, if none is found. -/
theorem visit_all (g : Graph) (route : List String) (now : Instant) (r : Arrivals)
    (target : String) :
    let left := (g.visit route now r target).1
    (∃ a, r.find? target = some a ∧ left.head ++ left.fresh =
        updateFirst (·.id == target) (fun _ => (a.arrive route now).1) (r.head ++ r.fresh)) ∨
      (r.find? target = none ∧ left.head ++ left.fresh = (r.head ++ r.fresh) ++
        ((g.activity? target).map fun d => ((d.instantiate now).arrive route now).1).toList) := by
  unfold visit Arrivals.find?
  rw [List.find?_append]
  cases hlive : r.head.find? (·.id == target) with
  | some a =>
    have hany : r.head.any (·.id == target) = true :=
      List.any_eq_true.mpr
        ⟨a, List.mem_of_find?_eq_some hlive, by simpa using List.find?_some hlive⟩
    refine .inl ⟨a, rfl, ?_⟩
    rw [updateFirst_append, if_pos hany]
  | none =>
    have hany : ¬ r.head.any (·.id == target) = true := by
      rw [Bool.not_eq_true, List.any_eq_false]
      exact List.find?_eq_none.mp hlive
    rw [Option.none_or]
    cases hmade : r.fresh.find? (·.id == target) with
    | some a =>
      refine .inl ⟨a, rfl, ?_⟩
      rw [updateFirst_append, if_neg hany]
    | none =>
      refine .inr ⟨rfl, ?_⟩
      cases g.activity? target <;> simp

/-- An activity that has been arrived at is armed, unless it is a gateway. -/
theorem armed_of_arrived {a x : Activity} (hx : x = (a.arrive route now).1)
    (hgateway : x.gateway? = none) : x.Armed := by
  rw [hx] at hgateway ⊢
  exact Activity.armed_arrive
    (Activity.gateway?_eq_none_of_blank (Activity.blank_arrive a route now) hgateway) route now

/-- A visit arms its target and keeps armed what was. -/
theorem armedAt_visit (h : target = id ∨ r.ArmedAt id) :
    (g.visit route now r target).1.ArmedAt id := by
  intro x hx hgateway
  rcases visit_all g route now r target with ⟨a, ha, hall⟩ | ⟨hnone, hall⟩
  · rw [Arrivals.find?, hall] at hx
    have hid : a.id = target := by simpa using List.find?_some ha
    by_cases hsame : target = id
    · subst hsame
      have hany : (r.head ++ r.fresh).any (·.id == target) = true :=
        any_id_iff.mpr (List.mem_map.mpr ⟨a, List.mem_of_find?_eq_some ha, hid⟩)
      have hself := find?_updateFirst_self hany (a := (a.arrive route now).1) (by simp [hid])
      exact armed_of_arrived (Option.some.inj (hx.symm.trans hself)) hgateway
    · rw [find?_updateFirst (fun b hb => by simpa [eq_of_beq hb] using hsame)
        (fun b _ => by simpa [hid] using hsame)] at hx
      exact h.resolve_left hsame x hx hgateway
  · rw [Arrivals.find?, hall, List.find?_append, Option.or_eq_some_iff] at hx
    rcases hx with hx | ⟨-, hx⟩
    · -- What was there before is not the target, which was not found.
      have hother : target ≠ id := by
        rintro rfl
        exact absurd (hnone.symm.trans hx) (by simp)
      exact h.resolve_left hother x hx hgateway
    · obtain ⟨d, -, hmade⟩ :=
        Option.map_eq_some_iff.mp (Option.mem_toList.mp (List.mem_of_find?_eq_some hx))
      exact armed_of_arrived hmade.symm hgateway

/-- Visits in turn arm every target that comes before all that refuse. -/
theorem armedAt_visitAll (hg : g.WellFormed) {ahead : List String}
    (accept : ∀ t ∈ ahead, ¬ g.Refuses t) (behind : List String) {id : String}
    (hr : ∀ a ∈ r.head ++ r.fresh, g.Defines a) :
    (g.visitAll route now (ahead ++ id :: behind) r).1.ArmedAt id := by
  induction ahead generalizing r with
  | nil =>
    have hvisit : (g.visit route now r id).1.ArmedAt id := armedAt_visit (.inl rfl)
    rw [List.nil_append]
    unfold visitAll
    split
    · next heq => rw [heq] at hvisit; exact hvisit
    · next heq =>
      rw [heq] at hvisit
      exact visitAll_keeps (P := (·.ArmedAt id)) behind
        (fun _ _ _ harmed => armedAt_visit (.inr harmed)) hvisit
  | cons t ahead ih =>
    obtain ⟨haccepts, hlater⟩ := List.forall_mem_cons.mp accept
    have hvisit := visit_accepted hg hr haccepts route now
    have hleft := visit_defines hg hr t route now
    rw [List.cons_append]
    unfold visitAll
    split
    · next heq => rw [heq] at hvisit; cases hvisit
    · next heq => rw [heq] at hleft; exact ih hlater hleft

/-- Visits to targets of which none refuses are not refused. -/
theorem visitAll_accepted (hg : g.WellFormed) {targets : List String}
    (accept : ∀ t ∈ targets, ¬ g.Refuses t) (hr : ∀ a ∈ r.head ++ r.fresh, g.Defines a) :
    (g.visitAll route now targets r).2 = none := by
  induction targets generalizing r with
  | nil => rfl
  | cons t targets ih =>
    obtain ⟨haccepts, hlater⟩ := List.forall_mem_cons.mp accept
    have hvisit := visit_accepted hg hr haccepts route now
    have hleft := visit_defines hg hr t route now
    unfold visitAll
    split
    · next heq => rw [heq] at hvisit; cases hvisit
    · next heq => rw [heq] at hleft; exact ih hlater hleft

/-- A route is not refused if none of its targets refuses. -/
theorem advance_accepted (hg : g.WellFormed) (accept : ∀ t ∈ g.targetIds route, ¬ g.Refuses t)
    {head : List Activity} (live : ∀ a ∈ head, g.Defines a) (now : Instant) :
    ∃ fresh, (g.advance route head now).fresh = .ok fresh := by
  have hvisits : (g.visitAll route now (g.targetIds route) ⟨head, []⟩).2 = none :=
    visitAll_accepted hg accept (by simpa using live)
  unfold advance
  split
  · exact ⟨_, rfl⟩
  · next heq => rw [heq] at hvisits; cases hvisits

end Graph

namespace History

variable {g : Graph} {h : History} {a : Activity} {route : List String} {now : Instant}

/-- When the flow has gone on along a route, every target that comes before all that refuse is
armed, unless it is a gateway. -/
theorem armed_onward (hg : g.WellFormed) (live : ∀ b ∈ (h.retire a).head, g.Defines b)
    {ahead behind : List String} {id : String} (targets : g.targetIds route = ahead ++ id :: behind)
    (accept : ∀ t ∈ ahead, ¬ g.Refuses t) {x : Activity}
    (hx : (h.onward g route a now).headById? id = some x) (hgateway : x.gateway? = none) :
    x.Armed := by
  have harmed :
      (g.visitAll route now (g.targetIds route) ⟨(h.retire a).head, []⟩).1.ArmedAt id := by
    rw [targets]
    exact Graph.armedAt_visitAll hg accept behind (by simpa using live)
  unfold onward at hx
  rw [headById?_merge_eq] at hx
  unfold Graph.advance at hx
  dsimp only at hx
  split at hx
  · next r heq =>
    rw [heq] at harmed
    exact harmed x hx hgateway
  · next r err heq =>
    -- Where a target refuses, nothing new joins.
    rw [heq] at harmed
    refine harmed x ?_ hgateway
    have hhead : r.head.find? (·.id == id) = some x := by simpa [Graph.Advance.made] using hx
    rw [Arrivals.find?, List.find?_append, hhead, Option.some_or]

end History

/-! ## Takeovers -/

namespace Step

variable {st : Step} {completed : Option Activity} {d : Activity} {edge : String} {now : Instant}

/-- What a takeover makes live is armed just if it has no boundary event or is resumed from an entry
whose boundary event is entered. -/
theorem armed_redirected_iff (hd : d.blank = d) (hblank : (completed.getD d).blank = d) :
    (redirected completed d edge now).Armed ↔ d.boundary? = none ∨
      ∃ c b, completed = some c ∧ c.boundary? = some b ∧ b.lifecycle.status = some .entered := by
  have hboundary : (redirected completed d edge now).boundary? = (completed.getD d).boundary? :=
    boundary?_redirected hd
  have hsame : (completed.getD d).boundary?.map BoundaryEvent.blank = d.boundary? := by
    rw [← Activity.boundary?_blank, hblank]
  constructor
  · intro harmed
    cases hattached : d.boundary? with
    | none => exact .inl rfl
    | some b₀ =>
      rw [hattached] at hsame
      obtain ⟨b, hb, rfl⟩ := Option.map_eq_some_iff.mp hsame
      have hentered := harmed.boundary b (hboundary.trans hb)
      cases completed with
      | some c => exact .inr ⟨c, b, rfl, hb, hentered⟩
      | none =>
        -- The boundary event of a definition is not live.
        have hdefined : d.boundary? = some b := hb
        rw [hattached] at hdefined
        have hdead : b.blank = b := Option.some.inj hdefined
        rw [← hdead] at hentered
        cases hentered
  · rintro (hnone | ⟨c, b, rfl, hb, hentered⟩)
    · refine ⟨status_redirected .., fun b hb => ?_⟩
      rw [hnone, Option.map_eq_none_iff] at hsame
      rw [hboundary, hsame] at hb
      cases hb
    · refine ⟨status_redirected .., fun b' hb' => ?_⟩
      have hfound : c.boundary? = some b' := hboundary.symm.trans hb'
      rw [hb] at hfound
      obtain rfl := Option.some.inj hfound
      exact hentered

/-- A boundary event can always be taken, and then every target that is known is live and entered.
Its own boundary event is entered just if it was when the target was logged last. -/
theorem takeover_arms_iff {g : Graph} (hg : g.WellFormed) (hst : st.graph = g)
    (agrees : st.history.Agrees g) {ev : BoundaryEvent} (attached : st.activity.boundary? = some ev)
    {f : Flow} (leaves : f ∈ g.edgesFrom ev.id) (defined : g.activity? f.target = some d) :
    ∃ st' x, st.perform .takeBoundaryEvent = .ok st' ∧
      st'.history.headById? f.target = some x ∧ d.InstanceOf x ∧ x.status = some .entered ∧
      (x.Armed ↔ d.boundary? = none ∨ ∃ c b, st.history.LoggedLast f.target c ∧
        c.boundary? = some b ∧ b.lifecycle.status = some .entered) := by
  have taken := takeBoundaryEvent_eq attached
  have hlive := headById?_takeover hst attached taken leaves defined
  have hid : d.id = f.target := (Graph.activity?_some defined).2
  have hresumes : st.history.Resumes d ((st.history.lastCompleted? d.id).getD d) :=
    History.resumes_iff.mpr rfl
  refine ⟨_, _, taken, hlive, instanceOf_redirected hg agrees defined ev.outgoing st.now,
    status_redirected .., ?_⟩
  rw [armed_redirected_iff (hg.blank_activity? defined) (hresumes.blank_eq hg agrees defined)]
  simp only [History.lastCompleted?_eq_some_iff, hid]

end Step

/-! ## Rounds -/

variable {σ : Type} {g : Graph} {now : Instant} {r : Round σ} {route : List String} {a d : Activity}

/-- A round that leads to a target along its route arms it, unless it is a gateway or comes behind a
target that refuses; and the target is live then if none of the others refuses. -/
theorem Round.Routes.arms (h : r.Routes g now route a) (mayRun : r.MayRun)
    (built : r.engine.graph = some g) (hg : g.WellFormed) (agrees : r.engine.history.Agrees g)
    {ahead behind : List String} {t : String} (targets : g.targetIds route = ahead ++ t :: behind)
    (accept : ∀ x ∈ ahead, ¬ g.Refuses x) (defined : g.activity? t = some d)
    (hgateway : d.gateway? = none) :
    ((∀ x ∈ behind, ¬ g.Refuses x) → t ∈ (r.left now).engine.history.head.map (·.id)) ∧
      ∀ x, (r.left now).engine.history.headById? t = some x → x.Armed := by
  obtain ⟨hhistory, -⟩ := h.left_onward mayRun built
  obtain ⟨graph, hrun⟩ := mayRun
  obtain rfl : graph = g := Option.some.inj ((Engine.toRun_ok_iff.mp hrun).1.symm.trans built)
  have hfound := (Engine.toRun_ok_iff.mp hrun).2.1
  -- The route is followed from instances, and what it leaves are instances.
  obtain ⟨hdefines, hleave⟩ := Engine.leave_kept (History.kept_agrees hg) hg agrees hfound
    (r.reaches_step graph now)
  have hlogged : graph.Defines a := hdefines.of_blank (Activity.blank_routes h.routes)
  have hretired := hleave.retire hlogged
  rw [hhistory]
  refine ⟨fun hbehind => ?_, fun x hx => ?_⟩
  · have hself : ¬ graph.Refuses t := by
      rintro ⟨d', hd', w, hw, -⟩
      obtain rfl : d = d' := Option.some.inj (defined.symm.trans hd')
      rw [Activity.gateway?_of_kind hw] at hgateway
      cases hgateway
    have hall : ∀ x ∈ graph.targetIds route, ¬ graph.Refuses x := by
      rw [targets, List.forall_mem_append, List.forall_mem_cons]
      exact ⟨accept, hself, hbehind⟩
    obtain ⟨fresh, hok⟩ := Graph.advance_accepted hg hall hretired.live now
    refine History.mem_ids_onward_target hok (by simp [targets]) ?_
    rw [defined]
    rfl
  · obtain ⟨hmem, hid⟩ := History.headById?_some hx
    have hinstance : graph.Defines x := (hleave.onward hg hlogged route now).live x hmem
    have hblank : d.blank = x.blank :=
      (hg.defines defined).blank_eq hinstance ((Graph.activity?_some defined).2.trans hid.symm)
    exact History.armed_onward hg hretired.live targets accept hx
      (Activity.gateway?_eq_none_of_blank hblank hgateway)

/-- What arms a boundary event.  In every round of every turn, an activity that is no gateway is
armed by an arrival: when the flow goes on along a route, each target that comes before all that
refuse is live afterwards if the route is not refused, and it is entered with its boundary event.
And whatever the handler has done before, a boundary event that is attached to its activity can be
taken, and then each target of the flows that leave the event is live and entered; but the boundary
event of the target is entered just if it was when the target was logged last. -/
theorem Engine.Arises.arms_entered {e : Engine σ} (arises : e.Arises) (built : e.graph = some g)
    (errand : Errand σ) (payload : Json) (memory : σ) (o : Occasion) :
    ∃ rounds, (e.turn errand payload memory o).Comprises o.now e payload memory rounds ∧
      ∀ r ∈ rounds,
        (∀ route a ahead t behind d, r.Routes g o.now route a →
          g.targetIds route = ahead ++ t :: behind → (∀ x ∈ ahead, ¬ g.Refuses x) →
          g.activity? t = some d → d.gateway? = none →
          ((∀ x ∈ behind, ¬ g.Refuses x) →
            t ∈ (r.left o.now).engine.history.head.map (·.id)) ∧
          ∀ x, (r.left o.now).engine.history.headById? t = some x → x.Armed) ∧
        ∀ st ev f d, Step.Reaches (fun _ => True) (r.engine.opened g r.activity o.now) st →
          st.activity.boundary? = some ev → f ∈ g.edgesFrom ev.id →
          g.activity? f.target = some d →
          ∃ st' x, st.perform .takeBoundaryEvent = .ok st' ∧
            st'.history.headById? f.target = some x ∧ d.InstanceOf x ∧
            x.status = some .entered ∧
            (x.Armed ↔ d.boundary? = none ∨ ∃ c b, st.history.LoggedLast f.target c ∧
              c.boundary? = some b ∧ b.lifecycle.status = some .entered) := by
  obtain ⟨rounds, hcomprises, -, -⟩ := turn_rounds arises.agrees errand payload memory o
  refine ⟨rounds, hcomprises, fun r hr => ?_⟩
  obtain ⟨-, hrounds⟩ := frame_of_plays hcomprises.plays arises.agrees
  obtain ⟨mayRun, hagrees, hgraph, -⟩ := hrounds r hr
  have hbuilt : r.engine.graph = some g := hgraph.trans built
  obtain ⟨hg, hhistory⟩ := hagrees.built g hbuilt
  refine ⟨fun route a ahead t behind d routes targets accept defined hgateway =>
    routes.arms mayRun hbuilt hg hhistory targets accept defined hgateway,
    fun st ev f d reached attached leaves defined => ?_⟩
  have hst : st.history.Agrees g := reached.kept (History.kept_agrees hg) hg rfl hhistory
  exact Step.takeover_arms_iff hg reached.frame.1 hst attached leaves defined

/-! ## A task that is redirected to -/

namespace Rejection

/-- A process of three tasks with boundary events: that of the first leads to the third, and that of
the second back to the first. -/
def process : Builder :=
  ({ id := "rejection" } : Builder)
    |>.start "start" "Start" |>.finish "end" "End" |>.task .normal "work" "Work"
    |>.task .normal "check" "Check" |>.task .normal "fix" "Fix"
    |>.boundary "late" "work" none |>.boundary "reject" "check" none
    |>.boundary "stuck" "fix" none |>.flow "f_start" "start" "work"
    |>.flow "f_work" "work" "check" |>.flow "f_check" "check" "end" |>.flow "f_late" "late" "fix"
    |>.flow "f_reject" "reject" "work" |>.flow "f_fix" "fix" "end" |>.flow "f_stuck" "stuck" "end"

/-- A handler that takes the boundary event of its task and finishes the task. -/
def interrupts : Handler Unit := fun _ payload memory =>
  .act .takeBoundaryEvent fun _ _ =>
    .act (.edit (.setStatus .finished)) fun _ _ => .done (memory, .ok payload)

/-- An engine for the process when it waits at the first task. -/
def waiting : Engine Unit := .waitingFor process.build ["Work", "Check", "Fix"]

/-- The turn in which the first task is interrupted and finished. -/
def interrupted : Turn Unit := waiting.turn (.execute "work" interrupts) .null () ⟨.epoch, 9⟩

/-- The compiled process. -/
def graph : Graph := waiting.compiled

/-- The first task, live. -/
def work : Activity := waiting.live "work"

/-- The flow goes on to the second task, which is armed.  The takeover makes the third task live,
whose boundary event is not. -/
theorem arms_entered_rejection :
    ∃ r, interrupted.Comprises .epoch waiting .null () [r] ∧
      (∃ x, (r.left .epoch).engine.history.headById? "check" = some x ∧
        x.boundary?.map (·.id) = some "reject" ∧ x.Armed) ∧
      ∃ st' x, (waiting.opened graph work .epoch).perform .takeBoundaryEvent = .ok st' ∧
        st'.history.headById? "fix" = some x ∧ x.boundary?.map (·.id) = some "stuck" ∧
        x.status = some .entered ∧ ¬ x.Armed := by
  have harises : waiting.Arises := Engine.arises_waitingFor ..
  have hbuilt : waiting.graph = some graph := rfl
  obtain ⟨rounds, hcomprises, harms⟩ := Engine.Arises.arms_entered harises hbuilt
    (.execute "work" interrupts) .null () ⟨.epoch, 9⟩
  have hcalls : interrupted.invocations = [⟨work, .given, interrupts, .null⟩] := rfl
  obtain rfl := hcomprises.single hcalls
  obtain ⟨hroutes, htakes⟩ := harms _ (List.mem_singleton_self _)
  refine ⟨_, hcomprises, ?_, ?_⟩
  · obtain ⟨-, harmed⟩ := hroutes ["f_work"] _ [] "check" [] _ ⟨⟨_, _, rfl⟩, rfl, rfl⟩ rfl
      (by simp) rfl rfl
    exact ⟨_, rfl, rfl, harmed _ rfl⟩
  · obtain ⟨st', x, htaken, hlive, hinstance, hentered, harmed⟩ :=
      htakes _ _ ⟨"f_late", "late", "fix"⟩ _ .refl rfl (by decide) rfl
    refine ⟨st', x, htaken, hlive, ?_, hentered, fun h => ?_⟩
    · cases htaken
      cases hlive
      rfl
    · -- The third task has a boundary event and has not been logged.
      rcases harmed.mp h with hnone | ⟨c, -, hlogged, -⟩
      · cases hnone
      · have hlast := History.lastCompleted?_eq_some_iff.mpr hlogged
        cases hlast

/-- The engine when it waits at the second task. -/
def checking : Engine Unit := waiting.after (.execute "work" interrupts .null () ⟨.epoch, 9⟩)

/-- The second task, live. -/
def check : Activity := checking.live "check"

/-- Taking the boundary event of the second task makes the first one live again, and the boundary
event of the first stays finished. -/
theorem not_forall_takeovers_arm : ¬ ∀ (b : Builder) (e : Engine Unit) (g : Graph) (id : String)
    (found : Activity) (now : Instant) (st st' : Step) (ev : BoundaryEvent) (f : Flow)
    (x : Activity) (t : Task), e.Runs b.build → e.graph = some g →
    e.history.headById? id = some found →
    Step.Reaches (fun _ => True) (e.opened g found now) st → st.activity.boundary? = some ev →
    st.perform .takeBoundaryEvent = .ok st' → f ∈ g.edgesFrom ev.id →
    st'.history.headById? f.target = some x → x.kind = .task t → x.Armed := by
  intro claim
  have hruns : checking.Runs process.build := .called (Engine.runs_waitingFor rfl _) _
  have harmed := claim process checking graph "check" check .epoch
    (checking.opened graph check .epoch) _ _ ⟨"f_reject", "reject", "work"⟩ _ _ hruns rfl rfl .refl
    rfl rfl (by decide) rfl rfl
  have hfinished := harmed.boundary _ rfl
  cases hfinished

end Rejection

end Workflow
