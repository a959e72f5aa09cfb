import Workflow.Proofs.Engine.Takeover

/-!
# Where a takeover leads

A handler that takes the boundary event of its task makes every target of the event's flows live,
and then it cancels or finishes the task.  Such a target is not dropped: it is live after the call,
or it was run on the way forward and is logged behind the task (`Engine.Runs.takeover_continues`).
For a handler takes no branch away, logging the task takes away only the task's own, and going
forward takes away only branches that it logs.

The task's own branch is the exception.  While a handler works, the live activity under the task's
id is the one from before the call, and a takeover that leads back to the task puts the redirected
instance in its place.  The handler's copy then replaces that instance, and is logged and gone
(`Retry.not_forall_takeovers_continue`).
-/

namespace Workflow

namespace Program

variable {α : Type}

/-- Whether a program that runs from a step does an action and is not refused. -/
def Does (wanted : Step.Action) : Program α → Step → Prop
  | done _, _ => False
  | act action next, st =>
    match st.perform action with
    | .ok st' => action = wanted ∨ (next none st').Does wanted st'
    | .error e => (next (some e) st).Does wanted st

/-- A program that does an action does it at some step, and goes on from the step after it. -/
theorem Does.exists_step {wanted : Step.Action} {program : Program α} {first st : Step}
    (h : program.Does wanted st) (hst : Step.Reaches (fun _ => True) first st) :
    ∃ before after, Step.Reaches (fun _ => True) first before ∧
      before.perform wanted = .ok after ∧
      Step.Reaches (fun _ => True) after (program.run st).2 := by
  induction program generalizing st with
  | done a => exact h.elim
  | act action next ih =>
    unfold Does at h
    unfold run
    cases hperform : st.perform action with
    | ok st' =>
      rw [hperform] at h
      rcases h with rfl | h
      · exact ⟨st, st', hst, hperform, reaches_run (next none st').within_all .refl⟩
      · exact ih none st' h (.act hst trivial hperform)
    | error e =>
      rw [hperform] at h
      exact ih (some e) st h hst

end Program

/-- An activity made from the definition of a task with a boundary event is no gateway. -/
theorem Activity.gateway?_of_boundary {a d : Activity} {b : BoundaryEvent}
    (hblank : a.blank = d.blank) (hb : d.boundary? = some b) : a.gateway? = none := by
  have hnone : d.blank.gateway? = none := by
    unfold boundary? at hb
    rw [gateway?_blank]
    unfold gateway?
    split at hb
    · next t ht => rw [ht]; rfl
    · cases hb
  rw [← hblank, gateway?_blank] at hnone
  simpa using hnone

namespace Step

variable {g : Graph} {st st' : Step} {b : BoundaryEvent}

/-- A takeover makes the known targets of the boundary event's flows live. -/
theorem mem_ids_takeover (hst : st.graph = g) (attached : st.activity.blank.boundary? = some b)
    (taken : st.perform .takeBoundaryEvent = .ok st') {f : Flow} (hf : f ∈ g.edgesFrom b.id)
    (known : (g.activity? f.target).isSome) : f.target ∈ st'.history.head.map (·.id) := by
  -- The boundary event has its id from the definition.
  rw [Activity.boundary?_blank] at attached
  obtain ⟨b', hb', rfl⟩ := Option.map_eq_some_iff.mp attached
  obtain ⟨d, hd⟩ := Option.isSome_iff_exists.mp known
  exact History.mem_ids_of_headById? (headById?_takeover hst hb' taken hf hd)

end Step

namespace Engine

variable {σ : Type} {p : Document} {e : Engine σ} {g : Graph}

/-- A canceled or finished activity that is no gateway is logged, and every other branch stays
live. -/
theorem conclude_logs (e : Engine σ) (graph : Graph) {a : Activity} (now : Instant)
    (ended : a.status = some .canceled ∨ a.status = some .finished) (hnot : a.gateway? = none) :
    (e.conclude graph a now).1.history.stack = e.history.stack ++ [a] ∧
      ∀ id ∈ e.history.head.map (·.id), id ≠ a.id →
        id ∈ (e.conclude graph a now).1.history.head.map (·.id) := by
  rcases ended with hcanceled | hfinished
  · rw [conclude_canceled e graph now hcanceled]
    exact ⟨rfl, fun id hid hne => History.mem_ids_retire.mpr ⟨hid, hne⟩⟩
  · rw [conclude_finished e graph now hfinished, complete_history,
      Activity.routes_of_not_gateway hnot]
    exact ⟨rfl, fun id hid hne =>
      History.mem_ids_onward (History.mem_ids_retire.mpr ⟨hid, hne⟩) graph _ now⟩

/-- A call that answers a payload on a started engine has run its activity and has then gone
forward. -/
theorem execute_payload (started : e.state = .started) {id : String} {handler : Handler σ}
    {payload value : Json} {memory : σ} {o : Occasion}
    (answered : (e.execute id handler payload memory o).reply = .payload value) :
    ∃ value', (e.dispatch id .given handler payload memory o.now).reply = .ok value' ∧
      (e.execute id handler payload memory o).engine =
        (forward o.now o.limit [] (e.dispatch id .given handler payload memory o.now).engine value'
          (e.dispatch id .given handler payload memory o.now).memory).engine := by
  have hnot : ¬ e.isIn .finished = true := by rw [isIn, started]; decide
  unfold execute runWith at answered ⊢
  rw [if_neg hnot, checkStarted, started] at answered ⊢
  dsimp only at answered ⊢
  split at answered
  · cases answered
  · next value' hok => exact ⟨value', hok, rfl⟩

/-- A takeover by a handler leaves the known targets of the boundary event's flows live when the
handler returns. -/
theorem Coherent.mem_ids_leave (hg : g.WellFormed) (he : e.Coherent g) {found : Activity}
    {b : BoundaryEvent} (attached : found.boundary? = some b) {handler : Handler σ}
    {payload : Json} {memory : σ} {now : Instant}
    (taken : (handler (e.opened g found now) payload memory).Does .takeBoundaryEvent
      (e.opened g found now)) {f : Flow} (leaves : f ∈ g.edgesFrom b.id)
    (known : (g.activity? f.target).isSome) :
    f.target ∈ (e.leave (e.worked g found handler payload memory now)).history.head.map (·.id) := by
  obtain ⟨before, after, hbefore, htaken, hafter⟩ := taken.exists_step .refl
  obtain ⟨hgraph, -, -, hblank⟩ := hbefore.frame
  have hattached : before.activity.blank.boundary? = some b.blank := by
    have hsame : before.activity.blank = found.blank := hblank
    rw [hsame, Activity.boundary?_blank, attached]
    rfl
  have hlive : f.target ∈ after.history.head.map (·.id) :=
    Step.mem_ids_takeover hgraph hattached htaken leaves known
  have hagrees : after.history.Agrees g :=
    (hbefore.act trivial htaken).kept (History.kept_agrees hg) hg rfl he.history.agrees
  -- Whatever the handler does then, it takes no branch away.
  have hworked := hafter.mem_ids hg ((Step.perform_frame htaken).1.trans hgraph) hagrees hlive
  unfold leave
  rw [History.ids_writeBack]
  exact hworked

/-- What becomes of a target of a boundary event when the task's handler takes the event and then
cancels or finishes the task: the task is logged, and the target is live at the end of the call or
logged behind the task, unless the target is the task itself. -/
theorem Runs.takeover_continues (runs : e.Runs p) (built : e.graph = some g)
    (started : e.state = .started) {id : String} {found : Activity}
    (live : e.history.headById? id = some found) {b : BoundaryEvent}
    (attached : found.boundary? = some b) {handler : Handler σ} {payload value : Json} {memory : σ}
    {o : Occasion}
    (taken : (handler (e.opened g found o.now) payload memory).Does .takeBoundaryEvent
      (e.opened g found o.now))
    (ended : (e.worked g found handler payload memory o.now).activity.status = some .canceled ∨
      (e.worked g found handler payload memory o.now).activity.status = some .finished)
    (answered : (e.execute id handler payload memory o).reply = .payload value) {f : Flow}
    (leaves : f ∈ g.edgesFrom b.id) (known : (g.activity? f.target).isSome)
    (elsewhere : f.target ≠ id) :
    ∃ x later, (e.execute id handler payload memory o).engine.history.stack =
        e.history.stack ++ x :: later ∧ x.id = id ∧
      (f.target ∈ (e.execute id handler payload memory o).engine.history.head.map (·.id) ∨
        f.target ∈ later.map (·.id)) := by
  obtain ⟨g', hg', he⟩ := runs.coherent
  obtain rfl : g' = g := Option.some.inj (he.graph.symm.trans built)
  have hwf := Document.wellFormed_of_compile hg'
  obtain ⟨value', hok, hengine⟩ := execute_payload started answered
  obtain ⟨graph, found', hrun, hdispatch⟩ := dispatch_ok hok
  obtain ⟨hgraph, hfound, -⟩ := toRun_ok_iff.mp hrun
  obtain rfl : g' = graph := Option.some.inj (built.symm.trans hgraph)
  obtain rfl : found = found' := Option.some.inj (live.symm.trans hfound)
  -- The target is live and the stack is as it was when the handler returns.
  have hleft := he.mem_ids_leave hwf attached taken leaves known
  obtain ⟨-, -, hkept, hblank⟩ :=
    (e.reaches_worked g' found handler.within_all payload memory o.now).frame
  generalize e.worked g' found handler payload memory o.now = st at *
  have hid : st.activity.id = id :=
    (Activity.id_eq_of_blank hblank).trans (History.headById?_some live).2
  have hnot : st.activity.gateway? = none := Activity.gateway?_of_boundary hblank attached
  -- The task is logged, and the target stays live.
  obtain ⟨hstack, hothers⟩ := conclude_logs (e.leave st) g' o.now ended hnot
  have htarget := hothers f.target hleft (by rw [hid]; exact elsewhere)
  rw [← hdispatch] at hstack htarget
  -- Going forward takes the target only if it logs it.
  obtain ⟨hbuilt, hagrees⟩ := dispatch_kept (History.kept_agrees hwf) hwf built he.history.agrees
    id .given handler payload memory o.now
  obtain ⟨-, later, hlater, hgoes⟩ := forward_kept (History.kept_continues hwf _) hwf hbuilt
    ⟨hagrees, .refl _⟩ o.now o.limit [] value'
    (e.dispatch id .given handler payload memory o.now).memory
  refine ⟨st.activity, later, ?_, hid, ?_⟩
  · rw [hengine, hlater, hstack]
    show (st.history.stack ++ [st.activity]) ++ later = _
    rw [hkept, List.append_assoc]
    rfl
  · rw [hengine]
    exact hgoes f.target htarget

end Engine

/-! ## A join that a takeover leads to -/

/-- A handler that takes the boundary event of its task and cancels the task. -/
def Handler.takesOver : Handler Unit := fun _ payload memory =>
  .act .takeBoundaryEvent fun _ _ =>
    .act (.edit (.setStatus .canceled)) fun _ _ => .done (memory, .ok payload)

/-- It takes the boundary event where that is not refused. -/
theorem Handler.does_takesOver {st st' : Step} (taken : st.takeBoundaryEvent = .ok st')
    (payload : Json) : (Handler.takesOver st payload ()).Does .takeBoundaryEvent st := by
  have hdone : st.perform .takeBoundaryEvent = .ok st' := taken
  unfold takesOver Program.Does
  rw [hdone]
  exact .inl rfl

namespace Escalation

/-- The flow from the boundary event to the join. -/
def escalates : Flow := ⟨"f_esc", "escalate", "sync"⟩

/-- The join is live after the takeover, or logged behind the task. -/
theorem takeover_continues_sync :
    ∃ x later, (audited.execute "work" .takesOver .null () ⟨.epoch, 9⟩).engine.history.stack =
        audited.history.stack ++ x :: later ∧ x.id = "work" ∧
      (escalates.target ∈
          (audited.execute "work" .takesOver .null () ⟨.epoch, 9⟩).engine.history.head.map (·.id) ∨
        escalates.target ∈ later.map (·.id)) := by
  have htaken : opened.takeBoundaryEvent = .ok taken := rfl
  have hanswered : (audited.execute "work" .takesOver .null () ⟨.epoch, 9⟩).reply =
      .payload .null := rfl
  have hleaves : escalates ∈ graph.edgesFrom "escalate" := by decide
  exact Engine.Runs.takeover_continues runs_audited rfl rfl work_live rfl
    (Handler.does_takesOver htaken .null) (.inl rfl) hanswered hleaves (by decide) (by decide)

end Escalation

/-! ## A task that its own takeover leads back to -/

namespace Retry

/-- A process in which the boundary event of a task leads back to the task. -/
def process : Builder :=
  ({ id := "retry" } : Builder)
    |>.start "start" "Start" |>.finish "end" "End" |>.task .normal "work" "Work"
    |>.boundary "again" "work" none
    |>.flow "f_start" "start" "work" |>.flow "f_again" "again" "work"
    |>.flow "f_end" "work" "end"

/-- An engine for the process whose task waits to be run. -/
def engine : Engine Unit := .waitingFor process.build ["Work"]

/-- The compiled process. -/
def graph : Graph := engine.compiled

/-- The live task. -/
def work : Activity := engine.live "work"

/-- The boundary event of the task. -/
def again : BoundaryEvent := work.boundary?.getD (.define "" "" "" none)

/-- The step after the boundary event has been taken. -/
def taken : Step :=
  (engine.opened graph work .epoch).takeBoundaryEvent.toOption.getD
    (engine.opened graph work .epoch)

/-- A target of a boundary event does not always go on: here the task is to be run again, and it is
lost. -/
theorem not_forall_takeovers_continue : ¬ ∀ (b : Builder) (e : Engine Unit) (g : Graph)
    (id : String) (found : Activity) (event : BoundaryEvent) (handler : Handler Unit)
    (payload value : Json) (o : Occasion) (f : Flow), e.Runs b.build → e.graph = some g →
    e.state = .started → e.history.headById? id = some found → found.boundary? = some event →
    (handler (e.opened g found o.now) payload ()).Does .takeBoundaryEvent
      (e.opened g found o.now) →
    (e.worked g found handler payload () o.now).activity.status = some .canceled →
    (e.execute id handler payload () o).reply = .payload value → f ∈ g.edgesFrom event.id →
    (g.activity? f.target).isSome →
    ∃ x later, (e.execute id handler payload () o).engine.history.stack =
        e.history.stack ++ x :: later ∧ x.id = id ∧
      (f.target ∈ (e.execute id handler payload () o).engine.history.head.map (·.id) ∨
        f.target ∈ later.map (·.id)) := by
  intro claim
  have hruns : engine.Runs process.build := Engine.runs_waitingFor rfl _
  have htaken : (engine.opened graph work .epoch).takeBoundaryEvent = .ok taken := rfl
  obtain ⟨x, later, hstack, -, hgoes⟩ := claim process engine graph "work" work again .takesOver
    .null .null ⟨.epoch, 9⟩ ⟨"f_again", "again", "work"⟩ hruns rfl rfl rfl rfl
    (Handler.does_takesOver htaken .null) rfl rfl (by decide) (by decide)
  -- Only the task itself has been logged, and nothing is live.
  have hhead : (engine.execute "work" .takesOver .null () ⟨.epoch, 9⟩).engine.history.head = [] :=
    rfl
  have hlength : (engine.history.stack ++ x :: later).length = engine.history.stack.length + 1 :=
    congrArg List.length hstack.symm
  have hlater : later = [] := by
    rw [List.length_append, List.length_cons] at hlength
    exact List.length_eq_zero_iff.mp (by omega)
  rw [hhead, hlater] at hgoes
  simp at hgoes

end Retry

end Workflow
