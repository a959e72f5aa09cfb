import Workflow.Proofs.Engine.Errands

/-!
# What waits after a call

Going forward is to leave nothing undone: an activity that is entered when a call has answered was
left alone because it has a manual handler only, or its own handler has entered it again.  That a
handler has done so is told from the live activities after the dispatch.  So there is a third case,
an activity that has finished and whose route leads straight back to it
(`Engine.Arises.nothing_undone`).  It is entered anew and looks as if its handler had entered it
again, so it is left waiting (`Rework.not_forall_nothing_undone`).
-/

namespace Workflow

variable {σ : Type}

namespace Engine

variable {e : Engine σ} {g : Graph} {now : Instant}

/-- An activity that is entered after its own dispatch was left entered by its handler, or it has
finished and the flow went on to it. -/
theorem awake_conclude (hg : g.WellFormed) (hagrees : e.history.Agrees g) {id : String}
    {found : Activity} (hrun : e.toRun id = .ok (g, found)) (handler : Handler σ) (payload : Json)
    (memory : σ) {st : Step} (hst : st = e.worked g found handler payload memory now)
    (awake : ((e.leave st).conclude g st.activity now).1.history.Awake id) :
    st.activity.isEntered = true ∨ st.activity.status = some .finished ∧
      ∃ route a, st.activity.routes? = some (route, a) ∧ id ∈ g.targetIds route := by
  obtain ⟨-, hfound, -⟩ := toRun_ok_iff.mp hrun
  obtain ⟨hmem, rfl⟩ := History.headById?_some hfound
  have hreach := e.reaches_worked g found handler.within_all payload memory now
  rw [← hst] at hreach
  have hid : st.activity.id = found.id :=
    Activity.id_eq_of_blank (hreach.frame.2.2.2.trans (found.blank_set .started now))
  have hlive : st.activity.id ∈ st.history.head.map (·.id) :=
    hid ▸ hreach.mem_ids hg rfl hagrees (List.mem_map_of_mem hmem)
  rw [← hid] at awake ⊢
  obtain ⟨a, ha, hentered⟩ := awake
  rcases conclude_history (e.leave st) g st.activity now with
    h | ⟨-, h⟩ | ⟨-, -, h⟩ | ⟨route, a', hfinished, hr, h⟩
  · -- The activity stays as the handler has left it.
    have hleft : (e.leave st).history.headById? st.activity.id = some st.activity :=
      History.headById?_writeBack_self hlive
    rw [h, hleft] at ha
    cases ha
    exact .inl hentered
  · rw [h, History.headById?_retire_self] at ha
    cases ha
  · -- A paused activity is not entered.
    have hpaused : ((e.leave st).history.writeBack (st.activity.set .paused now)).headById?
        st.activity.id = some (st.activity.set .paused now) := by
      refine History.headById?_writeBack_self (a := st.activity.set .paused now) ?_
      show st.activity.id ∈ (st.history.writeBack st.activity).head.map (·.id)
      rw [History.ids_writeBack]
      exact hlive
    rw [h, hpaused] at ha
    cases ha
    simp [Activity.isEntered, Activity.isIn] at hentered
  · -- What was logged is live again only where the route leads back to it.
    refine .inr ⟨hfinished, route, a', hr, ?_⟩
    by_contra hnot
    have hsame : a'.id = st.activity.id := Activity.id_eq_of_blank (Activity.blank_routes hr)
    rw [h, History.headById?_onward hnot, ← hsame, History.headById?_retire_self] at ha
    cases ha

/-- What is settled by rounds that have not failed was left entered by its handler in one of them,
or it has finished there and its route, which is along edges of its own, leads back to it. -/
theorem entered_of_settled {payload : Json} {memory : σ} {turn : Turn σ} {rounds : List (Round σ)}
    (plays : turn.Plays now e payload memory rounds) (he : e.Agrees) (built : e.graph = some g)
    {value : Json} (reply : turn.reply = .payload value) {a : Activity}
    (ha : a ∈ turn.engine.history.head) (settled : Round.Settled now rounds a.id) :
    ∃ r ∈ rounds, r.activity.id = a.id ∧ ((r.step g now).activity.isEntered = true ∨
      ∃ route x, r.Routes g now route x ∧ route ⊆ Document.records a.outgoing ∧
        a.id ∈ g.targetIds route) := by
  obtain ⟨⟨hagrees, hgraph, -⟩, hrounds⟩ := frame_of_plays plays he
  obtain ⟨r, hr, hid, hawake⟩ := settled
  obtain ⟨⟨graph, hrun⟩, hragrees, hrgraph, -⟩ := hrounds r hr
  obtain rfl : graph = g :=
    Option.some.inj ((toRun_ok_iff.mp hrun).1.symm.trans (hrgraph.trans built))
  obtain ⟨hg, hhistory⟩ := hragrees.built graph (hrgraph.trans built)
  -- The round has not failed, so its activity was concluded.
  obtain ⟨value', hok⟩ := plays.ok_of_payload reply r hr
  obtain ⟨⟨memory', hreturns⟩, hengine⟩ := Round.left_ok hrun hok
  rw [hengine, ← hid] at hawake
  refine ⟨r, hr, hid, ?_⟩
  rcases awake_conclude hg hhistory hrun r.invocation.handler r.invocation.payload r.memory rfl
    hawake with hentered | ⟨hfinished, route, x, hroutes, hroute⟩
  · exact .inl hentered
  · -- The route is along edges of the activity, which its live instance has as well.
    have hblank := r.blank_step graph now
    have hlive : graph.Defines r.activity :=
      hhistory.live _ (History.headById?_some (toRun_ok_iff.mp hrun).2.1).1
    have hsame : (r.step graph now).activity.blank = a.blank :=
      hblank.trans (hlive.blank_eq ((hagrees.built graph (hgraph.trans built)).2.live a ha) hid)
    have houtgoing : (r.step graph now).activity.outgoing = a.outgoing := by
      show (r.step graph now).activity.blank.outgoing = a.blank.outgoing
      rw [hsame]
    refine .inr ⟨route, x, ⟨⟨memory', value', hreturns⟩, hfinished, hroutes⟩, ?_, hid ▸ hroute⟩
    rw [← houtgoing]
    exact hg.routes_subset (hlive.of_blank hblank) hroutes

/-- Going forward leaves nothing undone, but for one case.  After a call that answers a payload and
leaves the engine started, every live activity that is entered has a manual handler only, or it was
run in the call and its own handler has left it entered; or it was run and has finished, and its
route, which is along edges of its own, leads straight back to it. -/
theorem Arises.nothing_undone (arises : e.Arises) (built : e.graph = some g)
    {table : HandlerTable (Handler σ)} (bound : e.handlers = some table) (errand : Errand σ)
    (payload : Json) (memory : σ) (o : Occasion) {value : Json}
    (reply : (e.turn errand payload memory o).reply = .payload value)
    (started : (e.turn errand payload memory o).engine.state = .started) :
    ∃ rounds, (e.turn errand payload memory o).Comprises o.now e payload memory rounds ∧
      ∀ a ∈ (e.turn errand payload memory o).engine.history.head, a.isEntered = true →
        table.OnlyManual a.name ∨
          ∃ r ∈ rounds, r.activity.id = a.id ∧ ((r.step g o.now).activity.isEntered = true ∨
            ∃ route x, r.Routes g o.now route x ∧ route ⊆ Document.records a.outgoing ∧
              a.id ∈ g.targetIds route) := by
  obtain ⟨rounds, hcomprises, -, hexhausts⟩ := turn_rounds arises.agrees errand payload memory o
  refine ⟨rounds, hcomprises, fun a ha hentered => ?_⟩
  have hbound : (e.turn errand payload memory o).engine.handlers ≠ none := by
    rw [(frame_of_plays hcomprises.plays arises.agrees).1.2.2, bound]
    exact Option.some_ne_none table
  have htable : e.table = table := by
    unfold Engine.table
    rw [bound]
    rfl
  rw [htable] at hexhausts
  have hcannot := hexhausts value reply hbound started a ha
  by_cases hmanual : table.OnlyManual a.name
  · exact .inl hmanual
  · have hsettled : Round.Settled o.now rounds a.id := by
      by_contra hnot
      exact hcannot ⟨hentered, hmanual, hnot⟩
    exact .inr (entered_of_settled hcomprises.plays arises.agrees built reply ha hsettled)

end Engine

/-! ## A task that enters itself again -/

/-- A handler that enters its activity again. -/
def Handler.lingers : Handler Unit := fun _ payload memory =>
  .act (.edit (.setStatus .entered)) fun _ _ => .done (memory, .ok payload)

namespace Lingering

/-- The handlers for a process with two branches, of which the right one waits to be run and the
left one lingers. -/
def table : HandlerTable (Handler Unit) :=
  (HandlerTable.waiting .default ["Right"]).register "Left" .automatic .lingers

/-- An engine for the process. -/
def engine : Engine Unit := .ofProcess Builder.diamond.build table

/-- The compiled process. -/
def graph : Graph := engine.compiled

/-- Both tasks are entered when the engine has gone forward, and the left one because its handler
has left it so. -/
theorem nothing_undone_left :
    let turn := engine.turn .advance .null () ⟨.epoch, 9⟩
    turn.engine.history.head.map (fun a => (a.id, a.isEntered)) =
        [("left", true), ("right", true)] ∧
      ∃ rounds, turn.Comprises .epoch engine .null () rounds ∧
        ∃ r ∈ rounds, r.activity.id = "left" ∧ (r.step graph .epoch).activity.isEntered = true := by
  intro turn
  have hbuilt : engine.graph = some graph := rfl
  have hbound : engine.handlers = some table := rfl
  have hreply : turn.reply = .payload .null := rfl
  obtain ⟨rounds, hcomprises, hwaits⟩ := Engine.Arises.nothing_undone
    (Engine.arises_ofProcess ..) hbuilt hbound .advance .null () ⟨.epoch, 9⟩ hreply rfl
  obtain ⟨left, hleft, hid, hname, hentered, houtgoing⟩ : ∃ left ∈ turn.engine.history.head,
      left.id = "left" ∧ left.name = some "Left" ∧ left.isEntered = true ∧
        Document.records left.outgoing = ["f_left_done"] :=
    ⟨_, List.mem_of_getElem? (rfl : turn.engine.history.head[0]? = some _), rfl, rfl, rfl, rfl⟩
  refine ⟨rfl, rounds, hcomprises, ?_⟩
  rcases hwaits left hleft hentered with
    ⟨n, handler, hn, -, hauto⟩ | ⟨r, hr, hrid, hrun | ⟨route, x, -, hroute, hback⟩⟩
  · -- The left task has an automatic handler.
    rw [hname] at hn
    cases hn
    cases hauto
  · exact ⟨r, hr, hrid.trans hid, hrun⟩
  · -- No edge leads from the left task back to it.
    rw [houtgoing] at hroute
    have htargets : left.id ∈ graph.targetIds ["f_left_done"] :=
      Graph.targetIds_subset hroute hback
    rw [hid] at htargets
    exact absurd htargets (by decide)

end Lingering

/-! ## A task that the flow leads back to -/

/-- A handler that finishes its activity at first and pauses it from then on. -/
def Handler.reworks : Handler Bool := fun _ payload again =>
  .act (.edit (.setStatus (if again then .paused else .finished))) fun _ _ =>
    .done (true, .ok payload)

namespace Rework

/-- A process in which an edge leads from a task back to it. -/
def process : Builder :=
  ({ id := "rework" } : Builder)
    |>.start "start" "Start" |>.finish "end" "End" |>.task .normal "work" "Work"
    |>.flow "f_start" "start" "work" |>.flow "f_again" "work" "work" |>.flow "f_end" "work" "end"

/-- The handlers for the process, which run the task unattended. -/
def table : HandlerTable (Handler Bool) := HandlerTable.register {} "Work" .automatic .reworks

/-- An engine for the process. -/
def engine : Engine Bool := .ofProcess process.build table

/-- The compiled process. -/
def graph : Graph := engine.compiled

/-- The handler of the task never leaves it entered. -/
theorem not_entered_of_reworks {r : Round Bool} (h : r.invocation.handler = .reworks) (g : Graph)
    (now : Instant) : ¬ (r.step g now).activity.isEntered = true := by
  have hstatus : (r.step g now).activity.status =
      some (if r.memory then .paused else .finished) := by
    unfold Round.step Engine.worked
    rw [h]
    exact Activity.status_set _ _ _
  rw [Activity.isEntered, Activity.isIn, hstatus]
  cases r.memory <;> decide

/-- Going forward does leave something undone: the task has finished once and is entered anew, but
it is not run a second time. -/
theorem not_forall_nothing_undone : ¬ ∀ (e : Engine Bool) (g : Graph)
    (table : HandlerTable (Handler Bool)) (errand : Errand Bool) (payload value : Json)
    (memory : Bool) (o : Occasion), e.Arises → e.graph = some g → e.handlers = some table →
    (e.turn errand payload memory o).reply = .payload value →
    (e.turn errand payload memory o).engine.state = .started →
    ∃ rounds, (e.turn errand payload memory o).Comprises o.now e payload memory rounds ∧
      ∀ a ∈ (e.turn errand payload memory o).engine.history.head, a.isEntered = true →
        table.OnlyManual a.name ∨
          ∃ r ∈ rounds, r.activity.id = a.id ∧ (r.step g o.now).activity.isEntered = true := by
  intro claim
  obtain ⟨rounds, hcomprises, hwaits⟩ := claim engine graph table .advance .null .null false
    ⟨.epoch, 9⟩ (Engine.arises_ofProcess ..) rfl rfl rfl rfl
  -- The task is live and entered, and its handler has been called once.
  obtain ⟨work, hwork, hid, hname, hentered⟩ :
      ∃ work ∈ (engine.turn .advance .null false ⟨.epoch, 9⟩).engine.history.head,
        work.id = "work" ∧ work.name = some "Work" ∧ work.isEntered = true :=
    ⟨_, List.mem_singleton_self _, rfl, rfl, rfl⟩
  have hcalls : (engine.turn .advance .null false ⟨.epoch, 9⟩).invocations.map
      (fun i => (i.activity.id, i.handler)) =
        [("start", .default), ("work", .reworks), ("end", .default)] := rfl
  rcases hwaits work hwork hentered with ⟨n, handler, hn, -, hauto⟩ | ⟨r, hr, hrid, hleft⟩
  · rw [hname] at hn
    cases hn
    cases hauto
  · have hcall : (r.activity.id, r.invocation.handler) ∈
        (engine.turn .advance .null false ⟨.epoch, 9⟩).invocations.map
          (fun i => (i.activity.id, i.handler)) := by
      rw [hcomprises.invocations, List.map_map]
      exact List.mem_map_of_mem hr
    rw [hcalls, hrid, hid] at hcall
    have hhandler : r.invocation.handler = .reworks := by simpa using hcall
    exact not_entered_of_reworks hhandler graph .epoch hleft

end Rework

end Workflow
