import Workflow.Proofs.Engine.Rounds
import Workflow.Proofs.History.Standing

/-!
# Executions that commute

Where each activity waits to be run by name, an execution runs one activity and nothing else, and if
its handler only finishes the activity, the activity passes (`Engine.perform_passes`).  So two
executions of activities of which neither leads to the other may come in either order
(`Engine.Runs.executions_commute`): they leave the engine in the same state, every branch standing
alike, and the same activities logged.  Only the times and the order of the log tell which came
first.
-/

namespace Workflow

variable {σ : Type}

/-- Whether a handler does nothing but finish its activity, whatever it then answers. -/
def Handler.OnlyFinishes (handler : Handler σ) : Prop :=
  ∀ st payload memory, ∃ memory' value, (handler st payload memory).run st =
    ((memory', .ok value), { st with activity := st.activity.set .finished st.now })

/-- With what an activity is executed. -/
structure Execution (σ : Type) where
  /-- The handler that the caller brings. -/
  handler : Handler σ
  /-- The payload. -/
  payload : Json
  /-- What handlers remember. -/
  memory : σ
  /-- The circumstances of the call. -/
  occasion : Occasion

/-- Whether a call was neither refused nor ended early. -/
def Turn.Succeeds (turn : Turn σ) : Prop := ∃ value, turn.reply = .payload value

namespace Engine

variable {b : Builder} {g : Graph} {e : Engine σ} {table : HandlerTable (Handler σ)}
  {a x y : Activity} {c c' : Execution σ} {now : Instant}

/-- Executes the live activity of an id. -/
def perform (e : Engine σ) (id : String) (c : Execution σ) : Turn σ :=
  e.execute id c.handler c.payload c.memory c.occasion

/-- Whether two engines that have gone on from the same log stand alike, but for the times and the
order of what they have logged since. -/
structure AlikeSince (stack : List Activity) (e e' : Engine σ) : Prop where
  /-- They are in the same state. -/
  state : e.state = e'.state
  /-- Every branch of the one stands as in the other. -/
  branches : ∀ id, e.history.standing? id = e'.history.standing? id
  /-- They have logged the same activities. -/
  logged : ∃ l l', e.history.stack = stack ++ l ∧ e'.history.stack = stack ++ l' ∧
    (l.map (·.untimed)).Perm (l'.map (·.untimed))

/-- A live activity that has finished passes when it is completed. -/
theorem complete_passes (hg : g.WellFormed) (hr : g.Receptive) (hc : e.history.Coherent g)
    (ha : a ∈ e.history.head) (hx : x = (a.set .started now).set .finished now) :
    ∃ h, complete { e with history := e.history.writeBack x } g x now =
        ({ e with history := h }, none) ∧ e.history.Passes g a.passing h := by
  cases hroutes : x.routes? with
  | none =>
    refine ⟨_, ?_, hc.passes_paused ha hx hroutes⟩
    unfold complete
    rw [hroutes]
  | some r =>
    obtain ⟨⟨_, _, hadvance⟩, hpasses⟩ := hc.passes_onward ha hx hg hr hroutes
    refine ⟨_, ?_, hpasses⟩
    rw [complete_of_routes _ g now hroutes, hadvance]
    rfl

/-- Where each activity waits to be run by name, it is no activity's turn to go forward. -/
theorem upcoming?_eq_none (hb : b.build.compile = .ok g)
    (waits : ∀ n ∈ b.nodes, table.OnlyManual n.name) (he : e.Coherent g)
    (bound : e.handlers = some table) (settled : List String) : e.upcoming? settled = none := by
  have hmanual : ∀ a ∈ e.history.head, table.forForward a.name = none := by
    intro a ha
    obtain ⟨n, hn, hid, -⟩ := Builder.exists_node_of_activity? hb (he.history.live a ha)
    have hname : a.name = n.name :=
      congrArg Activity.name (Builder.blank_of_defines hb hn (he.history.live a ha) hid.symm)
    rw [hname]
    exact HandlerTable.forForward_eq_none_iff.mpr (waits n hn)
  unfold upcoming? nextAutomatic?
  rw [bound]
  split
  · refine List.findSome?_eq_none_iff.mpr fun a ha => ?_
    rw [hmanual a ha, Option.map_none, ite_self]
  · rfl

/-- The execution of an entered activity by a handler that only finishes it is its passing. -/
theorem perform_passes (hb : b.build.compile = .ok g) (hr : g.Receptive)
    (waits : ∀ n ∈ b.nodes, table.OnlyManual n.name) (he : e.Coherent g)
    (bound : e.handlers = some table) (started : e.state = .started) (ha : a ∈ e.history.head)
    (hentered : a.isEntered = true) (finishes : c.handler.OnlyFinishes) :
    (e.perform a.id c).Succeeds ∧ ∃ h, e.history.Passes g a.passing h ∧
      (e.perform a.id c).engine = finishIfDone { e with history := h } c.occasion.now := by
  have hg := Document.wellFormed_of_compile hb
  have hrun : e.toRun a.id = .ok (g, a) :=
    toRun_ok_iff.mpr ⟨he.graph, he.history.headById?_of_mem ha, hentered⟩
  obtain ⟨memory', value, hfinish⟩ := finishes (e.opened g a c.occasion.now) c.payload c.memory
  let x := (a.set .started c.occasion.now).set .finished c.occasion.now
  obtain ⟨h, hcomplete, hpasses⟩ := complete_passes (x := x) hg hr he.history ha rfl
  have hdispatch := dispatch_of_run hrun hfinish
    (conclude_of_complete (Activity.status_set ..) hcomplete) .given
  -- Nothing goes forward from what the dispatch leaves.
  have hcoherent := he.dispatch hg a.id .given c.handler c.payload c.memory c.occasion.now
  rw [hdispatch] at hcoherent
  have hidle := upcoming?_eq_none hb waits hcoherent
    ((handlers_finishIfDone _ _).trans bound) []
  have hturn : e.perform a.id c = ⟨finishIfDone { e with history := h } c.occasion.now, memory',
      .payload value, [⟨a, .given, c.handler, c.payload⟩]⟩ := by
    have hnot : e.isIn .finished = false := by rw [isIn, started]; rfl
    have hcheck : e.checkStarted = .ok () := by rw [checkStarted, started]
    unfold perform execute runWith
    simp only [hnot, hcheck, hdispatch, forward_of_none hidle]
    rfl
  rw [hturn]
  exact ⟨⟨value, rfl⟩, h, hpasses, rfl⟩

/-- Two executions one after the other, the first of which does not lead to the second activity, are
the passings of both activities. -/
theorem perform_perform (distinct : (b.flows.map (·.id)).Nodup)
    (plain : ∀ n ∈ b.nodes, n.group ≠ .gateway .complex)
    (waits : ∀ n ∈ b.nodes, table.OnlyManual n.name) (hb : b.build.compile = .ok g)
    (he : e.Coherent g) (bound : e.handlers = some table) (started : e.state = .started)
    (hx : x ∈ e.history.head) (hy : y ∈ e.history.head) (hne : y.id ≠ x.id)
    (hxentered : x.isEntered = true) (hyentered : y.isEntered = true)
    (apart : ∀ f ∈ b.flows, f.id ∈ Document.records x.outgoing → f.target ≠ y.id)
    (finishes : c.handler.OnlyFinishes) (finishes' : c'.handler.OnlyFinishes) :
    (e.perform x.id c).Succeeds ∧ ((e.perform x.id c).engine.perform y.id c').Succeeds ∧
      y.id ∉ g.targetIds x.passing.route ∧
      ∃ h h', e.history.Passes g x.passing h ∧ h.Passes g y.passing h' ∧
        ((e.perform x.id c).engine.perform y.id c').engine =
          finishIfDone { e with history := h' } c'.occasion.now := by
  have hg := Document.wellFormed_of_compile hb
  have hr := Builder.receptive distinct plain hb
  obtain ⟨hfirst, h, hpasses, hengine⟩ :=
    perform_passes hb hr waits he bound started hx hxentered finishes
  -- The first activity does not lead to the second, which stands as before and is live.
  have hnot : y.id ∉ g.targetIds x.passing.route := by
    intro htarget
    obtain ⟨f, hf, hedge, hid⟩ := Graph.exists_edge_of_mem_targetIds htarget
    rw [Builder.edges_of_compile hb] at hf
    exact apart f hf (hg.passing_subset (he.history.live x hx) hedge) hid
  have hstands : h.standing? y.id = some y.untimed := by
    rw [hpasses.standing, Passing.standing_of_notMem (by rwa [Activity.id_passing]) hnot,
      History.standing?, he.history.headById?_of_mem hy, Option.map_some]
  obtain ⟨y', hfound, hy'⟩ := Option.map_eq_some_iff.mp hstands
  obtain ⟨hmem, hid⟩ := History.headById?_some hfound
  have hentered : y'.isEntered = true := by
    rw [← Activity.isEntered_untimed, hy', Activity.isEntered_untimed]
    exact hyentered
  -- A branch is left, so the engine goes on.
  have hleft : (e.perform x.id c).engine = { e with history := h } := by
    have hsome : ¬ h.head.isEmpty = true := by
      rw [List.isEmpty_iff]
      exact List.ne_nil_of_mem hmem
    rw [hengine, finishIfDone, if_neg hsome]
  have hcoherent : Coherent g { e with history := h } := by
    rw [← hleft]
    exact he.after hg (.execute x.id c.handler c.payload c.memory c.occasion)
  obtain ⟨hsecond, h', hpasses', hengine'⟩ :=
    perform_passes (a := y') (c := c') hb hr waits hcoherent bound started hmem hentered finishes'
  rw [hid] at hsecond hengine'
  rw [Activity.passing_congr hy'] at hpasses'
  rw [hleft]
  exact ⟨hfirst, hsecond, hnot, h, h', hpasses, hpasses', hengine'⟩

/-- Engines from which the same two activities have passed, in either order, stand alike if neither
activity leads to the other. -/
theorem alikeSince_of_passes (hne : x.id ≠ y.id) (hx : x.id ∉ g.targetIds y.passing.route)
    (hy : y.id ∉ g.targetIds x.passing.route) {h₁ h₂ h₁' h₂' : History}
    (first : e.history.Passes g x.passing h₁) (second : h₁.Passes g y.passing h₂)
    (first' : e.history.Passes g y.passing h₁') (second' : h₁'.Passes g x.passing h₂')
    (now now' : Instant) :
    AlikeSince e.history.stack (finishIfDone { e with history := h₂ } now)
      (finishIfDone { e with history := h₂' } now') := by
  have hstanding : ∀ id, h₂.standing? id = h₂'.standing? id := by
    intro id
    rw [second.standing, first.standing, second'.standing, first'.standing]
    exact Passing.standing_comm (by simpa using hne) (by simpa using hy) (by simpa using hx) id _
  constructor
  case state =>
    have hempty : h₂.head.isEmpty = h₂'.head.isEmpty := by
      rw [Bool.eq_iff_iff, List.isEmpty_iff, List.isEmpty_iff, History.head_eq_nil_iff,
        History.head_eq_nil_iff]
      exact forall_congr' fun id => by rw [hstanding id]
    rw [state_finishIfDone_eq, state_finishIfDone_eq]
    dsimp only
    rw [hempty]
    rfl
  case branches =>
    rw [history_finishIfDone, history_finishIfDone]
    exact hstanding
  case logged =>
    rw [history_finishIfDone, history_finishIfDone]
    obtain ⟨lx, hlx, hx⟩ := first.stack
    obtain ⟨ly, hly, hy⟩ := second.stack
    obtain ⟨ly', hly', hy'⟩ := first'.stack
    obtain ⟨lx', hlx', hx'⟩ := second'.stack
    refine ⟨lx ++ ly, ly' ++ lx', ?_, ?_, ?_⟩
    · rw [hly, hlx, List.append_assoc]
    · rw [hlx', hly', List.append_assoc]
    · rw [List.map_append, List.map_append, hx, hy, hx', hy']
      exact List.perm_append_comm

/-- Two entered activities of which neither leads to the other may be executed in either order by
handlers that only finish them. -/
theorem Runs.executions_commute (distinct : (b.flows.map (·.id)).Nodup)
    (plain : ∀ n ∈ b.nodes, n.group ≠ .gateway .complex)
    (waits : ∀ n ∈ b.nodes, table.OnlyManual n.name) (runs : e.Runs b.build)
    (bound : e.handlers = some table) (started : e.state = .started)
    (hx : x ∈ e.history.head) (hy : y ∈ e.history.head) (hne : x ≠ y)
    (hxentered : x.isEntered = true) (hyentered : y.isEntered = true)
    (apart : ∀ f ∈ b.flows, f.id ∈ Document.records x.outgoing → f.target ≠ y.id)
    (apart' : ∀ f ∈ b.flows, f.id ∈ Document.records y.outgoing → f.target ≠ x.id)
    {cx cy cx' cy' : Execution σ} (hcx : cx.handler.OnlyFinishes) (hcy : cy.handler.OnlyFinishes)
    (hcx' : cx'.handler.OnlyFinishes) (hcy' : cy'.handler.OnlyFinishes) :
    (e.perform x.id cx).Succeeds ∧ ((e.perform x.id cx).engine.perform y.id cy).Succeeds ∧
      (e.perform y.id cy').Succeeds ∧ ((e.perform y.id cy').engine.perform x.id cx').Succeeds ∧
      AlikeSince e.history.stack ((e.perform x.id cx).engine.perform y.id cy).engine
        ((e.perform y.id cy').engine.perform x.id cx').engine := by
  obtain ⟨g, hb, he⟩ := runs.coherent
  have hids : x.id ≠ y.id := fun hid => hne (List.inj_on_of_nodup_map he.history.unique hx hy hid)
  obtain ⟨hfirst, hsecond, hnot, h₁, h₂, hpasses₁, hpasses₂, hengine⟩ :=
    perform_perform distinct plain waits hb he bound started hx hy hids.symm hxentered hyentered
      apart hcx hcy
  obtain ⟨hfirst', hsecond', hnot', h₁', h₂', hpasses₁', hpasses₂', hengine'⟩ :=
    perform_perform distinct plain waits hb he bound started hy hx hids hyentered hxentered apart'
      hcy' hcx'
  refine ⟨hfirst, hsecond, hfirst', hsecond', ?_⟩
  rw [hengine, hengine']
  exact alikeSince_of_passes hids hnot' hnot hpasses₁ hpasses₂ hpasses₁' hpasses₂' _ _

end Engine

/-! ## Two branches -/

/-- A handler that finishes its activity and hands the payload on. -/
def Handler.finishing : Handler Unit := fun _ payload memory =>
  .act (.edit (.setStatus .finished)) fun _ _ => .done (memory, .ok payload)

namespace Engine

/-- An execution with it. -/
def quick : Execution Unit := ⟨.finishing, .null, (), ⟨.epoch, 9⟩⟩

/-- Handlers for which each activity of the process with two branches waits to be run by name. -/
def crew : HandlerTable (Handler Unit) :=
  .waiting .default ["Start", "Fork", "Left", "Right", "Join", "End"]

/-- An engine for that process with these handlers. -/
def crewed : Engine Unit := ofProcess Builder.diamond.build crew

/-- The engine after the process has forked. -/
def forked : Engine Unit :=
  (crewed.after (.run "Start" .null () ⟨.epoch, 9⟩)).after (.run "Fork" .null () ⟨.epoch, 9⟩)

/-- Whichever branch is executed first, the process comes to its join, which is entered. -/
theorem executions_commute_forked :
    forked.history.head.map (fun a => (a.id, a.status)) =
        [("left", some .entered), ("right", some .entered)] ∧
      ((forked.perform "left" quick).engine.perform "right" quick).engine.history.head.map
        (fun a => (a.id, a.status)) = [("join", some .entered)] ∧
      AlikeSince forked.history.stack
        ((forked.perform "left" quick).engine.perform "right" quick).engine
        ((forked.perform "right" quick).engine.perform "left" quick).engine := by
  have hmade : withProcess Builder.diamond.build crew .epoch = .ok crewed :=
    withProcess_ofProcess rfl _
  have hruns : forked.Runs Builder.diamond.build := .called (.called (.made hmade) _) _
  have hnames : ∀ n ∈ Builder.diamond.nodes,
      ∃ name ∈ ["Start", "Fork", "Left", "Right", "Join", "End"], n.name = some name := by
    decide
  have hwaits : ∀ n ∈ Builder.diamond.nodes, crew.OnlyManual n.name := by
    intro n hn
    obtain ⟨name, hmem, hname⟩ := hnames n hn
    rw [hname]
    exact HandlerTable.onlyManual_waiting Handler.default hmem
  have hquick : quick.handler.OnlyFinishes := fun _ payload memory => ⟨memory, payload, rfl⟩
  obtain ⟨x, hx, hxid, hxentered, hxout⟩ : ∃ x ∈ forked.history.head, x.id = "left" ∧
      x.isEntered = true ∧ Document.records x.outgoing = ["f_left_done"] :=
    ⟨_, .head _, rfl, rfl, rfl⟩
  obtain ⟨y, hy, hyid, hyentered, hyout⟩ : ∃ y ∈ forked.history.head, y.id = "right" ∧
      y.isEntered = true ∧ Document.records y.outgoing = ["f_right_done"] :=
    ⟨_, .tail _ (.head _), rfl, rfl, rfl⟩
  have hne : x ≠ y := by
    rintro rfl
    rw [hxid] at hyid
    exact absurd hyid (by decide)
  obtain ⟨-, -, -, -, halike⟩ := Runs.executions_commute (by decide) (by decide) hwaits hruns rfl
    rfl hx hy hne hxentered hyentered (by rw [hxout, hyid]; decide) (by rw [hyout, hxid]; decide)
    hquick hquick hquick hquick
  rw [hxid, hyid] at halike
  exact ⟨rfl, rfl, halike⟩

end Engine

end Workflow
