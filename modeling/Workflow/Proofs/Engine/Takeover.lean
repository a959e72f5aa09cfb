import Workflow.Proofs.Activity.Tokens
import Workflow.Proofs.Engine.Reachable
import Workflow.Proofs.History.Branches

/-!
# Takeovers and arrivals at a join

A boundary event makes each target of its flows live from what completed last or, failing that, from
the process, and puts it in the place of a live activity of the same id.  So a join that waits in
`head` for its other branches is not looked at: unless the boundary event leads elsewhere, the join
keeps an arrival only if it is along the boundary event's own edge or was there when the join last
completed (`Engine.Runs.hasTaken_takeover_iff`).  An arrival that came before the takeover is lost
otherwise, where the same two branches in the other order would have satisfied the join.
-/

namespace Workflow

namespace Step

variable {st : Step} {edge : String}

/-- A redirection takes the first token of the boundary event's edge. -/
theorem tokens_redirected (completed : Option Activity) (definition : Activity) (out : String)
    (now : Instant) : (redirected completed definition out now).tokens =
      updateFirst (·.edge == out) Token.take (completed.getD definition).tokens := by
  cases completed with
  | some c =>
    exact Activity.tokens_takeIncoming
      (f := fun g => g.refreshOutgoing.takeIncoming (·.edge == out)) (fun w => rfl)
      (c.set .entered now)
  | none =>
    rw [redirected, Activity.tokens_takeIncoming (fun w => rfl), Activity.tokens_instantiate]
    rfl

/-- After a redirection an edge has a taken token if it is the boundary event's, or had one when the
activity completed last. -/
theorem hasTaken_redirected {completed : Option Activity} {definition : Activity} {out : String}
    {now : Instant} (hblank : definition.blank = definition)
    (hedge : edge ∈ (completed.getD definition).tokens.map Token.edge) :
    (redirected completed definition out now).HasTaken edge ↔
      edge = out ∨ ∃ c, completed = some c ∧ c.HasTaken edge := by
  -- The first token of the boundary event's edge is taken.
  have hfirst : ∀ a : Activity, edge ∈ a.tokens.map Token.edge →
      ((∃ t, a.tokens.find? (·.edge == out) = some t ∧ t.edge = edge) ↔ edge = out) := by
    intro a ha
    constructor
    · rintro ⟨t, ht, rfl⟩
      simpa using List.find?_some ht
    · rintro rfl
      obtain ⟨t, ht, hte⟩ := List.mem_map.mp ha
      cases hf : a.tokens.find? (·.edge == edge) with
      | none => exact absurd hte (by simpa using List.find?_eq_none.mp hf t ht)
      | some t' => exact ⟨t', rfl, by simpa using List.find?_some hf⟩
  rw [Activity.hasTaken_of_updateFirst (tokens_redirected completed definition out now),
    hfirst _ hedge]
  cases completed with
  | some c => simp [or_comm]
  | none => simp [Activity.not_hasTaken_of_blank hblank edge]

/-- Flows of which one leads to an activity make it live, from what completed last or else from the
process. -/
theorem headById?_foldl_redirectAlong_of_mem {d : Activity} (hd : st.graph.activity? d.id = some d)
    {flows : List Flow} (hf : ∃ f ∈ flows, f.target = d.id) (h : History) :
    (flows.foldl (st.redirectAlong edge) h).headById? d.id =
      some (redirected (h.lastCompleted? d.id) d edge st.now) := by
  induction flows generalizing h with
  | nil => obtain ⟨f, hf, -⟩ := hf; cases hf
  | cons f flows ih =>
    rw [List.foldl_cons]
    by_cases hlater : ∃ f' ∈ flows, f'.target = d.id
    · -- A later flow does the same again, as the stack is as before.
      have hlast : (st.redirectAlong edge h f).lastCompleted? d.id = h.lastCompleted? d.id := by
        unfold History.lastCompleted?
        rw [stack_redirectAlong]
      rw [ih hlater, hlast]
    · obtain ⟨f', hf', htarget⟩ := hf
      have hfirst : f.target = d.id := by
        rcases List.mem_cons.mp hf' with rfl | hf'
        · exact htarget
        · exact absurd ⟨f', hf', htarget⟩ hlater
      have hother : ∀ f' ∈ flows, f'.target ≠ d.id :=
        fun f' hf' htarget => hlater ⟨f', hf', htarget⟩
      have hpushed : (st.redirectAlong edge h f).headById? d.id =
          some (redirected (h.lastCompleted? d.id) d edge st.now) := by
        have hself := History.headById?_pushHead_self h
          (redirected (h.lastCompleted? d.id) d edge st.now)
        rw [id_redirected] at hself
        unfold redirectAlong
        rw [hfirst, hd]
        exact hself
      rw [headById?_foldl_redirectAlong hother, hpushed]

/-- A boundary event can always be taken, and this is what it does. -/
theorem takeBoundaryEvent_eq {b : BoundaryEvent} (attached : st.activity.boundary? = some b) :
    st.takeBoundaryEvent = .ok { st with
      history := (st.graph.edgesFrom b.id).foldl (st.redirectAlong b.outgoing) st.history
      activity := st.activity.mapBoundary (·.set .finished st.now) } := by
  unfold Activity.boundary? at attached
  unfold takeBoundaryEvent
  cases hk : st.activity.kind with
  | task t =>
    rw [hk] at attached
    have hboundary : t.boundary = some b := attached
    simp only [hboundary]
  | gateway w => rw [hk] at attached; cases attached
  | event v => rw [hk] at attached; cases attached

/-- What taking a boundary event does to the history. -/
theorem history_takeBoundaryEvent {st' : Step} {b : BoundaryEvent}
    (attached : st.activity.boundary? = some b) (taken : st.takeBoundaryEvent = .ok st') :
    st'.history = (st.graph.edgesFrom b.id).foldl (st.redirectAlong b.outgoing) st.history := by
  have heq := takeBoundaryEvent_eq attached
  rw [taken] at heq
  exact congrArg history (Except.ok.inj heq)

/-- A known target of a flow out of the event is live then, from what completed last or else from
the process. -/
theorem headById?_takeover {g : Graph} (hst : st.graph = g) {st' : Step} {b : BoundaryEvent}
    (attached : st.activity.boundary? = some b) (taken : st.takeBoundaryEvent = .ok st') {f : Flow}
    (leaves : f ∈ g.edgesFrom b.id) {d : Activity} (defined : g.activity? f.target = some d) :
    st'.history.headById? f.target =
      some (redirected (st.history.lastCompleted? d.id) d b.outgoing st.now) := by
  have hid : d.id = f.target := (Graph.activity?_some defined).2
  have hknown : st.graph.activity? d.id = some d := by rw [hst, hid, defined]
  rw [history_takeBoundaryEvent attached taken, hst, ← hid]
  exact headById?_foldl_redirectAlong_of_mem hknown ⟨f, leaves, hid.symm⟩ st.history

/-- Instances of one definition that completed last have the edges of the definition. -/
theorem edges_lastCompleted {g : Graph} (hg : g.WellFormed) {h : History} (hc : h.Coherent g)
    {a : Activity} (ha : g.Defines a) :
    ((h.lastCompleted? a.id).getD a.blank).tokens.map Token.edge = a.tokens.map Token.edge := by
  apply Activity.edges_of_blank
  cases hl : h.lastCompleted? a.id with
  | none => exact hg.blank_activity? ha
  | some c =>
    obtain ⟨hmem, hid⟩ := History.lastCompleted?_some hl
    have hdef := hc.completed c hmem
    unfold Graph.Defines at hdef ha
    rw [hid, ha] at hdef
    exact (Option.some.inj hdef).symm

section Takeover

variable {g : Graph} {st' : Step} {b : BoundaryEvent} {join : Activity}

/-- A join to which no flow out of the boundary event leads stays as it is. -/
theorem takeover_keeps (hc : st.Coherent g) (attached : st.activity.boundary? = some b)
    (taken : st.takeBoundaryEvent = .ok st') (waiting : join ∈ st.history.head)
    (hother : ∀ f ∈ g.edgesFrom b.id, f.target ≠ join.id) : join ∈ st'.history.head := by
  have hkept : st'.history.headById? join.id = some join := by
    rw [history_takeBoundaryEvent attached taken, hc.graph, headById?_foldl_redirectAlong hother]
    exact hc.history.headById?_of_mem waiting
  exact (History.headById?_some hkept).1

/-- A join to which a flow out of the boundary event leads gives way to one with the token of the
event's edge taken and those that were taken when it completed last. -/
theorem takeover_replaces (hg : g.WellFormed) (hc : st.Coherent g)
    (attached : st.activity.boundary? = some b) (taken : st.takeBoundaryEvent = .ok st')
    (waiting : join ∈ st.history.head) (hflow : ∃ f ∈ g.edgesFrom b.id, f.target = join.id)
    (hedge : edge ∈ join.tokens.map Token.edge) :
    ∃ a ∈ st'.history.head, a.id = join.id ∧
      (a.HasTaken edge ↔
        edge = b.outgoing ∨ ∃ c, st.history.lastCompleted? join.id = some c ∧ c.HasTaken edge) := by
  have hjoin : g.Defines join := hc.history.live join waiting
  have hlive : st'.history.headById? join.id =
      some (redirected (st.history.lastCompleted? join.id) join.blank b.outgoing st.now) := by
    obtain ⟨f, hf, htarget⟩ := hflow
    have hdefined : g.activity? f.target = some join.blank := htarget ▸ hjoin
    exact htarget ▸ headById?_takeover hc.graph attached taken hf hdefined
  obtain ⟨hmem, hid⟩ := History.headById?_some hlive
  rw [← edges_lastCompleted hg hc.history hjoin] at hedge
  exact ⟨_, hmem, hid, hasTaken_redirected (hg.blank_activity? hjoin) hedge⟩

end Takeover

end Step

namespace Engine

variable {σ : Type} {p : Document} {e : Engine σ} {g : Graph}

/-- A boundary event that is taken leaves every join live, and an arrival at the join that was taken
before is still taken exactly if no flow out of the event leads to the join, or the arrival is along
the event's own edge, or it was taken when the join last completed. -/
theorem Runs.hasTaken_takeover_iff (runs : e.Runs p) (built : e.graph = some g) {id : String}
    {found : Activity} (live : e.history.headById? id = some found) {now : Instant} {st st' : Step}
    (worked : Step.Reaches (fun _ => True) (e.opened g found now) st) {b : BoundaryEvent}
    (attached : st.activity.boundary? = some b) (taken : st.takeBoundaryEvent = .ok st')
    {join : Activity} (waiting : join ∈ st.history.head) {edge : String}
    (arrived : join.HasTaken edge) :
    join.id ∈ st'.history.head.map (·.id) ∧
      ((∃ a ∈ st'.history.head, a.id = join.id ∧ a.HasTaken edge) ↔
        (∀ f ∈ g.edgesFrom b.id, f.target ≠ join.id) ∨ edge = b.outgoing ∨
          ∃ c, e.history.lastCompleted? join.id = some c ∧ c.HasTaken edge) := by
  obtain ⟨g', hg', he⟩ := runs.coherent
  obtain rfl : g' = g := Option.some.inj (he.graph.symm.trans built)
  have hwf := Document.wellFormed_of_compile hg'
  have hst : st.Coherent g' := worked.coherent hwf (he.opened live now)
  have hperformed : st.perform .takeBoundaryEvent = .ok st' := taken
  have hst' : st'.Coherent g' := Step.coherent_perform hwf hperformed hst
  -- Handlers do not reach the stack.
  have hlast : st.history.lastCompleted? join.id = e.history.lastCompleted? join.id := by
    have hstack : st.history.stack = e.history.stack := worked.frame.2.2.1
    unfold History.lastCompleted?
    rw [hstack]
  by_cases hflow : ∃ f ∈ g'.edgesFrom b.id, f.target = join.id
  · have hedge : edge ∈ join.tokens.map Token.edge := by
      obtain ⟨t, ht, -, hte⟩ := arrived
      exact List.mem_map.mpr ⟨t, ht, hte⟩
    obtain ⟨a, ha, haid, htaken⟩ :=
      Step.takeover_replaces hwf hst attached taken waiting hflow hedge
    rw [hlast] at htaken
    refine ⟨List.mem_map.mpr ⟨a, ha, haid⟩, ?_⟩
    constructor
    · rintro ⟨a', ha', haid', htaken'⟩
      -- Only one live activity has the id of the join.
      obtain rfl : a' = a :=
        List.inj_on_of_nodup_map hst'.history.unique ha' ha (haid'.trans haid.symm)
      exact .inr (htaken.mp htaken')
    · rintro (hnot | hkept)
      · obtain ⟨f, hf, htarget⟩ := hflow
        exact absurd htarget (hnot f hf)
      · exact ⟨a, ha, haid, htaken.mpr hkept⟩
  · have hother : ∀ f ∈ g'.edgesFrom b.id, f.target ≠ join.id := by
      intro f hf htarget
      exact hflow ⟨f, hf, htarget⟩
    have hkept := Step.takeover_keeps hst attached taken waiting hother
    refine ⟨List.mem_map.mpr ⟨join, hkept, rfl⟩, ?_⟩
    constructor
    · intro _
      exact .inl hother
    · intro _
      exact ⟨join, hkept, rfl, arrived⟩

end Engine

/-! ## An arrival that is lost -/

namespace Escalation

/-- A process in which a task and the boundary event of another one lead to the same join. -/
def process : Builder :=
  ({ id := "escalation" } : Builder)
    |>.start "start" "Start" |>.finish "end" "End"
    |>.gateway .parallel "fork" "Fork" |>.gateway .parallel "sync" "Sync"
    |>.task .normal "work" "Work" |>.task .normal "audit" "Audit"
    |>.boundary "escalate" "work" none
    |>.flow "f_start" "start" "fork" |>.flow "f_work" "fork" "work"
    |>.flow "f_review" "fork" "audit" |>.flow "f_esc" "escalate" "sync"
    |>.flow "f_audit" "audit" "sync" |>.flow "f_end" "sync" "end"

/-- An engine for the process, whose tasks wait to be run. -/
def engine : Engine Unit := .ofProcess process.build (.waiting .default ["Work", "Audit"])

/-- The engine after the branch of the audit has arrived at the join. -/
def audited : Engine Unit :=
  (engine.after (.advance .null () ⟨.epoch, 9⟩)).after (.run "Audit" .null () ⟨.epoch, 9⟩)

/-- The compiled process. -/
def graph : Graph := audited.compiled

/-- The live task whose boundary event leads to the join. -/
def work : Activity := audited.live "work"

/-- The join, which waits for one more arrival. -/
def sync : Activity := audited.live "sync"

/-- The step that a handler of the task is given. -/
def opened : Step := audited.opened graph work .epoch

/-- The step after the boundary event has been taken. -/
def taken : Step := opened.takeBoundaryEvent.toOption.getD opened

/-- The engine is one of the process. -/
theorem runs_audited : audited.Runs process.build := .called (.called (.made rfl) _) _

/-- The task is live. -/
theorem work_live : audited.history.headById? "work" = some work := rfl

/-- The join is live while the handler works. -/
theorem sync_mem : sync ∈ opened.history.head := by decide

/-- What the takeover leaves of the arrival from the audit. -/
theorem hasTaken_takeover_iff_sync :
    (∃ a ∈ taken.history.head, a.id = sync.id ∧ a.HasTaken "f_audit") ↔
      (∀ f ∈ graph.edgesFrom "escalate", f.target ≠ sync.id) ∨ "f_audit" = "f_esc" ∨
        ∃ c, audited.history.lastCompleted? sync.id = some c ∧ c.HasTaken "f_audit" :=
  (Engine.Runs.hasTaken_takeover_iff runs_audited rfl work_live .refl rfl rfl sync_mem
    (by decide)).2

/-- Arrivals at a join are not always kept: here the one from the audit is lost. -/
theorem not_forall_arrivals_kept : ¬ ∀ (p : Document) (e : Engine Unit) (g : Graph) (id : String)
    (found : Activity) (now : Instant) (st st' : Step), e.Runs p → e.graph = some g →
    e.history.headById? id = some found →
    Step.Reaches (fun _ => True) (e.opened g found now) st → st.takeBoundaryEvent = .ok st' →
    ∀ join ∈ st.history.head, ∀ edge, join.HasTaken edge →
      ∃ a ∈ st'.history.head, a.id = join.id ∧ a.HasTaken edge := by
  intro claim
  obtain ⟨a, ha, -, htaken⟩ := claim process.build audited graph "work" work .epoch opened taken
    runs_audited rfl work_live .refl rfl sync sync_mem "f_audit" (by decide)
  have hlost : ∀ a ∈ taken.history.head, ¬ a.HasTaken "f_audit" := by decide
  exact hlost a ha htaken

end Escalation

end Workflow
