import Workflow.Proofs.Engine.Joins
import Workflow.Proofs.Engine.Restore
import Workflow.Proofs.History.Log

/-!
# The log of an engine

The stack of an engine is a log: a call adds entries at its end and leaves those before alone,
whether it answers a payload or an error, and an edit from outside does not touch it
(`Engine.stack_after`).  What it logs has run its course (`Engine.Runs.recorded`).  Of a finished
gateway this says that its join was asked, and as no definition of a compiled process lists its
edges as an empty list, a join that waits for every branch has waited for one at least
(`Engine.Runs.stack_logs_completed`).
-/

namespace Workflow

namespace Document

variable {p : Document} {g : Graph} {a : Activity}

/-- A gateway of a compiled process with tokens of arrival has one at least. -/
theorem tokens_ne_nil_of_compile (h : p.compile = .ok g) (ha : g.Defines a) {w : Gateway}
    (hw : a.kind = .gateway w) (some_edge : w.incoming ≠ none) : records w.incoming ≠ [] := by
  obtain ⟨r, -, -, hlists, -, rfl⟩ := compile_ok_iff.mp h
  have hrefs : a.incoming ≠ some (.many []) := (hlists a.blank (Graph.activity?_some ha).1).1
  have hmatch := ((wellFormed_of_compile h).matchRefs ha hw).1
  intro hnil
  cases hin : w.incoming with
  | none => exact some_edge hin
  | some ts =>
    rw [hin] at hmatch hnil
    cases ts with
    | one t => cases hnil
    | many ts =>
      obtain rfl : ts = [] := hnil
      -- The edges of an empty list of tokens are an empty list.
      cases hedges : a.incoming with
      | none => rw [hedges] at hmatch; cases hmatch
      | some refs =>
        rw [hedges] at hmatch
        have heq : OneOrMany.many [] = refs := eq_of_beq hmatch
        exact hrefs (heq ▸ hedges)

end Document

namespace Engine

variable {σ : Type} {p : Document} {e : Engine σ}

/-- A dispatch adds to the log, if anything, at its end. -/
theorem stack_dispatch (e : Engine σ) (id : String) (origin : Origin) (handler : Handler σ)
    (payload : Json) (memory : σ) (now : Instant) :
    e.history.stack <+: (e.dispatch id origin handler payload memory now).engine.history.stack := by
  have hsame : ∀ {log : List Activity}, log = e.history.stack → e.history.stack <+: log :=
    fun h => h ▸ List.prefix_rfl
  rcases dispatch_cases e id origin handler.within_all payload memory now with
    h | ⟨graph, found, st, -, -, -, hreach, h⟩
  · exact hsame (by rw [h])
  · have hleft : (e.leave st).history.stack = e.history.stack := hreach.frame.2.2.1
    rcases h with h | h
    · exact hsame (by rw [h, hleft])
    · rw [h]
      rcases conclude_history (e.leave st) graph st.activity now with
        h | ⟨-, h⟩ | ⟨-, -, h⟩ | ⟨route, a, -, -, h⟩
      · exact hsame (by rw [h, hleft])
      · rw [h, ← hleft]; exact List.prefix_append _ _
      · exact hsame (by rw [h]; exact hleft)
      · rw [h, ← hleft]; exact List.prefix_append _ _

/-- A call adds to the log, if anything, at its end. -/
theorem stack_after (e : Engine σ) (c : Call σ) :
    e.history.stack <+: (e.after c).history.stack := by
  let P : Engine σ → Prop := fun e' => e.history.stack <+: e'.history.stack
  have hdispatch : ∀ e' id origin handler payload memory now, P e' →
      P (e'.dispatch id origin handler payload memory now).engine :=
    fun e' id origin handler payload memory now h =>
      h.trans (stack_dispatch e' id origin handler payload memory now)
  have hset : ∀ e' s now, P e' → P (e'.set s now) := fun _ _ _ h => h
  exact after_keeps_any hdispatch hset List.prefix_rfl c

/-- A dispatch logs only what has run its course, whatever the handler does. -/
theorem recorded_dispatch (he : e.history.Recorded) (id : String) (origin : Origin)
    (handler : Handler σ) (payload : Json) (memory : σ) (now : Instant) :
    (e.dispatch id origin handler payload memory now).engine.history.Recorded := by
  rcases dispatch_cases e id origin handler.within_all payload memory now with
    h | ⟨graph, found, st, -, hfound, -, hreach, h⟩
  · rw [h]; exact he
  · -- The handler is given a started copy, and nothing that it does takes the stamp back.
    have hopened : (e.opened graph found now).Recorded :=
      ⟨he, (he.live found (History.headById?_some hfound).1).follows (.inr ⟨.started, now, rfl⟩),
        found.lifecycle.reached_set .started now⟩
    have hst : st.Recorded := hreach.recorded hopened
    have hleft : (e.leave st).history.Recorded := hst.history.writeBack hst.stamped
    rcases h with h | h
    · rw [h]; exact hleft
    · rw [h]
      rcases conclude_history (e.leave st) graph st.activity now with
        h | ⟨hs, h⟩ | ⟨-, -, h⟩ | ⟨route, a, hs, hr, h⟩
      · rw [h]; exact hleft
      · rw [h]; exact hleft.retire (hst.stamped.canceled hst.started hs)
      · rw [h]; exact hleft.writeBack (hst.stamped.follows (.inr ⟨.paused, now, rfl⟩))
      · rw [h]; exact hleft.onward (hst.stamped.finished hst.started hs hr) route now

/-- A call logs only what has run its course. -/
theorem recorded_after (he : e.history.Recorded) (c : Call σ) : (e.after c).history.Recorded :=
  after_keeps_any (P := fun e => e.history.Recorded)
    (fun _ id origin handler payload memory now h =>
      recorded_dispatch h id origin handler payload memory now)
    (fun _ _ _ h => h) he c

/-- What every engine of a process has logged has run its course. -/
theorem Runs.recorded (h : e.Runs p) : e.history.Recorded := by
  induction h with
  | made h =>
    obtain ⟨g, -, -, hhistory, -, -⟩ := withProcess_ok h
    rw [hhistory]
    exact History.recorded_start g.start _
  | called before c ih => exact recorded_after ih c
  | rebuilt before h ih =>
    obtain ⟨g, -, -, hhistory, -⟩ := build_ok h
    rw [hhistory]
    exact History.recorded_start g.start _
  | @bound σ e before handlers now ih =>
    rw [bind, (startIfReady_frame { e with handlers := some handlers } now).2.1]
    exact ih
  | editedById before h ih =>
    obtain ⟨a, b, ha, hb, rfl⟩ := editById_ok h
    exact ih.updateFirst ha (Activity.follows_edit hb)
  | editedByName before h ih =>
    obtain ⟨a, b, ha, hb, rfl⟩ := editByName_ok h
    exact ih.updateFirst ha (Activity.follows_edit hb)
  | restored before saved h ih ihsaved =>
    -- The history is that of the engine which saved it.
    obtain ⟨g, hg, he⟩ := before.coherent
    obtain ⟨g', hg', hd⟩ := saved.coherent
    obtain rfl : g = g' := Except.ok.inj (hg.symm.trans hg')
    rw [restore_of_coherent (Document.wellFormed_of_compile hg) hd.history he.graph] at h
    cases h
    exact ihsaved

/-- The stack is an append-only log of completed activities.  A call leaves the entries before it as
they are, whatever it answers, and an edit from outside leaves the stack alone.  Every entry is
finished or canceled, and it has the stamps of being entered, of being started and of its end.  A
finished exclusive gateway has a token of arrival taken, and a finished inclusive or parallel one
has tokens of arrival, all of which are taken. -/
theorem Runs.stack_logs_completed (runs : e.Runs p) :
    (∀ c, e.history.stack <+: (e.after c).history.stack) ∧
    (∀ id edit now e', e.editById id edit now = .ok e' → e'.history.stack = e.history.stack) ∧
    (∀ name edit now e', e.editByName name edit now = .ok e' →
      e'.history.stack = e.history.stack) ∧
    ∀ a ∈ e.history.stack,
      (a.status = some .finished ∨ a.status = some .canceled) ∧
      (∀ s, s = .entered ∨ s = .started ∨ a.status = some s → a.lifecycle.Reached s) ∧
      (a.status = some .finished → ∀ w, a.kind = .gateway w →
        (w.kind = .exclusive → ∃ t ∈ Document.records w.incoming, t.taken = true) ∧
        (w.kind = .inclusive ∨ w.kind = .parallel → Document.records w.incoming ≠ [] ∧
          ∀ t ∈ Document.records w.incoming, t.taken = true)) := by
  refine ⟨e.stack_after, fun id edit now e' h => ?_, fun name edit now e' h => ?_, fun a ha => ?_⟩
  · obtain ⟨a, b, -, -, rfl⟩ := editById_ok h
    rfl
  · obtain ⟨a, b, -, -, rfl⟩ := editByName_ok h
    rfl
  · have hsettled := runs.recorded.logged a ha
    refine ⟨hsettled.ended, ?_, fun hfinished w hw => ?_⟩
    · rintro s (rfl | rfl | hs)
      · exact hsettled.stamped.entered
      · exact hsettled.started
      · exact hsettled.stamped.status s hs
    · have hjoin := hsettled.joined hfinished w hw
      obtain ⟨hall, hany⟩ := Gateway.taken_of_joinSatisfied hjoin
      refine ⟨hany, fun hk => ⟨?_, hall hk.symm⟩⟩
      obtain ⟨g, hg, he⟩ := runs.coherent
      refine Document.tokens_ne_nil_of_compile hg (he.history.completed a ha) hw ?_
      have htaken : Tokens.allTaken w.incoming = true := by
        unfold Gateway.joinSatisfied at hjoin
        rcases hk with hk | hk
        · rw [hk] at hjoin; exact hjoin
        · rw [hk] at hjoin; exact hjoin
      exact (Tokens.allTaken_iff.mp htaken).1

/-- The log of the process with two branches after the branches have met: the run of the second task
has added that task, the join and the end, and the join has logged both arrivals. -/
theorem stack_logs_completed_diamond :
    let after := halfway.after (.run "Left" .null () ⟨.epoch, 9⟩)
    after.history.stack.map (·.id) = ["start", "fork", "right", "left", "join", "end"] ∧
      halfway.history.stack <+: after.history.stack ∧
      ∃ a ∈ after.history.stack, a.id = "join" ∧ a.lifecycle.Reached .finished ∧
        ∃ w, a.kind = .gateway w ∧ Document.records w.incoming ≠ [] ∧
          ∀ t ∈ Document.records w.incoming, t.taken = true := by
  intro after
  have hruns : halfway.Runs Builder.diamond.build := .called (.called (.made rfl) _) _
  have hprefix := (Runs.stack_logs_completed hruns).1 (.run "Left" .null () ⟨.epoch, 9⟩)
  have hlogged := (Runs.stack_logs_completed (.called hruns
    (.run "Left" .null () ⟨.epoch, 9⟩))).2.2.2
  obtain ⟨a, ha, hid, hfinished, w, hw, hk⟩ : ∃ a ∈ after.history.stack, a.id = "join" ∧
      a.status = some .finished ∧ ∃ w, a.kind = .gateway w ∧ w.kind = .parallel :=
    ⟨_, List.mem_of_getElem? (rfl : after.history.stack[4]? = some _), rfl, rfl, _, rfl, rfl⟩
  obtain ⟨-, hstamps, hjoin⟩ := hlogged a ha
  exact ⟨rfl, hprefix, a, ha, hid, hstamps _ (.inr (.inr hfinished)), w, hw,
    (hjoin hfinished w hw).2 (.inr hk)⟩

end Engine

end Workflow
