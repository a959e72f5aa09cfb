import Mathlib.Logic.Relation
import Workflow.Proofs.Engine.Reachable
import Workflow.Proofs.History.Branches

/-!
# When an engine has finished

An engine that is left to run by itself is started as long as a branch is live, and finished when
none is (`Engine.OnCourse`).  Each dispatch keeps it so: the activity that runs is live when its
handler returns, also when the handler failed, and every conclusion looks whether a branch is left,
with one exception.  Where the flow goes on to a complex gateway, the conclusion ends early, and an
engine without branches may be left started.  So the state tells whether a branch is live until a
call answers that error, and a finished engine stays as it is
(`Engine.Moves.finished_iff_no_branch`).
-/

namespace Workflow

/-- Whether an error says that a complex gateway cannot be reached along a route. -/
def Error.IsTraversal (err : Error) : Prop := ∃ id, err = .complexTraversal id

/-- Whether a call answers anything but such an error. -/
def Reply.NoTraversal (r : Reply) : Prop := ∀ err, err.IsTraversal → r ≠ .error err

/-- A payload is no such answer. -/
theorem Reply.noTraversal_payload {r : Reply} {value : Json} (h : r = .payload value) :
    r.NoTraversal := by
  intro err _ herr
  rw [h] at herr
  cases herr

namespace Engine

variable {σ : Type} {p : Document} {g : Graph} {e e' : Engine σ} {allowed : Reply → Prop}

/-- What an engine may become by a call with an allowed answer that runs activities, or by an edit
from outside. -/
inductive Moves (allowed : Reply → Prop) (e : Engine σ) : Engine σ → Prop where
  /-- An activity was run by name. -/
  | ran (name : String) (payload : Json) (memory : σ) (o : Occasion)
      (ok : allowed (e.run name payload memory o).reply) :
      Moves allowed e (e.run name payload memory o).engine
  /-- An activity was run with a handler that the caller brought. -/
  | executed (id : String) (handler : Handler σ) (payload : Json) (memory : σ) (o : Occasion)
      (ok : allowed (e.execute id handler payload memory o).reply) :
      Moves allowed e (e.execute id handler payload memory o).engine
  /-- The engine went forward. -/
  | advanced (payload : Json) (memory : σ) (o : Occasion)
      (ok : allowed (e.advance payload memory o).reply) :
      Moves allowed e (e.advance payload memory o).engine
  /-- A live activity of an id was edited. -/
  | editedById {e' : Engine σ} {id : String} {edit : Edit} {now : Instant}
      (h : e.editById id edit now = .ok e') : Moves allowed e e'
  /-- A live activity of a name was edited. -/
  | editedByName {e' : Engine σ} {name : String} {edit : Edit} {now : Instant}
      (h : e.editByName name edit now = .ok e') : Moves allowed e e'

/-- Whether the engine is coherent with a process, and started with a branch live or finished
without one. -/
structure OnCourse (g : Graph) (e : Engine σ) : Prop where
  /-- The engine is coherent. -/
  coherent : e.Coherent g
  /-- The state tells whether a branch is live. -/
  state : (e.state = .started ∧ e.history.head ≠ []) ∨
    (e.state = .finished ∧ e.history.head = [])

/-- A started engine is finished just when no branch is left. -/
theorem state_finishIfDone (started : e.state = .started) (now : Instant) :
    ((e.finishIfDone now).state = .started ∧ (e.finishIfDone now).history.head ≠ []) ∨
      ((e.finishIfDone now).state = .finished ∧ (e.finishIfDone now).history.head = []) := by
  rw [state_finishIfDone_eq, history_finishIfDone, started]
  by_cases hempty : e.history.head = []
  · exact .inr (by simp [hempty])
  · exact .inl (by simp [hempty])

/-- The activity that a handler works on is live when it returns. -/
theorem head_leave (hg : g.WellFormed) (he : e.Coherent g) {id : String} {found : Activity}
    (hfound : e.history.headById? id = some found) {now : Instant}
    {allowed : Step.Action → Prop} {st : Step}
    (hreach : Step.Reaches allowed (e.opened g found now) st) : (e.leave st).history.head ≠ [] := by
  have hlive : id ∈ st.history.head.map (·.id) :=
    hreach.mem_ids hg rfl he.history.agrees (History.mem_ids_of_headById? hfound)
  have hleft : id ∈ (e.leave st).history.head.map (·.id) := by
    unfold leave
    rw [History.ids_writeBack]
    exact hlive
  intro hempty
  rw [hempty] at hleft
  cases hleft

/-- A dispatch keeps the engine on course, unless a complex gateway is reached along a route. -/
theorem OnCourse.dispatch (hg : g.WellFormed) (he : e.OnCourse g) (id : String) (origin : Origin)
    (handler : Handler σ) (payload : Json) (memory : σ) (now : Instant) :
    (e.dispatch id origin handler payload memory now).HoldsUnless Error.IsTraversal
      (OnCourse g) := by
  have hcoherent := he.coherent.dispatch hg id origin handler payload memory now
  cases hrun : e.toRun id with
  | error err => exact .inl (by rw [dispatch_refused hrun]; exact he)
  | ok r =>
    obtain ⟨graph, found⟩ := r
    obtain ⟨hgraph, hfound, -⟩ := toRun_ok_iff.mp hrun
    obtain rfl : g = graph := Option.some.inj (he.coherent.graph.symm.trans hgraph)
    -- Something is live, so the engine is started.
    have hstarted : e.state = .started := by
      refine (he.state.resolve_right ?_).1
      rintro ⟨-, hempty⟩
      have hmem := (History.headById?_some hfound).1
      rw [hempty] at hmem
      cases hmem
    have hreach := e.reaches_worked g found handler.within_all payload memory now
    have hleft := head_leave hg he.coherent hfound hreach
    rcases dispatch_ran hrun origin handler payload memory now rfl with
      ⟨memory', err, h⟩ | ⟨memory', payload', h⟩
    · rw [h] at hcoherent ⊢
      exact .inl ⟨hcoherent, .inl ⟨hstarted, hleft⟩⟩
    · rw [h] at hcoherent ⊢
      cases hrefused : ((e.leave (e.worked g found handler payload memory now)).conclude g
          (e.worked g found handler payload memory now).activity now).2 with
      | none =>
        obtain ⟨e', hcourse, hdone⟩ := conclude_none hrefused
        refine .inl ⟨hcoherent, ?_⟩
        rw [hdone]
        exact state_finishIfDone ((congrArg Course.state hcourse).trans hstarted) now
      | some err => exact .inr ⟨err, conclude_some hrefused, rfl⟩

/-- An edit keeps the engine on course. -/
theorem OnCourse.edit (he : e.OnCourse g) {q : Activity → Bool} {a b : Activity} {edit : Edit}
    {now : Instant} (ha : e.history.head.find? q = some a) (hb : a.edit now edit = .ok b) :
    OnCourse g { e with
      history := { e.history with head := updateFirst q (fun _ => b) e.history.head } } := by
  refine ⟨he.coherent.edit ha hb, ?_⟩
  have hempty : updateFirst q (fun _ => b) e.history.head = [] ↔ e.history.head = [] := by
    rw [← List.length_eq_zero_iff, length_updateFirst, List.length_eq_zero_iff]
  exact he.state.imp (And.imp_right (mt hempty.mp)) (And.imp_right hempty.mpr)

/-- Calls and edits keep the engine on course, as long as no complex gateway is reached along a
route. -/
theorem OnCourse.moves (hg : g.WellFormed) (he : e.OnCourse g)
    (h : Moves Reply.NoTraversal e e') : e'.OnCourse g := by
  have hdispatch : ∀ (e : Engine σ) id origin handler payload memory now, e.OnCourse g → True →
      (e.dispatch id origin handler payload memory now).HoldsUnless Error.IsTraversal
        (OnCourse g) :=
    fun _ id origin handler payload memory now he _ =>
      he.dispatch hg id origin handler payload memory now
  -- A call that went off course answered why.
  have honly : ∀ {turn : Turn σ}, turn.reply.NoTraversal →
      turn.HoldsUnless Error.IsTraversal (OnCourse g) → turn.engine.OnCourse g := by
    rintro turn ok (hcourse | ⟨err, htraversal, hreply⟩)
    · exact hcourse
    · exact absurd hreply (ok err htraversal)
  cases h with
  | ran name payload memory o ok =>
    exact honly ok (run_keeps (fun _ => True) (fun _ _ _ _ => trivial) hdispatch he ..)
  | executed id handler payload memory o ok =>
    exact honly ok (runWith_keeps (fun _ => True) (fun _ _ _ _ => trivial) hdispatch he trivial ..)
  | advanced payload memory o ok =>
    exact honly ok (advance_keeps (fun _ => True) (fun _ _ _ _ => trivial) hdispatch he ..)
  | editedById h =>
    obtain ⟨a, b, ha, hb, rfl⟩ := editById_ok h
    exact he.edit ha hb
  | editedByName h =>
    obtain ⟨a, b, ha, hb, rfl⟩ := editByName_ok h
    exact he.edit ha hb

/-- A new engine is on course. -/
theorem onCourse_withProcess {handlers : HandlerTable (Handler σ)} {now : Instant}
    (h : withProcess p handlers now = .ok e) : ∃ g, g.WellFormed ∧ e.OnCourse g := by
  obtain ⟨g, hg, hgraph, hhistory, -, hstarted⟩ := withProcess_ok h
  have hwf := Document.wellFormed_of_compile hg
  exact ⟨g, hwf, coherent_start hwf hgraph hhistory, .inl ⟨hstarted, by simp [hhistory]⟩⟩

/-- Calls and edits leave an engine alone that has finished with no branch left. -/
theorem Moves.eq_of_finished (finished : e.state = .finished) (hempty : e.history.head = [])
    (h : Moves allowed e e') : e' = e := by
  have hin : e.isIn .finished = true := by simp [isIn, finished]
  cases h with
  | ran name payload memory o ok => unfold run; rw [if_pos hin]; rfl
  | executed id handler payload memory o ok => unfold execute runWith; rw [if_pos hin]
  | advanced payload memory o ok => unfold advance; rw [if_pos hin]
  | editedById h =>
    obtain ⟨a, b, ha, -, -⟩ := editById_ok h
    unfold History.headById? at ha
    rw [hempty] at ha
    cases ha
  | editedByName h =>
    obtain ⟨a, b, ha, -, -⟩ := editByName_ok h
    unfold History.headByName? at ha
    rw [hempty] at ha
    cases ha

/-- As long as no call has answered that a complex gateway cannot be reached along a route, an
engine that runs activities and is edited from outside is started or finished, it is finished
exactly if no branch is live, and once it is finished, calls and edits leave it as it is, whatever
they answer. -/
theorem Moves.finished_iff_no_branch {handlers : HandlerTable (Handler σ)} {now : Instant}
    {e₀ : Engine σ} (made : withProcess p handlers now = .ok e₀)
    (moves : Relation.ReflTransGen (Moves Reply.NoTraversal) e₀ e) :
    (e.state = .started ∨ e.state = .finished) ∧
      (e.state = .finished ↔ e.history.head = []) ∧
      (e.state = .finished →
        ∀ e', Relation.ReflTransGen (Moves fun _ => True) e e' → e' = e) := by
  obtain ⟨g, hg, he₀⟩ := onCourse_withProcess made
  have he : e.OnCourse g := by
    induction moves with
    | refl => exact he₀
    | tail _ h ih => exact ih.moves hg h
  rcases he.state with ⟨hstarted, hlive⟩ | ⟨hfinished, hempty⟩
  · have hnot : e.state ≠ .finished := by
      rw [hstarted]
      decide
    exact ⟨.inl hstarted, iff_of_false hnot hlive, fun h => absurd h hnot⟩
  · refine ⟨.inr hfinished, iff_of_true hfinished hempty, fun _ e' later => ?_⟩
    induction later with
    | refl => rfl
    | tail _ h ih =>
      subst ih
      exact h.eq_of_finished hfinished hempty

end Engine

/-! ## Branches that are given up -/

/-- A handler that cancels its activity. -/
def Handler.cancels : Handler Unit := fun _ payload memory =>
  .act (.edit (.setStatus .canceled)) fun _ _ => .done (memory, .ok payload)

namespace Engine

/-- The process with two branches after both of them have been canceled, one by one. -/
def deserted : Engine Unit :=
  (((diamond.advance .null () ⟨.epoch, 9⟩).engine.execute "left" .cancels .null ()
    ⟨.epoch, 9⟩).engine.execute "right" .cancels .null () ⟨.epoch, 9⟩).engine

/-- The process has finished, although its end was not reached, and nothing starts it again. -/
theorem finished_iff_no_branch_deserted :
    deserted.history.stack.map (·.id) = ["start", "fork", "left", "right"] ∧
      deserted.state = .finished ∧
      ∀ e', Relation.ReflTransGen (Moves fun _ => True) deserted e' → e' = deserted := by
  have hmade : withProcess Builder.diamond.build (.waiting .default ["Left", "Right"]) .epoch =
      .ok diamond := withProcess_ofProcess rfl _
  have hmoves : Relation.ReflTransGen (Moves Reply.NoTraversal) diamond deserted :=
    .tail (.tail (.tail .refl
      (.advanced .null () ⟨.epoch, 9⟩ (Reply.noTraversal_payload rfl)))
      (.executed "left" .cancels .null () ⟨.epoch, 9⟩ (Reply.noTraversal_payload rfl)))
      (.executed "right" .cancels .null () ⟨.epoch, 9⟩ (Reply.noTraversal_payload rfl))
  obtain ⟨-, hiff, hlast⟩ := Moves.finished_iff_no_branch hmade hmoves
  have hfinished : deserted.state = .finished := hiff.mpr rfl
  exact ⟨rfl, hfinished, hlast hfinished⟩

end Engine

end Workflow
