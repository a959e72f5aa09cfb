import Workflow.Engine.Run
import Workflow.Proofs.Engine.Dispatch
import Workflow.Proofs.HandlerTable

/-!
# What whole calls keep

A call runs any number of activities: the one its caller names, and then those that may run
unattended.  All of these runs are dispatches with a handler that the caller brings, one that is
registered, or the default policy.  So what dispatches with such handlers keep is kept by going
forward, by induction on the limit, and by every call (`Engine.after_keeps`).  Some properties are
lost in one case, when the dispatch ends with an error of a certain kind.  Nothing runs after an
error, so such a property is kept by a call unless the call answers that error
(`Turn.HoldsUnless`).
-/

namespace Workflow

/-- A call of an engine; what the handlers remember when it is made is part of it. -/
inductive Call (σ : Type) where
  /-- Run the first live activity of a name. -/
  | run (name : String) (payload : Json) (memory : σ) (o : Occasion)
  /-- Run the live activity of an id with a handler that the caller brings. -/
  | execute (id : String) (handler : Handler σ) (payload : Json) (memory : σ) (o : Occasion)
  /-- Go forward. -/
  | advance (payload : Json) (memory : σ) (o : Occasion)
  /-- Start, or start again. -/
  | start (now : Instant)
  /-- Pause. -/
  | pause (now : Instant)
  /-- Stop. -/
  | stop (now : Instant)
  /-- Cancel. -/
  | cancel (now : Instant)

/-- The handler that the caller brings. -/
def Call.handler? {σ : Type} : Call σ → Option (Handler σ)
  | execute _ handler _ _ _ => some handler
  | _ => none

/-- Whether the engine that a dispatch leaves has a property, unless the dispatch ended with a fatal
error. -/
def Dispatched.HoldsUnless {σ : Type} (fatal : Error → Prop) (P : Engine σ → Prop)
    (d : Dispatched σ) : Prop :=
  P d.engine ∨ ∃ err, fatal err ∧ d.reply = .error err

/-- Whether the engine that a call leaves has a property, unless the call answered a fatal error. -/
def Turn.HoldsUnless {σ : Type} (fatal : Error → Prop) (P : Engine σ → Prop)
    (turn : Turn σ) : Prop :=
  P turn.engine ∨ ∃ err, fatal err ∧ turn.reply = .error err

/-- Where no error is fatal, the property holds. -/
theorem Turn.HoldsUnless.holds {σ : Type} {P : Engine σ → Prop} {turn : Turn σ}
    (h : turn.HoldsUnless (fun _ => False) P) : P turn.engine :=
  h.resolve_right fun ⟨_, hfalse, _⟩ => hfalse

namespace Engine

variable {σ : Type}

/-- The engine after a call; a refused start leaves it as it is. -/
def after (e : Engine σ) : Call σ → Engine σ
  | .run name payload memory o => (e.run name payload memory o).engine
  | .execute id handler payload memory o => (e.execute id handler payload memory o).engine
  | .advance payload memory o => (e.advance payload memory o).engine
  | .start now => (e.start now).toOption.getD e
  | .pause now => e.pause now
  | .stop now => e.stop now
  | .cancel now => e.cancel now

/-- Whether the engine runs activities with this handler of its own accord: it is the default
policy's, or it is registered. -/
def Serves (e : Engine σ) (handler : Handler σ) : Prop :=
  handler = Handler.default ∨ ∃ table, e.handlers = some table ∧ table.Has handler

/-- What goes forward is an entered activity that is not settled, with the handler that runs it
unattended. -/
theorem exists_of_nextAutomatic {e : Engine σ} {settled : List String} {id : String}
    {choice : Choice (Handler σ)} (h : e.nextAutomatic? settled = some (id, choice)) :
    ∃ table a, e.handlers = some table ∧ a ∈ e.history.head ∧ a.id = id ∧ a.isEntered = true ∧
      id ∉ settled ∧ table.forForward a.name = some choice := by
  unfold nextAutomatic? at h
  split at h
  · cases h
  · next table htable =>
    obtain ⟨a, ha, hchosen⟩ := List.exists_of_findSome?_eq_some h
    split at hchosen
    · next hcond =>
      obtain ⟨c, hc, heq⟩ := Option.map_eq_some_iff.mp hchosen
      cases heq
      obtain ⟨hentered, hnot⟩ := Bool.and_eq_true_iff.mp hcond
      exact ⟨table, a, htable, ha, rfl, hentered, by simpa using hnot, hc⟩
    · cases hchosen

/-- Going forward runs activities with handlers that the engine serves. -/
theorem serves_nextAutomatic {e : Engine σ} {settled : List String} {id : String}
    {choice : Choice (Handler σ)} (h : e.nextAutomatic? settled = some (id, choice)) :
    e.Serves choice.handler := by
  obtain ⟨table, a, htable, -, -, -, -, hchoice⟩ := exists_of_nextAutomatic h
  rcases HandlerTable.forForward_some hchoice with rfl | ⟨name, handler, -, hauto, rfl⟩
  · exact .inl rfl
  · obtain ⟨r, hr, hon⟩ := Option.bind_eq_some_iff.mp hauto
    exact .inr ⟨table, htable, name, r, .automatic, hr, hon⟩

/-- A run by name is with a handler that the engine serves. -/
theorem serves_choiceFor (e : Engine σ) (name : String) :
    e.Serves (e.choiceFor name).handler := by
  unfold choiceFor
  split
  · next table htable =>
    unfold HandlerTable.forRun
    split
    · next handler hmanual =>
      obtain ⟨r, hr, hon⟩ := Option.bind_eq_some_iff.mp hmanual
      exact .inr ⟨table, htable, name, r, .manual, hr, hon⟩
    · next handler _ hauto =>
      obtain ⟨r, hr, hon⟩ := Option.bind_eq_some_iff.mp hauto
      exact .inr ⟨table, htable, name, r, .automatic, hr, hon⟩
    · exact .inl rfl
  · exact .inl rfl

/-- The handlers that an engine serves keep to actions to which the registered ones keep, if these
include setting the status. -/
theorem within_of_serves {allowed : Step.Action → Prop}
    (sets : ∀ s, allowed (.edit (.setStatus s))) {e : Engine σ}
    (registered : ∀ table, e.handlers = some table → ∀ handler, table.Has handler →
      handler.Within allowed) {handler : Handler σ} (h : e.Serves handler) :
    handler.Within allowed := by
  rcases h with rfl | ⟨table, htable, hhas⟩
  · exact Handler.within_default sets
  · exact registered table htable handler hhas

section Unless

variable {P : Engine σ → Prop} {fatal : Error → Prop}

/-- What holds after a dispatch unless it ends with a fatal error, and is then kept by the rest of a
call, holds after the call. -/
theorem followed_holdsUnless {d : Dispatched σ} {rest : Json → Turn σ}
    (h : d.HoldsUnless fatal P) (keeps : P d.engine → ∀ value, (rest value).HoldsUnless fatal P) :
    Turn.HoldsUnless fatal P (match d.reply with
      | .error err => ⟨d.engine, d.memory, .error err, d.invocations⟩
      | .ok value =>
        { rest value with invocations := d.invocations ++ (rest value).invocations }) := by
  cases hreply : d.reply with
  | error err =>
    -- The error of the dispatch is the answer.
    refine h.imp_right ?_
    rintro ⟨err', hfatal, heq⟩
    obtain rfl : err = err' := Except.error.inj (hreply.symm.trans heq)
    exact ⟨err, hfatal, rfl⟩
  | ok value =>
    rcases h with h | ⟨err, -, heq⟩
    · exact keeps h value
    · rw [hreply] at heq
      cases heq

variable (may : Handler σ → Prop) (serves : ∀ e handler, P e → e.Serves handler → may handler)
  (dispatch : ∀ e id origin handler payload memory now, P e → may handler →
    (e.dispatch id origin handler payload memory now).HoldsUnless fatal P)

include serves dispatch

/-- What dispatches keep unless they end with a fatal error is kept by going forward unless that
ends with one. -/
theorem forward_keeps (now : Instant) (limit : Nat) {settled : List String} {e : Engine σ}
    {payload : Json} {memory : σ} (h : P e) :
    (forward now limit settled e payload memory).HoldsUnless fatal P := by
  -- One dispatch is used up in each step, and `P` is all that the rest asks of the engine.
  induction limit generalizing settled e payload memory with
  | zero =>
    unfold forward
    split
    · exact .inl h
    · exact .inl h
    · next hlimit => cases hlimit
  | succ limit ih =>
    unfold forward
    split
    · exact .inl h
    · next heq => cases heq
    · -- One activity runs, and the rest goes forward from the engine it leaves.
      next id choice n hnext hlimit =>
      obtain rfl : limit = n := Nat.succ.inj hlimit
      have hchoice : e.Serves choice.handler := by
        split at hnext
        · exact serves_nextAutomatic hnext
        · cases hnext
      have hrun := dispatch e id choice.origin choice.handler payload memory now h
        (serves e _ h hchoice)
      exact followed_holdsUnless hrun fun hleft _ => ih hleft

/-- What dispatches keep unless they end with a fatal error is kept by running one activity and
going forward unless that ends with one. -/
theorem runWith_keeps {e : Engine σ} (h : P e) {handler : Handler σ} (hmay : may handler)
    (id : String) (origin : Origin) (payload : Json) (memory : σ) (o : Occasion) :
    (e.runWith id origin handler payload memory o).HoldsUnless fatal P := by
  unfold runWith
  split
  · exact .inl h
  · split
    · exact .inl h
    · have hrun := dispatch e id origin handler payload memory o.now h hmay
      exact followed_holdsUnless hrun fun hleft _ =>
        forward_keeps may serves dispatch o.now o.limit hleft

/-- What dispatches keep unless they end with a fatal error is kept by a run by name unless that
ends with one. -/
theorem run_keeps {e : Engine σ} (h : P e) (name : String) (payload : Json) (memory : σ)
    (o : Occasion) : (e.run name payload memory o).HoldsUnless fatal P := by
  unfold run
  split
  · exact .inl h
  · split
    · exact .inl h
    · exact runWith_keeps may serves dispatch h (serves e _ h (e.serves_choiceFor name)) _ _ _ _ _

/-- What dispatches keep unless they end with a fatal error is kept by an advance unless that ends
with one. -/
theorem advance_keeps {e : Engine σ} (h : P e) (payload : Json) (memory : σ) (o : Occasion) :
    (e.advance payload memory o).HoldsUnless fatal P := by
  unfold advance
  split
  · exact .inl h
  · split
    · exact .inl h
    · exact forward_keeps may serves dispatch o.now o.limit h

end Unless

section Keeps

variable {P : Engine σ → Prop} (may : Handler σ → Prop)
  (serves : ∀ e handler, P e → e.Serves handler → may handler)
  (dispatch : ∀ e id origin handler payload memory now, P e → may handler →
    P (e.dispatch id origin handler payload memory now).engine)

include serves dispatch

/-- What dispatches and changes of the state keep is kept by every call. -/
theorem after_keeps (set : ∀ e s now, P e → P (e.set s now)) {e : Engine σ} (h : P e)
    {c : Call σ} (given : ∀ handler, c.handler? = some handler → may handler) :
    P (e.after c) := by
  have hdispatch : ∀ e id origin handler payload memory now, P e → may handler →
      (e.dispatch id origin handler payload memory now).HoldsUnless (fun _ => False) P :=
    fun e id origin handler payload memory now h hmay =>
      .inl (dispatch e id origin handler payload memory now h hmay)
  cases c with
  | run name payload memory o =>
    exact (run_keeps may serves hdispatch h name payload memory o).holds
  | execute id handler payload memory o =>
    have hmay : may handler := given handler rfl
    exact (runWith_keeps may serves hdispatch h hmay id .given payload memory o).holds
  | advance payload memory o => exact (advance_keeps may serves hdispatch h payload memory o).holds
  | start now =>
    show P ((e.start now).toOption.getD e)
    unfold start
    split
    · exact set e .started now h
    · exact h
  | pause now => exact set e .paused now h
  | stop now => exact set e .stopped now h
  | cancel now => exact set e .canceled now h

end Keeps

/-- What every dispatch and every change of the state keep is kept by every call, whatever the
handlers. -/
theorem after_keeps_any {P : Engine σ → Prop}
    (dispatch : ∀ e id origin handler payload memory now, P e →
      P (e.dispatch id origin handler payload memory now).engine)
    (set : ∀ e s now, P e → P (e.set s now)) {e : Engine σ} (h : P e) (c : Call σ) :
    P (e.after c) :=
  after_keeps (fun _ => True) (fun _ _ _ _ => trivial)
    (fun e id origin handler payload memory now h _ =>
      dispatch e id origin handler payload memory now h)
    set h fun _ _ => trivial

/-- A call changes neither the process nor the handlers. -/
theorem after_frame (e : Engine σ) (c : Call σ) :
    (e.after c).graph = e.graph ∧ (e.after c).handlers = e.handlers := by
  let P : Engine σ → Prop := fun e' => e'.graph = e.graph ∧ e'.handlers = e.handlers
  have hdispatch : ∀ e' id origin handler payload memory now, P e' →
      P (e'.dispatch id origin handler payload memory now).engine := by
    intro e' id origin handler payload memory now h
    obtain ⟨hg, hh⟩ := dispatch_frame e' id origin handler payload memory now
    exact ⟨hg.trans h.1, hh.trans h.2⟩
  have hset : ∀ e' s now, P e' → P (e'.set s now) := fun _ _ _ h => h
  exact after_keeps_any hdispatch hset ⟨rfl, rfl⟩ c

end Engine

end Workflow
