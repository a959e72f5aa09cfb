import Workflow.Proofs.Engine.Errands

/-!
# What is refused changes nothing

To build a process, to restore a snapshot or to start is a series of assignments to the engine
(`Engine.assign`).  Whatever may be refused is asked before the first of them, so a refusal leaves
the engine as it was, and otherwise the assignments make the engine of `Engine.change`
(`Engine.run_assign`).

A call may find that there is nothing to run: the engine is in the wrong state, no live activity is
the one that was asked for, or that one is not entered.  `Engine.Declines` lists these cases and the
answer to each, of which the first that applies is given, and the engine stays as it is.  In all
other cases a call that asks for an activity runs it, and when the ids of the live activities are
distinct no such answer comes after that but from a handler (`Engine.Arises.declined`).
-/

namespace Workflow

variable {σ : Type}

/-- A change of an engine that calls no handler and may be refused. -/
inductive Change where
  /-- To build a process. -/
  | build (p : Document) (now : Instant)
  /-- To restore a snapshot. -/
  | restore (s : Snapshot)
  /-- To start, or to start again. -/
  | start (now : Instant)

/-- Whether an error is one with which an engine answers when it has nothing to run. -/
def Error.Declines : Error → Prop
  | .alreadyFinished => True
  | .runTargetNotFound _ => True
  | .notInitialized => True
  | .invalidState _ => True
  | .headActivityNotFoundById _ => True
  | .notEntered .. => True
  | _ => False

namespace Engine

/-! ## Changes -/

/-- The engine after a change, or the refusal. -/
def change (e : Engine σ) : Change → Except Error (Engine σ)
  | .build p now => e.build p now
  | .restore s => e.restore s
  | .start now => e.start now

/-- The assignments that make up a change, one after another, each to the engine that the one before
it has left. -/
def assign : Change → EStateM Error (Engine σ) Unit
  | .build p now => do
    let graph ← ofExcept p.compile
    modify fun e => { e with history := {} }
    modify fun e => { e with
      history := { e.history with head := e.history.head ++ [graph.start.instantiate now] } }
    modify fun e => { e with graph := some graph }
    modify fun e => e.startIfReady now
  | .restore s => do
    match (← get).graph with
    | none => throw .notInitialized
    | some graph =>
      let history ← ofExcept (History.restore graph s.head s.stack)
      modify fun e => { e with history }
      modify fun e => { e with course := { e.course with state := s.course.state } }
      modify fun e => { e with course := { s.course with state := e.course.state } }
  | .start now => do
    if (← get).isReady then modify fun e => e.set .started now else throw .notInitialized

/-- The assignments of a change make the changed engine, or are refused before the first of them. -/
theorem run_assign (e : Engine σ) (c : Change) :
    (assign c).run e = match e.change c with
      | .ok e' => .ok () e'
      | .error err => .error err e := by
  cases c with
  | build p now =>
    unfold change build
    cases hcompile : p.compile with
    | error err => simp only [assign, hcompile]; rfl
    | ok graph => simp only [assign, hcompile]; rfl
  | restore s =>
    obtain ⟨course, graph, history, handlers⟩ := e
    unfold change restore
    cases graph with
    | none => rfl
    | some graph =>
      simp only [assign, EStateM.run_bind, EStateM.run_get]
      cases History.restore graph s.head s.stack <;> rfl
  | start now =>
    unfold change start
    simp only [assign, EStateM.run_bind, EStateM.run_get]
    by_cases hready : e.isReady = true
    · simp only [if_pos hready]; rfl
    · simp only [if_neg hready]; rfl

/-! ## Calls that find nothing to run -/

/-- Whether an engine runs nothing in the state it is in, though it has not finished, and the answer
to a call. -/
inductive Idle (e : Engine σ) : Error → Prop where
  /-- It was never started. -/
  | init (state : e.state = .init) : Idle e .notInitialized
  /-- It was paused, stopped or canceled. -/
  | halted (state : e.state = .paused ∨ e.state = .stopped ∨ e.state = .canceled) :
    Idle e (.invalidState e.state)

/-- Whether there is nothing to run for an errand, and the answer.  The cases of an errand exclude
each other and come in the order in which they are asked. -/
inductive Declines (e : Engine σ) (payload : Json) : Errand σ → Reply → Prop where
  /-- Nothing runs by name when the engine has finished. -/
  | runFinished {name : String} (state : e.state = .finished) :
    Declines e payload (.run name) (.error .alreadyFinished)
  /-- No live activity has the name. -/
  | runMissing {name : String} (state : e.state ≠ .finished)
      (missing : ∀ a ∈ e.history.head, a.name ≠ some name) :
    Declines e payload (.run name) (.error (.runTargetNotFound name))
  /-- There is one, and the engine runs nothing. -/
  | runIdle {name : String} {err : Error} (live : ∃ a ∈ e.history.head, a.name = some name)
      (idle : e.Idle err) : Declines e payload (.run name) (.error err)
  /-- The first one is not entered. -/
  | runWaiting {name : String} {a : Activity} (state : e.state = .started)
      (first : IsFirst (·.name = some name) e.history.head a) (waits : a.isEntered = false) :
    Declines e payload (.run name) (.error (.notEntered a.id a.name a.status))
  /-- When the engine has finished, the payload comes back. -/
  | executeFinished {id : String} {handler : Handler σ} (state : e.state = .finished) :
    Declines e payload (.execute id handler) (.payload payload)
  /-- The engine runs nothing. -/
  | executeIdle {id : String} {handler : Handler σ} {err : Error} (idle : e.Idle err) :
    Declines e payload (.execute id handler) (.error err)
  /-- No live activity has the id. -/
  | executeMissing {id : String} {handler : Handler σ} (state : e.state = .started)
      (missing : ∀ a ∈ e.history.head, a.id ≠ id) :
    Declines e payload (.execute id handler) (.error (.headActivityNotFoundById id))
  /-- The first one is not entered. -/
  | executeWaiting {id : String} {handler : Handler σ} {a : Activity} (state : e.state = .started)
      (first : IsFirst (·.id = id) e.history.head a) (waits : a.isEntered = false) :
    Declines e payload (.execute id handler) (.error (.notEntered a.id a.name a.status))
  /-- When the engine has finished, the payload comes back. -/
  | advanceFinished (state : e.state = .finished) : Declines e payload .advance (.payload payload)
  /-- The engine runs nothing. -/
  | advanceIdle {err : Error} (idle : e.Idle err) : Declines e payload .advance (.error err)

variable {e : Engine σ}

/-- A payload that is answered where there is nothing to run is the one that was given. -/
theorem Declines.payload_eq {payload value : Json} {errand : Errand σ} {reply : Reply}
    (h : e.Declines payload errand reply) (hreply : reply = .payload value) : value = payload := by
  cases h <;> cases hreply <;> rfl

/-- An idle engine is not finished, and answers a call so. -/
theorem Idle.checkStarted {err : Error} (idle : e.Idle err) :
    e.isIn .finished = false ∧ e.checkStarted = .error err := by
  cases idle with
  | init state => simp [isIn, Engine.checkStarted, state]
  | halted state =>
    rcases state with state | state | state <;> simp [isIn, Engine.checkStarted, state]

/-- An engine has finished, is started, or is idle. -/
theorem state_cases (e : Engine σ) :
    e.state = .finished ∨ e.state = .started ∨ ∃ err, e.Idle err := by
  cases state : e.state with
  | init => exact .inr (.inr ⟨_, .init state⟩)
  | started => exact .inr (.inl rfl)
  | paused => exact .inr (.inr ⟨_, .halted (.inl state)⟩)
  | stopped => exact .inr (.inr ⟨_, .halted (.inr (.inl state))⟩)
  | finished => exact .inl rfl
  | canceled => exact .inr (.inr ⟨_, .halted (.inr (.inr state))⟩)

/-- The first live activity of a name. -/
theorem headByName?_eq_some_iff {name : String} {a : Activity} :
    e.history.headByName? name = some a ↔ IsFirst (·.name = some name) e.history.head a :=
  find?_eq_some_iff_isFirst fun a => by simp [Activity.hasName]

/-- The first live activity of an id. -/
theorem headById?_eq_some_iff {id : String} {a : Activity} :
    e.history.headById? id = some a ↔ IsFirst (·.id = id) e.history.head a :=
  find?_eq_some_iff_isFirst fun a => by simp

/-- The first live activity of a name is the first of its id. -/
theorem headById?_of_headByName? {g : Graph} (agrees : e.history.Agrees g) {name : String}
    {a : Activity} (h : e.history.headByName? name = some a) :
    e.history.headById? a.id = some a := by
  obtain ⟨before, after, hhead, hname, hbefore⟩ := headByName?_eq_some_iff.mp h
  refine headById?_eq_some_iff.mpr ⟨before, after, hhead, rfl, fun b hb hid => hbefore b hb ?_⟩
  -- Activities of one id are instances of one definition, whose name they have.
  have hblank :=
    (agrees.live b (by simp [hhead, hb])).blank_eq (agrees.live a (by simp [hhead])) hid
  exact (congrArg Activity.name hblank).trans hname

/-- An activity that is not entered may not be run. -/
theorem toRun_waiting {g : Graph} (built : e.graph = some g) {id : String} {a : Activity}
    (found : e.history.headById? id = some a) (waits : a.isEntered = false) :
    e.toRun id = .error (.notEntered a.id a.name a.status) := by
  simp [toRun, built, found, waits]

/-- An activity that is not live may not be run. -/
theorem toRun_missing {g : Graph} (built : e.graph = some g) {id : String}
    (missing : ∀ a ∈ e.history.head, a.id ≠ id) :
    e.toRun id = .error (.headActivityNotFoundById id) := by
  have hnone : e.history.headById? id = none :=
    List.find?_eq_none.mpr fun a ha => by simpa using missing a ha
  simp [toRun, built, hnone]

/-- A started engine runs the activity and goes forward. -/
theorem runWith_of_started (state : e.state = .started) (id : String) (origin : Origin)
    (handler : Handler σ) (payload : Json) (memory : σ) (o : Occasion) :
    e.runWith id origin handler payload memory o =
      (e.dispatch id origin handler payload memory o.now).followed fun value =>
        let d := e.dispatch id origin handler payload memory o.now
        forward o.now o.limit [] d.engine value d.memory := by
  have hopen : e.isIn .finished = false := by simp [isIn, state]
  unfold runWith checkStarted
  rw [hopen, state]
  rfl

/-- An idle engine runs no activity. -/
theorem runWith_of_idle {err : Error} (idle : e.Idle err) (id : String) (origin : Origin)
    (handler : Handler σ) (payload : Json) (memory : σ) (o : Occasion) :
    e.runWith id origin handler payload memory o = ⟨e, memory, .error err, []⟩ := by
  obtain ⟨hopen, hcheck⟩ := idle.checkStarted
  unfold runWith
  rw [hopen, hcheck]
  rfl

/-- What may not be run is refused. -/
theorem runWith_of_refused {err : Error} (state : e.state = .started) {id : String}
    (refused : e.toRun id = .error err) (origin : Origin) (handler : Handler σ) (payload : Json)
    (memory : σ) (o : Occasion) :
    e.runWith id origin handler payload memory o = ⟨e, memory, .error err, []⟩ := by
  rw [runWith_of_started state, dispatch_refused refused]
  rfl

/-- A run by name, when the engine has not finished and an activity of the name is live. -/
theorem run_of_headByName? (hopen : e.isIn .finished = false) {name : String} {a : Activity}
    (h : e.history.headByName? name = some a) (payload : Json) (memory : σ) (o : Occasion) :
    e.run name payload memory o =
      e.runWith a.id (e.choiceFor name).origin (e.choiceFor name).handler payload memory o := by
  unfold run
  rw [hopen, h]
  rfl

/-- A started engine has a process, and its history agrees with it. -/
theorem exists_graph (agrees : e.Agrees) (built : e.state = .started → e.graph ≠ none)
    (state : e.state = .started) : ∃ g, e.graph = some g ∧ e.history.Agrees g := by
  obtain ⟨g, hg⟩ := Option.ne_none_iff_exists'.mp (built state)
  exact ⟨g, hg, (agrees.built g hg).2⟩

/-- Where there is nothing to run, nothing runs, and the answer is the one that is due. -/
theorem turn_of_declines (agrees : e.Agrees) (built : e.state = .started → e.graph ≠ none)
    {errand : Errand σ} {payload : Json} {reply : Reply} (h : e.Declines payload errand reply)
    (memory : σ) (o : Occasion) : e.turn errand payload memory o = ⟨e, memory, reply, []⟩ := by
  have hopen : ∀ {s : RunState}, e.state = s → s ≠ .finished → e.isIn .finished = false := by
    rintro s rfl hne
    simpa [isIn] using hne
  cases h with
  | runFinished state => simp [turn, run, isIn, state, refuse]
  | runMissing state missing =>
    have hnone : e.history.headByName? _ = none :=
      List.find?_eq_none.mpr fun a ha => by simpa [Activity.hasName] using missing a ha
    simp [turn, run, hopen rfl state, hnone, refuse]
  | @runIdle name err live idle =>
    obtain ⟨a, ha, hname⟩ := live
    obtain ⟨b, hb⟩ : ∃ b, e.history.headByName? name = some b :=
      Option.isSome_iff_exists.mp (List.find?_isSome.mpr ⟨a, ha, by simp [Activity.hasName, hname]⟩)
    exact (run_of_headByName? idle.checkStarted.1 hb payload memory o).trans
      (runWith_of_idle idle ..)
  | runWaiting state first waits =>
    obtain ⟨g, hg, hagrees⟩ := exists_graph agrees built state
    have hfound := headByName?_eq_some_iff.mpr first
    exact (run_of_headByName? (hopen state (by simp)) hfound payload memory o).trans
      (runWith_of_refused state
        (toRun_waiting hg (headById?_of_headByName? hagrees hfound) waits) ..)
  | executeFinished state => simp [turn, execute, runWith, isIn, state]
  | executeIdle idle => exact runWith_of_idle idle ..
  | executeMissing state missing =>
    obtain ⟨g, hg, -⟩ := exists_graph agrees built state
    exact runWith_of_refused state (toRun_missing hg missing) ..
  | executeWaiting state first waits =>
    obtain ⟨g, hg, -⟩ := exists_graph agrees built state
    exact runWith_of_refused state (toRun_waiting hg (headById?_eq_some_iff.mpr first) waits) ..
  | advanceFinished state => simp [turn, advance, isIn, state]
  | advanceIdle idle =>
    obtain ⟨hopen, hcheck⟩ := idle.checkStarted
    simp [turn, advance, hopen, hcheck, refuse]

/-- Either there is nothing to run, or the engine is started and runs an activity unless it only
goes forward. -/
theorem turn_cases (agrees : e.Agrees) (built : e.state = .started → e.graph ≠ none)
    (errand : Errand σ) (payload : Json) (memory : σ) (o : Occasion) :
    (∃ reply, e.Declines payload errand reply) ∨
      e.state = .started ∧ (errand = .advance ∨ ∃ g a origin handler, e.toRun a.id = .ok (g, a) ∧
        e.turn errand payload memory o = e.runWith a.id origin handler payload memory o) := by
  cases errand with
  | advance =>
    rcases state_cases e with state | state | ⟨err, idle⟩
    · exact .inl ⟨_, .advanceFinished state⟩
    · exact .inr ⟨state, .inl rfl⟩
    · exact .inl ⟨_, .advanceIdle idle⟩
  | run name =>
    cases hname : e.history.headByName? name with
    | none =>
      have hmissing : ∀ a ∈ e.history.head, a.name ≠ some name := fun a ha => by
        simpa [Activity.hasName] using List.find?_eq_none.mp hname a ha
      by_cases state : e.state = .finished
      · exact .inl ⟨_, .runFinished state⟩
      · exact .inl ⟨_, .runMissing state hmissing⟩
    | some a =>
      have hfirst := headByName?_eq_some_iff.mp hname
      rcases state_cases e with state | state | ⟨err, idle⟩
      · exact .inl ⟨_, .runFinished state⟩
      · obtain ⟨g, hg, hagrees⟩ := exists_graph agrees built state
        have hfound := headById?_of_headByName? hagrees hname
        cases hentered : a.isEntered with
        | false => exact .inl ⟨_, .runWaiting state hfirst hentered⟩
        | true =>
          exact .inr ⟨state, .inr ⟨g, a, _, _, toRun_ok_iff.mpr ⟨hg, hfound, hentered⟩,
            run_of_headByName? (by simp [isIn, state]) hname payload memory o⟩⟩
      · obtain ⟨before, after, hhead, hnamed, -⟩ := hfirst
        exact .inl ⟨_, .runIdle ⟨a, by simp [hhead], hnamed⟩ idle⟩
  | execute id handler =>
    rcases state_cases e with state | state | ⟨err, idle⟩
    · exact .inl ⟨_, .executeFinished state⟩
    · obtain ⟨g, hg, -⟩ := exists_graph agrees built state
      cases hid : e.history.headById? id with
      | none =>
        have hmissing : ∀ a ∈ e.history.head, a.id ≠ id := fun a ha => by
          simpa using List.find?_eq_none.mp hid a ha
        exact .inl ⟨_, .executeMissing state hmissing⟩
      | some a =>
        cases hentered : a.isEntered with
        | false =>
          exact .inl ⟨_, .executeWaiting state (headById?_eq_some_iff.mp hid) hentered⟩
        | true =>
          obtain rfl : a.id = id := (History.headById?_some hid).2
          exact .inr ⟨state, .inr ⟨g, a, .given, handler, toRun_ok_iff.mpr ⟨hg, hid, hentered⟩,
            rfl⟩⟩
    · exact .inl ⟨_, .executeIdle idle⟩

/-- A started engine that may run an activity calls its handler. -/
theorem invocations_runWith {g : Graph} {id : String} {a : Activity} (state : e.state = .started)
    (mayRun : e.toRun id = .ok (g, a)) (origin : Origin) (handler : Handler σ) (payload : Json)
    (memory : σ) (o : Occasion) :
    (e.runWith id origin handler payload memory o).invocations ≠ [] := by
  rw [runWith_of_started state, Dispatched.followed]
  split <;> simp [invocations_dispatch mayRun]

/-! ## Calls that run something -/

end Engine

/-- Without rounds a turn leaves what it has started from. -/
theorem Turn.Plays.of_nil {turn : Turn σ} {now : Instant} {e : Engine σ} {payload : Json}
    {memory : σ} (h : turn.Plays now e payload memory []) :
    turn.engine = e ∧ turn.memory = memory := by
  cases h
  exact ⟨rfl, rfl⟩

/-- Whether the error with which a turn ends, if it does, is that of the last of some rounds. -/
def Turn.FailsLast (turn : Turn σ) (now : Instant) (rounds : List (Round σ)) : Prop :=
  ∀ err, turn.reply = .error err →
    ∃ last, rounds.getLast? = some last ∧ (last.left now).reply = .error err

/-- Whether the handler of a round has returned a failure. -/
def Round.Returns (r : Round σ) (now : Instant) (failure : Failure) : Prop :=
  ∃ graph, r.engine.graph = some graph ∧
    ((r.invocation.handler (r.engine.opened graph r.activity now) r.invocation.payload r.memory).run
      (r.engine.opened graph r.activity now)).1.2 = .error failure

namespace Engine

variable {now : Instant} {g : Graph}

/-- A dispatch is the first round of its turn, and the last one if it fails. -/
theorem failsLast_followed {r : Round σ} (mayRun : r.MayRun) {rest : Json → Turn σ}
    (later : ∀ value, ∃ rounds,
      (rest value).Comprises now (r.left now).engine value (r.left now).memory rounds ∧
        (rest value).FailsLast now rounds) :
    ∃ rounds, ((r.left now).followed rest).Comprises now r.engine r.invocation.payload r.memory
        rounds ∧ ((r.left now).followed rest).FailsLast now rounds := by
  rcases comprises_followed mayRun now rest with
    ⟨hone, err, hfails, hreply⟩ | ⟨value, -, -, hreply, hlater⟩
  · refine ⟨[r], hone, fun err' herr => ⟨r, rfl, ?_⟩⟩
    rw [hreply] at herr
    cases herr
    exact hfails
  · obtain ⟨rounds, hcomprises, hfails⟩ := later value
    refine ⟨r :: rounds, hlater rounds hcomprises, fun err herr => ?_⟩
    obtain ⟨last, hlast, hleft⟩ := hfails err (hreply ▸ herr)
    exact ⟨last, by simp [List.getLast?_cons, hlast], hleft⟩

/-- Where nothing runs and no error is answered, none has come from a round. -/
theorem failsLast_nil {e : Engine σ} {payload : Json} {memory : σ} {reply : Reply}
    (hpayload : ∀ value, reply = .payload value → value = payload)
    (ok : ∀ err, reply ≠ .error err) :
    ∃ rounds, Turn.Comprises ⟨e, memory, reply, []⟩ now e payload memory rounds ∧
      Turn.FailsLast ⟨e, memory, reply, []⟩ now rounds :=
  ⟨[], ⟨rfl, .rest hpayload⟩, fun err h => absurd h (ok err)⟩

/-- When the ids of the live activities are distinct, what goes forward is never refused, so going
forward ends with an error only when a round does. -/
theorem forward_failsLast (hg : g.WellFormed) (now : Instant) (limit : Nat) {settled : List String}
    {e : Engine σ} (he : e.Coherent g) (payload : Json) (memory : σ) :
    ∃ rounds, (forward now limit settled e payload memory).Comprises now e payload memory rounds ∧
      (forward now limit settled e payload memory).FailsLast now rounds := by
  induction limit generalizing settled e payload memory with
  | zero =>
    cases hnext : e.upcoming? settled with
    | none =>
      rw [forward_of_none hnext]
      exact failsLast_nil (by simp) (by simp)
    | some next =>
      rw [forward_at_limit hnext]
      exact failsLast_nil (by simp) (by simp)
  | succ limit ih =>
    cases hnext : e.upcoming? settled with
    | none =>
      rw [forward_of_none hnext]
      exact failsLast_nil (by simp) (by simp)
    | some next =>
      obtain ⟨id, choice⟩ := next
      have hauto := (Option.ite_none_right_eq_some.mp hnext).2
      obtain ⟨table, a, -, ha, rfl, hentered, -, -⟩ := exists_of_nextAutomatic hauto
      have hrun : e.toRun a.id = .ok (g, a) :=
        toRun_ok_iff.mpr ⟨he.graph, he.history.headById?_of_mem ha, hentered⟩
      let r : Round σ := ⟨e, memory, ⟨a, choice.origin, choice.handler, payload⟩⟩
      rw [forward_of_some hnext]
      exact failsLast_followed (r := r) ⟨g, hrun⟩ fun value =>
        ih (he.dispatch hg a.id choice.origin choice.handler payload memory now) value _

/-- A round that fails with an error with which an engine declines has it from its handler. -/
theorem returns_of_declines {r : Round σ} (mayRun : r.MayRun) {err : Error}
    (fails : (r.left now).reply = .error err) (declines : err.Declines) :
    r.Returns now (.error err) := by
  obtain ⟨graph, hrun⟩ := mayRun
  refine ⟨graph, (toRun_ok_iff.mp hrun).1, ?_⟩
  rcases hhandler : (r.invocation.handler (r.engine.opened graph r.activity now)
    r.invocation.payload r.memory).run (r.engine.opened graph r.activity now)
    with ⟨⟨memory, outcome⟩, st⟩
  rw [Round.left, dispatch_eq hrun hhandler] at fails
  cases outcome with
  | ok value =>
    -- The handler did not fail, so a target has refused, and that is no such error.
    cases hrefusal : ((r.engine.leave st).conclude graph st.activity now).2 with
    | none =>
      simp only [ended, hrefusal, Option.elim] at fails
      cases fails
    | some err' =>
      obtain ⟨id, rfl⟩ := conclude_some hrefusal
      simp only [ended, hrefusal, Option.elim] at fails
      cases fails
      exact declines.elim
  | error failure =>
    cases failure with
    | error err' => cases fails; rfl
    | reason text => cases fails; exact declines.elim

/-- Once a turn has run something, the error with which it ends is that of its last round, when the
ids of the live activities are distinct. -/
theorem turn_failsLast (hg : g.WellFormed) {e : Engine σ} (he : e.Coherent g) (errand : Errand σ)
    (payload : Json) (memory : σ) (o : Occasion) :
    ∃ rounds, (e.turn errand payload memory o).Comprises o.now e payload memory rounds ∧
      (rounds ≠ [] → (e.turn errand payload memory o).FailsLast o.now rounds) := by
  have hagrees : e.Agrees := .of_built he.graph hg he.history.agrees
  have hbuilt : e.state = .started → e.graph ≠ none := fun _ => by simp [he.graph]
  rcases turn_cases hagrees hbuilt errand payload memory o with
    ⟨reply, hdeclines⟩ | ⟨state, rfl | ⟨g', a, origin, handler, hrun, hturn⟩⟩
  · rw [turn_of_declines hagrees hbuilt hdeclines]
    exact ⟨[], ⟨rfl, .rest fun value => hdeclines.payload_eq⟩, fun h => absurd rfl h⟩
  · have hforward :
        e.turn .advance payload memory o = forward o.now o.limit [] e payload memory := by
      simp [turn, advance, isIn, checkStarted, state]
    obtain ⟨rounds, hcomprises, hfails⟩ := forward_failsLast hg o.now o.limit he payload memory
    rw [hforward]
    exact ⟨rounds, hcomprises, fun _ => hfails⟩
  · let r : Round σ := ⟨e, memory, ⟨a, origin, handler, payload⟩⟩
    obtain ⟨rounds, hcomprises, hfails⟩ := failsLast_followed (r := r) ⟨g', hrun⟩
      fun value => forward_failsLast hg o.now o.limit
        (he.dispatch hg a.id origin handler payload memory o.now) value _
    rw [hturn, runWith_of_started state]
    exact ⟨rounds, hcomprises, fun _ => hfails⟩

/-! ## Whatever is done to an engine -/

/-- Starting an engine that is ready is all that makes it started. -/
theorem startIfReady_started {e : Engine σ} (built : e.state = .started → e.graph ≠ none)
    (now : Instant) (state : (e.startIfReady now).state = .started) :
    (e.startIfReady now).graph ≠ none := by
  rw [(startIfReady_frame e now).1]
  unfold startIfReady at state
  split at state
  · next hready =>
    have hgraph : e.graph.isSome = true := by
      simp only [isReady, Bool.and_eq_true] at hready
      exact hready.1.1
    exact Option.isSome_iff_ne_none.mp hgraph
  · exact built state

/-- A call does not make an engine without a process started. -/
theorem after_started {e : Engine σ} (built : e.state = .started → e.graph ≠ none) (c : Call σ)
    (state : (e.after c).state = .started) : (e.after c).graph ≠ none := by
  let P : Engine σ → Prop := fun e => e.state = .started → e.graph ≠ none
  -- Without a process nothing runs.
  have hdispatch : ∀ (e : Engine σ) id origin handler payload memory now, P e → True →
      (e.dispatch id origin handler payload memory now).HoldsUnless (fun _ => False) P := by
    intro e id origin handler payload memory now he _
    refine .inl fun hstarted => ?_
    rw [(dispatch_frame e id origin handler payload memory now).1]
    intro hnone
    have hrefused : e.toRun id = .error .notInitialized := by simp [toRun, hnone]
    rw [dispatch_refused hrefused] at hstarted
    exact he hstarted hnone
  have hany : ∀ (e : Engine σ) handler, P e → e.Serves handler → True := fun _ _ _ _ => trivial
  cases c with
  | run name payload memory o =>
    exact (run_keeps _ hany hdispatch (P := P) built name payload memory o).holds state
  | execute id handler payload memory o =>
    exact (runWith_keeps _ hany hdispatch (P := P) built trivial id .given payload memory o).holds
      state
  | advance payload memory o =>
    exact (advance_keeps _ hany hdispatch (P := P) built payload memory o).holds state
  | start now =>
    rw [(after_frame e (.start now)).1]
    simp only [after, start] at state
    split at state
    · next hready =>
      exact Option.isSome_iff_ne_none.mp (Bool.and_eq_true_iff.mp hready).1
    · exact built state
  | pause now => rw [after, pause, set, Engine.state, Course.state_set] at state; cases state
  | stop now => rw [after, stop, set, Engine.state, Course.state_set] at state; cases state
  | cancel now => rw [after, cancel, set, Engine.state, Course.state_set] at state; cases state

/-- A started engine has a process. -/
theorem Arises.built_of_started {e : Engine σ} (h : e.Arises) :
    e.state = .started → e.graph ≠ none := by
  induction h with
  | made now => intro state; cases state
  | built before h ih =>
    obtain ⟨g, -, hgraph, -⟩ := build_ok h
    simp [hgraph]
  | @bound e before handlers now ih =>
    exact startIfReady_started (e := { e with handlers := some handlers }) ih now
  | called before c ih => exact after_started ih c
  | editedById before h ih =>
    obtain ⟨a, b, -, -, rfl⟩ := editById_ok h
    exact ih
  | editedByName before h ih =>
    obtain ⟨a, b, -, -, rfl⟩ := editByName_ok h
    exact ih
  | @restored e e' s before h ih =>
    cases hgraph : e.graph with
    | none =>
      unfold restore at h
      rw [hgraph] at h
      cases h
    | some g =>
      obtain ⟨history, -, rfl⟩ := restore_ok hgraph h
      simp [hgraph]

/-- After something has run, an error with which an engine answers when it has nothing to run comes
only from the handler that was called last, if the ids of the live activities were distinct. -/
theorem Agrees.returns {e : Engine σ} (agrees : e.Agrees)
    (built : e.state = .started → e.graph ≠ none) (unique : (e.history.head.map (·.id)).Nodup)
    (errand : Errand σ) (payload : Json) (memory : σ) (o : Occasion) :
    ∃ rounds, (e.turn errand payload memory o).Comprises o.now e payload memory rounds ∧
      ∀ err last, (e.turn errand payload memory o).reply = .error err → err.Declines →
        rounds.getLast? = some last → last.Returns o.now (.error err) := by
  cases hgraph : e.graph with
  | none =>
    -- Without a process the engine is not started, and nothing runs.
    rcases turn_cases agrees built errand payload memory o with ⟨reply, hdeclines⟩ | ⟨state, -⟩
    · rw [turn_of_declines agrees built hdeclines]
      exact ⟨[], ⟨rfl, .rest fun value => hdeclines.payload_eq⟩, fun _ _ _ _ h => nomatch h⟩
    · exact absurd hgraph (built state)
  | some g =>
    obtain ⟨hg, hlive, hcompleted⟩ := agrees.built g hgraph
    obtain ⟨rounds, hcomprises, hfails⟩ := turn_failsLast hg
      (e := e) ⟨hgraph, unique, hlive, hcompleted⟩ errand payload memory o
    refine ⟨rounds, hcomprises, fun err last hreply hdeclines hlast => ?_⟩
    have hmem : last ∈ rounds := List.mem_of_getLast? hlast
    have hrounds := (hcomprises.plays.keeps (P := fun _ => True) (fun _ _ _ => trivial) trivial).2
    obtain ⟨last', hlast', hleft⟩ := hfails (List.ne_nil_of_mem hmem) err hreply
    obtain rfl : last = last' := Option.some.inj (hlast.symm.trans hlast')
    exact returns_of_declines (hrounds last hmem).1 hleft hdeclines

/-- What is refused changes nothing.  A change that is refused leaves every part of the engine as it
was, and so does a call that calls no handler.  Where there is nothing to run for a call, it calls
none and gives the answer that is due; otherwise the engine is started, and what was asked for is
run.  After that, if the ids of the live activities were distinct, such an error comes only from the
handler that was called last. -/
theorem Arises.declined {e : Engine σ} (arises : e.Arises) :
    (∀ c err e', (assign c).run e = .error err e' ↔ e' = e ∧ e.change c = .error err) ∧
      ∀ errand payload memory o,
        (∀ reply, e.Declines payload errand reply →
          e.turn errand payload memory o = ⟨e, memory, reply, []⟩) ∧
        ((∀ reply, ¬ e.Declines payload errand reply) → e.state = .started ∧
          (errand = .advance ∨ (e.turn errand payload memory o).invocations ≠ [])) ∧
        ((e.turn errand payload memory o).invocations = [] →
          (e.turn errand payload memory o).engine = e ∧
            (e.turn errand payload memory o).memory = memory) ∧
        ((e.history.head.map (·.id)).Nodup →
          ∃ rounds, (e.turn errand payload memory o).Comprises o.now e payload memory rounds ∧
            ∀ err last, (e.turn errand payload memory o).reply = .error err → err.Declines →
              rounds.getLast? = some last → last.Returns o.now (.error err)) := by
  have hagrees := arises.agrees
  have hbuilt := arises.built_of_started
  refine ⟨fun c err e' => ?_, fun errand payload memory o => ⟨fun reply h => ?_, fun h => ?_,
    fun hnone => ?_, fun unique => ?_⟩⟩
  · rw [run_assign]
    cases e.change c with
    | ok changed => simp
    | error err' => simp [eq_comm, and_comm]
  · exact turn_of_declines hagrees hbuilt h memory o
  · rcases turn_cases hagrees hbuilt errand payload memory o with
      ⟨reply, hdeclines⟩ | ⟨state, hadvance | ⟨g, a, origin, handler, hrun, hturn⟩⟩
    · exact absurd hdeclines (h reply)
    · exact ⟨state, .inl hadvance⟩
    · exact ⟨state, .inr (hturn ▸ invocations_runWith state hrun origin handler payload memory o)⟩
  · obtain ⟨rounds, ⟨hinvocations, hplays⟩, -⟩ := turn_rounds hagrees errand payload memory o
    obtain rfl : rounds = [] := List.map_eq_nil_iff.mp (hinvocations ▸ hnone)
    exact hplays.of_nil
  · exact hagrees.returns hbuilt unique errand payload memory o

/-- A handler that claims that the engine has finished. -/
def misled : Handler Unit := fun _ _ memory => .done (memory, .error (.error .alreadyFinished))

/-- An engine where two branches wait is not changed by a document that has no start event, nor by
the name of nobody, and that it has finished is what a handler says. -/
theorem declined_diamond :
    let e := diamond.after (.advance .null () ⟨.epoch, 9⟩)
    (assign (.build { id := "empty" } .epoch)).run e = .error .missingStartEvent e ∧
      e.turn (.run "Nobody") .null () ⟨.epoch, 9⟩ =
        ⟨e, (), .error (.runTargetNotFound "Nobody"), []⟩ ∧
      ∃ rounds last, (e.turn (.execute "left" misled) .null () ⟨.epoch, 9⟩).Comprises .epoch e .null
          () rounds ∧
        rounds.getLast? = some last ∧ last.Returns .epoch (.error .alreadyFinished) := by
  intro e
  have harises : e.Arises := .called (arises_ofProcess ..) _
  obtain ⟨hchanges, hcalls⟩ := Arises.declined harises
  obtain ⟨hnobody, -, -, -⟩ := hcalls (.run "Nobody") .null () ⟨.epoch, 9⟩
  obtain ⟨-, -, -, hmisled⟩ := hcalls (.execute "left" misled) .null () ⟨.epoch, 9⟩
  have hids : e.history.head.map (·.id) = ["left", "right"] := rfl
  obtain ⟨rounds, hcomprises, hlast⟩ := hmisled (by rw [hids]; decide)
  have hone : rounds.length = 1 := by
    rw [← List.length_map, ← hcomprises.invocations]
    rfl
  obtain ⟨last, rfl⟩ := List.length_eq_one_iff.mp hone
  have hnames : e.history.head.map (·.name) = [some "Left", some "Right"] := rfl
  have hmissing : ∀ a ∈ e.history.head, a.name ≠ some "Nobody" := by
    intro a ha hname
    have hmem : some "Nobody" ∈ e.history.head.map (·.name) := hname ▸ List.mem_map_of_mem ha
    rw [hnames] at hmem
    simp at hmem
  exact ⟨(hchanges _ _ _).mpr ⟨rfl, rfl⟩, hnobody _ (.runMissing (by decide) hmissing),
    [last], last, hcomprises, rfl, hlast _ _ rfl trivial rfl⟩

end Engine

end Workflow
