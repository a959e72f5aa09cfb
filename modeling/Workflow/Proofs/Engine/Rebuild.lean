import Workflow.Proofs.Engine.Alike

/-!
# Building anew

Building a process into an engine that has been used drops what was live and what was completed, and
leaves the handlers and the state as they are; only an engine that has never been started is started
by it.  So an engine that is started goes on as a new one would, whatever it ran before: asked the
same, it answers the same, with the same branches and the same log, but for the instants
(`Engine.build_discards`).  Its handlers may be any if it is asked at the same instants, and then
nothing differs at all (`Engine.build_discards_exactly`).

An engine that has finished stays so when a process is built.  It refuses runs and ignores every
other call until it is started again (`Linear.not_forall_build_discards`), and from then on it goes
on as a new one would as well.
-/

namespace Workflow

variable {σ : Type} {f : Instant → Instant}

/-- An errand that an engine is sent on, with a payload and the circumstances. -/
structure Commission (σ : Type) where
  /-- What is asked. -/
  errand : Errand σ
  /-- The payload. -/
  payload : Json
  /-- When it is asked, and how far the engine may go forward. -/
  occasion : Occasion

/-- What an engine that has finished answers to an errand with a payload: runs by name are refused,
and everything else is ignored. -/
def Errand.declined (payload : Json) : Errand σ → Reply
  | .run _ => .error .alreadyFinished
  | _ => .payload payload

/-- Whether two commissions ask the same up to a change of instants that the handler, if the caller
brings one, is blind to. -/
structure Commission.Alike (f : Instant → Instant) (c c' : Commission σ) : Prop where
  /-- They ask the same. -/
  errand : c'.errand = c.errand
  /-- They come with the same payload. -/
  payload : c'.payload = c.payload
  /-- They let the engine go equally far. -/
  limit : c'.occasion.limit = c.occasion.limit
  /-- They come at the same instant up to the change. -/
  now : f c'.occasion.now = f c.occasion.now
  /-- A handler that the caller brings is blind to the change. -/
  blind : ∀ id handler, c.errand = .execute id handler → handler.Blind f

/-- A commission asks the same as itself, whatever handler the caller brings. -/
theorem Commission.alike_self (c : Commission σ) : c.Alike (fun t => t) c :=
  ⟨rfl, rfl, rfl, rfl, fun _ handler _ => handler.blind_id⟩

/-- What a caller sees of a turn: the answer, the memory, the calls of handlers, the state of the
engine, and its branches and log. -/
def Turn.outcome (turn : Turn σ) : Reply × σ × List (Invocation σ) × RunState × History :=
  (turn.reply, turn.memory, turn.invocations, turn.engine.state, turn.engine.history)

/-- Turns that are alike up to no change have the same outcome. -/
theorem Turn.Alike.outcome_eq {turn turn' : Turn σ} (h : turn.Alike (fun t => t) turn') :
    turn'.outcome = turn.outcome := by
  have hinvocations : turn'.invocations = turn.invocations := by simpa using h.invocations
  have hhistory : turn'.engine.history = turn.engine.history := by simpa using h.engine.history
  unfold outcome
  rw [h.reply, h.memory, hinvocations, h.engine.state, hhistory]

namespace Engine

variable {p : Document} {g : Graph}

/-- The turns in which an engine carries out commissions, one after another. -/
def session (e : Engine σ) (memory : σ) : List (Commission σ) → List (Turn σ)
  | [] => []
  | c :: cs =>
    let turn := e.turn c.errand c.payload memory c.occasion
    turn :: turn.engine.session turn.memory cs

/-- A turn keeps the handlers. -/
theorem handlers_turn (e : Engine σ) (errand : Errand σ) (payload : Json) (memory : σ)
    (o : Occasion) : (e.turn errand payload memory o).engine.handlers = e.handlers := by
  cases errand with
  | advance => exact (after_frame e (.advance payload memory o)).2
  | run name => exact (after_frame e (.run name payload memory o)).2
  | execute id handler => exact (after_frame e (.execute id handler payload memory o)).2

/-- A finished engine declines every errand, and nothing changes. -/
theorem turn_finished {e : Engine σ} (h : e.state = .finished) (errand : Errand σ) (payload : Json)
    (memory : σ) (o : Occasion) :
    e.turn errand payload memory o = ⟨e, memory, errand.declined payload, []⟩ := by
  have hin : e.isIn .finished = true := by rw [isIn, h]; rfl
  cases errand with
  | advance =>
    show e.advance payload memory o = _
    rw [advance, if_pos hin]
    rfl
  | run name =>
    show e.run name payload memory o = _
    rw [run, if_pos hin]
    rfl
  | execute id handler =>
    show e.runWith id .given handler payload memory o = _
    rw [runWith, if_pos hin]
    rfl

/-- Alike engines carry out alike commissions alike. -/
theorem Alike.session {e e' : Engine σ} (he : e.Alike f e')
    (blind : ∀ table, e.handlers = some table → ∀ handler, table.Has handler → handler.Blind f)
    {cs cs' : List (Commission σ)} (hcs : List.Forall₂ (Commission.Alike f) cs cs') (memory : σ) :
    List.Forall₂ (Turn.Alike f) (e.session memory cs) (e'.session memory cs') := by
  induction hcs generalizing e e' memory with
  | nil => exact .nil
  | @cons c c' cs cs' hc hrest ih =>
    have hturn := he.turn blind hc.now hc.limit hc.blind c.payload memory
    unfold Engine.session
    rw [hc.errand, hc.payload]
    refine .cons hturn ?_
    rw [hturn.memory]
    refine ih hturn.engine (fun table htable => blind table ?_) _
    rw [← htable, handlers_turn]

/-- Building a process into an engine that was started before changes the process and the history
and nothing else. -/
theorem build_eq {e : Engine σ} (started : e.state ≠ .init) (compiled : p.compile = .ok g)
    (now : Instant) :
    e.build p now =
      .ok { e with graph := some g, history := { head := [g.start.instantiate now] } } := by
  have hin : e.isIn .init = false := by
    rw [isIn, beq_eq_false_iff_ne]
    exact started
  have hin' : isIn { e with graph := some g, history := { head := [g.start.instantiate now] } }
      .init = false := hin
  unfold build startIfReady
  rw [compiled]
  simp only [hin', Bool.and_false, Bool.false_eq_true, if_false]

/-- A process that compiles can be built into an engine that was started before, and a new engine
can be made for it. -/
theorem exists_built {e : Engine σ} (used : e.state = .started ∨ e.state = .finished)
    (compiled : p.compile = .ok g) (table : HandlerTable (Handler σ)) (now now' : Instant) :
    ∃ b e', e.build p now = .ok b ∧ withProcess p table now' = .ok e' ∧
      b.graph = some g ∧ b.handlers = e.handlers ∧ b.state = e.state ∧
      b.history = { head := [g.start.instantiate now] } := by
  have hstarted : e.state ≠ .init := by
    rcases used with h | h
    · rw [h]; nofun
    · rw [h]; nofun
  obtain ⟨e', hmade⟩ : ∃ e', withProcess p table now' = .ok e' :=
    exists_withProcess_iff.mpr ⟨g, compiled⟩
  exact ⟨_, e', build_eq hstarted compiled now, hmade, rfl, rfl, rfl, rfl⟩

/-- An engine with a process and handlers can be started in any state. -/
theorem start_built {b : Engine σ} {table : HandlerTable (Handler σ)} (built : b.graph = some g)
    (bound : b.handlers = some table) (now : Instant) :
    b.start now = .ok (b.set .started now) := by
  have hready : b.isReady = true := by
    unfold isReady
    rw [built, bound]
    rfl
  rw [start, if_pos hready]

section Session

variable {s e' : Engine σ} {table : HandlerTable (Handler σ)} {now now' : Instant}

/-- An engine with handlers that is started, and in which nothing but the start event of a process
is live and nothing is completed, is alike to a new one for the process. -/
theorem alike_new (bound : s.handlers = some table) (started : s.state = .started)
    (built : s.graph = some g) (history : s.history = { head := [g.start.instantiate now] })
    (compiled : p.compile = .ok g) (made : withProcess p table now' = .ok e')
    (hnow : f now' = f now) : s.Alike f e' := by
  obtain ⟨g', compiled', hgraph, hhistory, hhandlers, hstate⟩ := withProcess_ok made
  obtain rfl : g = g' := Except.ok.inj (compiled.symm.trans compiled')
  refine ⟨hgraph.trans built.symm, hhandlers.trans bound.symm, hstate.trans started.symm, ?_⟩
  rw [history, hhistory]
  simp only [History.retime, List.map_cons, List.map_nil, Activity.retime_instantiate, hnow]

/-- So it carries out every sequence of commissions as the new one does. -/
theorem session_new (bound : s.handlers = some table) (started : s.state = .started)
    (built : s.graph = some g) (history : s.history = { head := [g.start.instantiate now] })
    (compiled : p.compile = .ok g) (made : withProcess p table now' = .ok e')
    (hnow : f now' = f now) (blind : ∀ handler, table.Has handler → handler.Blind f) (memory : σ)
    {cs cs' : List (Commission σ)} (hcs : List.Forall₂ (Commission.Alike f) cs cs') :
    List.Forall₂ (Turn.Alike f) (s.session memory cs) (e'.session memory cs') := by
  refine (alike_new bound started built history compiled made hnow).session ?_ hcs memory
  intro table' htable
  rw [bound] at htable
  cases htable
  exact blind

/-- So does one in any state when it has been started again, which changes its state alone. -/
theorem session_again (bound : s.handlers = some table) (built : s.graph = some g)
    (history : s.history = { head := [g.start.instantiate now] }) (compiled : p.compile = .ok g)
    (made : withProcess p table now' = .ok e') (hnow : f now' = f now)
    (blind : ∀ handler, table.Has handler → handler.Blind f) (again : Instant) :
    ∃ s', s.start again = .ok s' ∧
      ∀ memory cs cs', List.Forall₂ (Commission.Alike f) cs cs' →
        List.Forall₂ (Turn.Alike f) (s'.session memory cs) (e'.session memory cs') := by
  refine ⟨_, start_built built bound again, fun memory cs cs' hcs => ?_⟩
  have hstarted : (s.set .started again).state = .started := Course.state_set ..
  exact session_new (s := s.set .started again) bound hstarted built history compiled made hnow
    blind memory hcs

end Session

/-- Building discards the previous run.  When a process that compiles is built into an engine that
has handlers and is started or has finished, nothing is live but its start event, which is entered,
nothing is completed, and the state is as before.  If the engine is started, every sequence of
commissions has the same answers, branches, logs and calls of handlers as on a new engine with the
process and the handlers.  If it has finished, it declines every errand and nothing changes until it
is started again, and from then on the same holds as for one that was started.

All this is up to a change `f` of instants that the handlers are blind to.  If `f` changes nothing,
they may be any handlers, and the sequences are at the same instants; if `f` forgets all
differences, the sequences may be at any instants. -/
theorem build_discards {e : Engine σ} {table : HandlerTable (Handler σ)}
    (bound : e.handlers = some table) (used : e.state = .started ∨ e.state = .finished)
    (compiled : p.compile = .ok g) (blind : ∀ handler, table.Has handler → handler.Blind f)
    {now now' : Instant} (hnow : f now' = f now) :
    ∃ b e', e.build p now = .ok b ∧ withProcess p table now' = .ok e' ∧
      b.history = { head := [g.start.instantiate now] } ∧ b.state = e.state ∧
      (e.state = .started → ∀ memory cs cs', List.Forall₂ (Commission.Alike f) cs cs' →
        List.Forall₂ (Turn.Alike f) (b.session memory cs) (e'.session memory cs')) ∧
      (e.state = .finished →
        (∀ errand payload memory o,
          b.turn errand payload memory o = ⟨b, memory, errand.declined payload, []⟩) ∧
        ∀ again, ∃ s, b.start again = .ok s ∧
          ∀ memory cs cs', List.Forall₂ (Commission.Alike f) cs cs' →
            List.Forall₂ (Turn.Alike f) (s.session memory cs) (e'.session memory cs')) := by
  obtain ⟨b, e', hbuild, hmade, hgraph, hhandlers, hstate, hhistory⟩ :=
    exists_built used compiled table now now'
  have hbound : b.handlers = some table := hhandlers.trans bound
  refine ⟨b, e', hbuild, hmade, hhistory, hstate, ?_, fun finished => ?_⟩
  · exact fun started memory cs cs' hcs => session_new hbound (hstate.trans started) hgraph hhistory
      compiled hmade hnow blind memory hcs
  · exact ⟨turn_finished (hstate.trans finished),
      session_again hbound hgraph hhistory compiled hmade hnow blind⟩

/-- Building discards the previous run without a trace, whatever the handlers look at.  When a
process that compiles is built into an engine that has handlers and is started, or into one that has
finished and is then started again, every sequence of commissions has the very outcomes that it has
at the same instants on a new engine that is made when the process is built. -/
theorem build_discards_exactly {e : Engine σ} {table : HandlerTable (Handler σ)}
    (bound : e.handlers = some table) (used : e.state = .started ∨ e.state = .finished)
    (compiled : p.compile = .ok g) (now : Instant) :
    ∃ b e', e.build p now = .ok b ∧ withProcess p table now = .ok e' ∧
      ∀ s, (e.state = .started ∧ s = b) ∨
          (e.state = .finished ∧ ∃ again, b.start again = .ok s) →
        ∀ memory cs, (s.session memory cs).map Turn.outcome =
          (e'.session memory cs).map Turn.outcome := by
  obtain ⟨b, e', hbuild, hmade, hgraph, hhandlers, hstate, hhistory⟩ :=
    exists_built used compiled table now now
  have hbound : b.handlers = some table := hhandlers.trans bound
  refine ⟨b, e', hbuild, hmade, fun s hs memory cs => ?_⟩
  have hcs : List.Forall₂ (Commission.Alike fun t => t) cs cs :=
    List.forall₂_same.mpr fun c _ => c.alike_self
  have hblind : ∀ handler, table.Has handler → handler.Blind fun t => t :=
    fun handler _ => handler.blind_id
  have hsessions : List.Forall₂ (Turn.Alike fun t => t) (s.session memory cs)
      (e'.session memory cs) := by
    rcases hs with ⟨started, rfl⟩ | ⟨-, again, hstart⟩
    · exact session_new hbound (hstate.trans started) hgraph hhistory compiled hmade rfl hblind
        memory hcs
    · obtain ⟨s', hs', hsession⟩ :=
        session_again hbound hgraph hhistory compiled hmade rfl hblind again
      cases hs'.symm.trans hstart
      exact hsession memory cs cs hcs
  have houtcomes : List.Forall₂ (· = ·) ((s.session memory cs).map Turn.outcome)
      ((e'.session memory cs).map Turn.outcome) := by
    rw [List.forall₂_map_left_iff, List.forall₂_map_right_iff]
    exact hsessions.imp fun _ _ h => h.outcome_eq.symm
  rwa [List.forall₂_eq_eq_eq] at houtcomes

end Engine

/-! ## An engine that has finished -/

namespace Linear

/-- A process without branches. -/
def process : Builder :=
  ({ id := "linear" } : Builder)
    |>.start "start" "Start" |>.finish "end" "End" |>.task .normal "work" "Work"
    |>.flow "f_start" "start" "work" |>.flow "f_end" "work" "end"

/-- An engine for the process, without handlers of its own. -/
def ready : Engine Unit := .ofProcess process.build {}

/-- The engine when it has finished. -/
def finished : Engine Unit := ready.after (.advance .null () ⟨.epoch, 9⟩)

/-- The compiled process. -/
def graph : Graph := ready.compiled

/-- A later instant. -/
def later : Instant where
  year := 1971
  month := 1
  day := 1
  hour := 0
  minute := 0
  second := 0
  nano := 0
  civil := by decide

/-- The change that forgets all differences between instants. -/
def forget : Instant → Instant := fun _ => .epoch

/-- A run of the start event at an instant. -/
def begins (now : Instant) : Commission Unit := ⟨.run "Start", .null, ⟨now, 9⟩⟩

/-- With the process built anew, the finished engine refuses a run.  When it has been started again,
the run is as on a new engine, whose process is built later. -/
theorem build_discards_finished :
    ∃ b e' s, finished.build process.build .epoch = .ok b ∧
      Engine.withProcess process.build {} later = .ok e' ∧ b.start .epoch = .ok s ∧
      b.history = { head := [graph.start.instantiate .epoch] } ∧
      (b.turn (.run "Start") .null () ⟨.epoch, 9⟩).reply = .error .alreadyFinished ∧
      List.Forall₂ (Turn.Alike forget) (s.session () [begins .epoch])
        (e'.session () [begins later]) := by
  have hblind : ∀ handler, ({} : HandlerTable (Handler Unit)).Has handler →
      handler.Blind forget := by
    rintro handler ⟨_, _, _, hfind, _⟩
    cases hfind
  have hcompiled : process.build.compile = .ok graph := rfl
  have hfinished : finished.state = .finished := rfl
  have hbound : finished.handlers = some {} := rfl
  have hnow : forget later = forget .epoch := rfl
  obtain ⟨b, e', hbuild, hmade, hhistory, -, -, hrest⟩ :=
    Engine.build_discards hbound (.inr hfinished) hcompiled hblind hnow
  obtain ⟨hturn, hstart⟩ := hrest hfinished
  obtain ⟨s, hs, hsession⟩ := hstart .epoch
  have halike : Commission.Alike forget (begins .epoch) (begins later) :=
    ⟨rfl, rfl, rfl, rfl, nofun⟩
  refine ⟨b, e', s, hbuild, hmade, hs, hhistory, ?_, hsession () _ _ (.cons halike .nil)⟩
  rw [hturn]
  rfl

/-- So building does not always discard the previous run: the engine that has finished refuses the
run that a new one carries out. -/
theorem not_forall_build_discards :
    ¬ ∀ (e b e' : Engine Unit) (p : Document) (table : HandlerTable (Handler Unit))
      (now : Instant) (memory : Unit) (cs : List (Commission Unit)), e.Arises →
      e.handlers = some table → e.state = .started ∨ e.state = .finished →
      e.build p now = .ok b → Engine.withProcess p table now = .ok e' →
      List.Forall₂ (fun turn turn' : Turn Unit => turn'.reply = turn.reply ∧
        turn'.engine.history.retime forget = turn.engine.history.retime forget)
        (b.session memory cs) (e'.session memory cs) := by
  intro claim
  have hmade : Engine.withProcess process.build {} .epoch = .ok ready :=
    Engine.withProcess_ofProcess rfl _
  have harises : finished.Arises := .called (Engine.arises_ofProcess ..) _
  obtain ⟨b, hbuild⟩ : ∃ b, finished.build process.build .epoch = .ok b := ⟨_, rfl⟩
  have hsessions := claim finished b ready process.build {} .epoch () [begins .epoch] harises rfl
    (.inr rfl) hbuild hmade
  obtain ⟨⟨hreply, -⟩, -⟩ := List.forall₂_cons.mp hsessions
  have hfresh : (ready.turn (.run "Start") .null () ⟨.epoch, 9⟩).reply = .payload .null := rfl
  have hrefused : (b.turn (.run "Start") .null () ⟨.epoch, 9⟩).reply = .error .alreadyFinished := by
    cases hbuild
    rfl
  have hsame := hfresh.symm.trans (hreply.trans hrefused)
  cases hsame

end Linear

end Workflow
