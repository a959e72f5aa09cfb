import Workflow.Document.Builder
import Workflow.Proofs.Engine.Calls
import Workflow.Proofs.History.Coherent

/-!
# The engines of a process

`Engine.Runs p e` says that `e` may come about in the use of a process `p`: engines are made for the
process, called in any order with any handlers, given other handlers, edited from outside, built
again, and restored from what another such engine has saved.  A call may stop at its limit, so the
engines between two activities of one call are among them.

`Engine.RunsUnder` is the part of that use in which an engine is called and edited on some terms:
what the handlers may do, and which edits may be made.

All engines of a process are coherent with the compiled process (`Engine.Runs.coherent`).  In
particular no two of their live activities share an id (`Engine.Runs.head_unique`), which is what
every lookup of a live activity by its id relies on.
-/

namespace Workflow

namespace Engine

variable {σ : Type} {p : Document} {g : Graph}

/-- The engines that may come about in the use of a process. -/
inductive Runs (p : Document) : {σ : Type} → Engine σ → Prop where
  /-- An engine made for the process. -/
  | made {σ : Type} {handlers : HandlerTable (Handler σ)} {now : Instant} {e : Engine σ}
      (h : withProcess p handlers now = .ok e) : Runs p e
  /-- An engine that was called, whatever the call answered. -/
  | called {σ : Type} {e : Engine σ} (before : Runs p e) (c : Call σ) : Runs p (e.after c)
  /-- An engine with the process built again. -/
  | rebuilt {σ : Type} {e e' : Engine σ} {now : Instant} (before : Runs p e)
      (h : e.build p now = .ok e') : Runs p e'
  /-- An engine with other handlers. -/
  | bound {σ : Type} {e : Engine σ} (before : Runs p e) (handlers : HandlerTable (Handler σ))
      (now : Instant) : Runs p (e.bind handlers now)
  /-- An engine with a live activity of an id edited. -/
  | editedById {σ : Type} {e e' : Engine σ} {id : String} {edit : Edit} {now : Instant}
      (before : Runs p e) (h : e.editById id edit now = .ok e') : Runs p e'
  /-- An engine with a live activity of a name edited. -/
  | editedByName {σ : Type} {e e' : Engine σ} {name : String} {edit : Edit} {now : Instant}
      (before : Runs p e) (h : e.editByName name edit now = .ok e') : Runs p e'
  /-- An engine restored from what another one has saved. -/
  | restored {σ τ : Type} {e e' : Engine σ} {d : Engine τ} (before : Runs p e) (saved : Runs p d)
      (h : e.restore d.save = .ok e') : Runs p e'

/-- The terms on which the engines of a process are used. -/
structure Terms where
  /-- The actions that handlers keep to, registered ones and those that callers bring. -/
  actions : Step.Action → Prop
  /-- The edits of live activities from outside. -/
  edits : Edit → Prop

/-- The engines that calls and edits of live activities lead to from one made for a process, on some
terms. -/
inductive RunsUnder (terms : Terms) (p : Document) : {σ : Type} → Engine σ → Prop where
  /-- An engine made for the process. -/
  | made {σ : Type} {handlers : HandlerTable (Handler σ)} {now : Instant} {e : Engine σ}
      (within : ∀ handler, handlers.Has handler → handler.Within terms.actions)
      (h : withProcess p handlers now = .ok e) : RunsUnder terms p e
  /-- An engine that was called, whatever the call answered. -/
  | called {σ : Type} {e : Engine σ} (before : RunsUnder terms p e) (c : Call σ)
      (within : ∀ handler, c.handler? = some handler → handler.Within terms.actions) :
      RunsUnder terms p (e.after c)
  /-- An engine with a live activity of an id edited. -/
  | editedById {σ : Type} {e e' : Engine σ} {id : String} {edit : Edit} {now : Instant}
      (before : RunsUnder terms p e) (may : terms.edits edit)
      (h : e.editById id edit now = .ok e') : RunsUnder terms p e'
  /-- An engine with a live activity of a name edited. -/
  | editedByName {σ : Type} {e e' : Engine σ} {name : String} {edit : Edit} {now : Instant}
      (before : RunsUnder terms p e) (may : terms.edits edit)
      (h : e.editByName name edit now = .ok e') : RunsUnder terms p e'

/-- The engines of a process that is only called, with handlers that keep to some actions. -/
abbrev RunsWithin (allowed : Step.Action → Prop) (p : Document) (e : Engine σ) : Prop :=
  e.RunsUnder ⟨allowed, fun _ => False⟩ p

/-- The engines of a process that is called, with handlers that keep to some actions, and edited in
any way. -/
abbrev UsedWithin (allowed : Step.Action → Prop) (p : Document) (e : Engine σ) : Prop :=
  e.RunsUnder ⟨allowed, fun _ => True⟩ p

/-- Starting changes at most the course. -/
theorem startIfReady_frame (e : Engine σ) (now : Instant) :
    (e.startIfReady now).graph = e.graph ∧ (e.startIfReady now).history = e.history ∧
      (e.startIfReady now).handlers = e.handlers := by
  unfold startIfReady
  split <;> exact ⟨rfl, rfl, rfl⟩

/-- A built engine has the compiled process, with the start event live and nothing completed. -/
theorem build_ok {e e' : Engine σ} {now : Instant} (h : e.build p now = .ok e') :
    ∃ g, p.compile = .ok g ∧ e'.graph = some g ∧
      e'.history = { head := [g.start.instantiate now] } ∧ e'.handlers = e.handlers := by
  unfold build at h
  split at h
  · cases h
  · next g hg =>
    cases h
    obtain ⟨hgraph, hhistory, hhandlers⟩ := startIfReady_frame
      { e with graph := some g, history := { head := [g.start.instantiate now] } } now
    exact ⟨g, hg, hgraph, hhistory, hhandlers⟩

/-- A new engine has the compiled process and the handlers, with the start event live, and it is
started. -/
theorem withProcess_ok {handlers : HandlerTable (Handler σ)} {now : Instant} {e : Engine σ}
    (h : withProcess p handlers now = .ok e) :
    ∃ g, p.compile = .ok g ∧ e.graph = some g ∧
      e.history = { head := [g.start.instantiate now] } ∧ e.handlers = some handlers ∧
      e.state = .started := by
  unfold withProcess at h
  split at h
  · cases h
  · next e₀ hbuild =>
    cases h
    unfold build at hbuild
    split at hbuild
    · cases hbuild
    · next g hg =>
      -- Without handlers the engine waits, and it starts when they are bound.
      cases hbuild
      refine ⟨g, hg, rfl, rfl, rfl, ?_⟩
      simp [bind, startIfReady, isReady, isIn, state, new, set]

/-- An engine is made for a process just when the process compiles. -/
theorem exists_withProcess_iff {handlers : HandlerTable (Handler σ)} {now : Instant} :
    (∃ e, withProcess p handlers now = .ok e) ↔ ∃ g, p.compile = .ok g := by
  constructor
  · rintro ⟨e, h⟩
    obtain ⟨g, hg, -⟩ := withProcess_ok h
    exact ⟨g, hg⟩
  · rintro ⟨g, hg⟩
    unfold withProcess build
    simp only [hg]
    exact ⟨_, rfl⟩

/-- An edit by id that is not refused changes the live activity that is found. -/
theorem editById_ok {e e' : Engine σ} {id : String} {edit : Edit} {now : Instant}
    (h : e.editById id edit now = .ok e') :
    ∃ a b, e.history.headById? id = some a ∧ a.edit now edit = .ok b ∧
      e' = { e with history := e.history.updateById id fun _ => b } := by
  unfold editById headById at h
  cases ha : e.history.headById? id with
  | none => rw [ha] at h; cases h
  | some a =>
    rw [ha] at h
    dsimp only at h
    split at h
    · cases h
    · next b hb => cases h; exact ⟨a, b, rfl, hb, rfl⟩

/-- An edit by name that is not refused changes the live activity that is found. -/
theorem editByName_ok {e e' : Engine σ} {name : String} {edit : Edit} {now : Instant}
    (h : e.editByName name edit now = .ok e') :
    ∃ a b, e.history.headByName? name = some a ∧ a.edit now edit = .ok b ∧
      e' = { e with history := e.history.updateByName name fun _ => b } := by
  unfold editByName headByName at h
  cases ha : e.history.headByName? name with
  | none => rw [ha] at h; cases h
  | some a =>
    rw [ha] at h
    dsimp only at h
    split at h
    · cases h
    · next b hb => cases h; exact ⟨a, b, rfl, hb, rfl⟩

/-- Whether the engine has the process and a history that is coherent with it. -/
structure Coherent (g : Graph) (e : Engine σ) : Prop where
  /-- The process is built. -/
  graph : e.graph = some g
  /-- The history is coherent with it. -/
  history : e.history.Coherent g

/-- An engine whose only live activity is the start event is coherent. -/
theorem coherent_start (hg : g.WellFormed) {e : Engine σ} {now : Instant}
    (hgraph : e.graph = some g)
    (hhistory : e.history = { head := [g.start.instantiate now] }) : e.Coherent g := by
  refine ⟨hgraph, ?_⟩
  rw [hhistory]
  exact History.coherent_start hg now

/-- The step that a handler is given is coherent. -/
theorem Coherent.opened {e : Engine σ} (he : e.Coherent g) {id : String} {found : Activity}
    (hfound : e.history.headById? id = some found) (now : Instant) :
    (e.opened g found now).Coherent g where
  graph := rfl
  history := he.history
  activity := (he.history.live found (History.headById?_some hfound).1).of_blank
    (found.blank_set .started now)

/-- What a handler leaves keeps what is kept, and its activity is an instance of its definition. -/
theorem leave_kept {H : History → Prop} (hk : History.Kept g H) (hg : g.WellFormed) {e : Engine σ}
    (he : H e.history) {id : String} {found : Activity}
    (hfound : e.history.headById? id = some found) {allowed : Step.Action → Prop} {now : Instant}
    {st : Step} (hreach : Step.Reaches allowed (e.opened g found now) st) :
    g.Defines st.activity ∧ H (e.leave st).history := by
  have hactivity : g.Defines st.activity :=
    ((hk.agrees he).live found (History.headById?_some hfound).1).of_blank
      (hreach.frame.2.2.2.trans (found.blank_set .started now))
  exact ⟨hactivity, hk.writeBack (hreach.kept hk hg rfl he) hactivity⟩

/-- A dispatch keeps the process and what is kept of the history, whatever the handler does. -/
theorem dispatch_kept {H : History → Prop} (hk : History.Kept g H) (hg : g.WellFormed)
    {e : Engine σ} (hgraph : e.graph = some g) (he : H e.history) (id : String) (origin : Origin)
    (handler : Handler σ) (payload : Json) (memory : σ) (now : Instant) :
    (e.dispatch id origin handler payload memory now).engine.graph = some g ∧
      H (e.dispatch id origin handler payload memory now).engine.history := by
  refine ⟨(dispatch_frame e id origin handler payload memory now).1.trans hgraph, ?_⟩
  rcases dispatch_cases e id origin handler.within_all payload memory now with
    h | ⟨graph, found, st, hgraph', hfound, -, hreach, h⟩
  · rw [h]; exact he
  · obtain rfl : g = graph := Option.some.inj (hgraph.symm.trans hgraph')
    -- The copy that the handler works on stays an instance, and so does what is logged of it.
    obtain ⟨hactivity, hleft⟩ := leave_kept hk hg he hfound hreach
    rcases h with h | h
    · rw [h]; exact hleft
    · rw [h]
      rcases conclude_history (e.leave st) g st.activity now with
        h | ⟨-, h⟩ | ⟨-, -, h⟩ | ⟨route, a', -, hr, h⟩
      · rw [h]; exact hleft
      · rw [h]; exact hk.retire hleft hactivity
      · rw [h]; exact hk.writeBack hleft (hactivity.of_blank (st.activity.blank_set .paused now))
      · rw [h]; exact hk.onward hleft (hactivity.of_blank (Activity.blank_routes hr)) route now

/-- Going forward keeps what is kept. -/
theorem forward_kept {H : History → Prop} (hk : History.Kept g H) (hg : g.WellFormed)
    {e : Engine σ} (hgraph : e.graph = some g) (he : H e.history) (now : Instant) (limit : Nat)
    (settled : List String) (payload : Json) (memory : σ) :
    H (forward now limit settled e payload memory).engine.history := by
  let P : Engine σ → Prop := fun e => e.graph = some g ∧ H e.history
  have hdispatch : ∀ (e : Engine σ) id origin handler payload memory now, P e → True →
      (e.dispatch id origin handler payload memory now).HoldsUnless (fun _ => False) P := by
    rintro e id origin handler payload memory now ⟨hgraph, he⟩ -
    exact .inl (dispatch_kept hk hg hgraph he id origin handler payload memory now)
  have hforward : P (forward now limit settled e payload memory).engine :=
    (forward_keeps (fun _ => True) (fun _ _ _ _ => trivial) hdispatch now limit ⟨hgraph, he⟩).holds
  exact hforward.2

/-- A dispatch keeps the engine coherent, whatever the handler does. -/
theorem Coherent.dispatch (hg : g.WellFormed) {e : Engine σ} (he : e.Coherent g) (id : String)
    (origin : Origin) (handler : Handler σ) (payload : Json) (memory : σ) (now : Instant) :
    (e.dispatch id origin handler payload memory now).engine.Coherent g := by
  obtain ⟨hgraph, hhistory⟩ := dispatch_kept (History.kept_coherent hg) hg he.graph he.history id
    origin handler payload memory now
  exact ⟨hgraph, hhistory⟩

/-- A call keeps the engine coherent. -/
theorem Coherent.after (hg : g.WellFormed) {e : Engine σ} (he : e.Coherent g) (c : Call σ) :
    (e.after c).Coherent g :=
  after_keeps_any
    (fun _ id origin handler payload memory now h =>
      h.dispatch hg id origin handler payload memory now)
    (fun _ _ _ h => ⟨h.graph, h.history⟩) he c

/-- An edit from outside keeps the engine coherent. -/
theorem Coherent.edit {e : Engine σ} (he : e.Coherent g) {q : Activity → Bool} {a b : Activity}
    {edit : Edit} {now : Instant} (ha : e.history.head.find? q = some a)
    (hb : a.edit now edit = .ok b) :
    Coherent g { e with
      history := { e.history with head := updateFirst q (fun _ => b) e.history.head } } :=
  ⟨he.graph, he.history.updateFirst ha (Activity.blank_edit hb)⟩

/-- An engine with the process takes over a coherent history, with the course that was saved, and
keeps its own process and handlers. -/
theorem restore_of_coherent (hg : g.WellFormed) {e : Engine σ} (he : e.history.Coherent g)
    {τ : Type} {d : Engine τ} (built : d.graph = some g) :
    d.restore e.save = .ok { d with course := e.course, history := e.history } := by
  have hhistory : History.restore g e.save.head e.save.stack = .ok e.history :=
    History.restore_coherent hg he
  unfold restore
  rw [built]
  simp only [hhistory]
  rfl

/-- Every engine of a process is coherent with the compiled process. -/
theorem Runs.coherent {e : Engine σ} (h : e.Runs p) :
    ∃ g, p.compile = .ok g ∧ e.Coherent g := by
  induction h with
  | made h =>
    obtain ⟨g, hg, hgraph, hhistory, -, -⟩ := withProcess_ok h
    exact ⟨g, hg, coherent_start (Document.wellFormed_of_compile hg) hgraph hhistory⟩
  | called before c ih =>
    obtain ⟨g, hg, he⟩ := ih
    exact ⟨g, hg, he.after (Document.wellFormed_of_compile hg) c⟩
  | rebuilt before h ih =>
    obtain ⟨g, hg, hgraph, hhistory, -⟩ := build_ok h
    exact ⟨g, hg, coherent_start (Document.wellFormed_of_compile hg) hgraph hhistory⟩
  | @bound σ e before handlers now ih =>
    obtain ⟨g, hg, he⟩ := ih
    obtain ⟨hgraph, hhistory, -⟩ := startIfReady_frame { e with handlers := some handlers } now
    refine ⟨g, hg, hgraph.trans he.graph, ?_⟩
    rw [bind, hhistory]
    exact he.history
  | @editedById σ e e' id edit now before h ih =>
    obtain ⟨g, hg, he⟩ := ih
    obtain ⟨a, b, ha, hb, rfl⟩ := editById_ok h
    exact ⟨g, hg, he.edit ha hb⟩
  | @editedByName σ e e' name edit now before h ih =>
    obtain ⟨g, hg, he⟩ := ih
    obtain ⟨a, b, ha, hb, rfl⟩ := editByName_ok h
    exact ⟨g, hg, he.edit ha hb⟩
  | @restored σ τ e e' d before saved h ih ihsaved =>
    -- Both engines have the same process, so the saved history is restored as it was.
    obtain ⟨g, hg, he⟩ := ih
    obtain ⟨g', hg', hd⟩ := ihsaved
    obtain rfl : g = g' := Except.ok.inj (hg.symm.trans hg')
    rw [restore_of_coherent (Document.wellFormed_of_compile hg) hd.history he.graph] at h
    cases h
    exact ⟨g, hg, he.graph, hd.history⟩

/-- No two live activities of an engine have the same id. -/
theorem Runs.head_unique {e : Engine σ} (h : e.Runs p) : (e.history.head.map (·.id)).Nodup := by
  obtain ⟨g, -, he⟩ := h.coherent
  exact he.history.unique

end Engine

/-! ## A process with two branches -/

/-- The first instant of 1970. -/
def Instant.epoch : Instant where
  year := 1970
  month := 1
  day := 1
  hour := 0
  minute := 0
  second := 0
  nano := 0
  civil := by decide

/-- The graph of a start event alone, a default for graphs that are known to be there. -/
def Graph.lone : Graph := ⟨.define "" none none none (.event (.plain .start)), [], []⟩

/-- A process that forks into two tasks and joins their branches again. -/
def Builder.diamond : Builder :=
  ({ id := "diamond" } : Builder)
    |>.start "start" "Start" |>.finish "end" "End"
    |>.gateway .parallel "fork" "Fork" |>.gateway .parallel "join" "Join"
    |>.task .user "left" "Left" |>.task .user "right" "Right"
    |>.flow "f_start" "start" "fork" |>.flow "f_left" "fork" "left"
    |>.flow "f_right" "fork" "right" |>.flow "f_left_done" "left" "join"
    |>.flow "f_right_done" "right" "join" |>.flow "f_end" "join" "end"

namespace Engine

/-- The engine that is made for a process with some handlers, a new one if the process does not
compile. -/
def ofProcess (p : Document) (handlers : HandlerTable (Handler σ)) : Engine σ :=
  match withProcess p handlers .epoch with
  | .ok e => e
  | .error _ => new .epoch

/-- It is made if the process compiles. -/
theorem withProcess_ofProcess {p : Document} {g : Graph} (compiled : p.compile = .ok g)
    (handlers : HandlerTable (Handler σ)) :
    withProcess p handlers .epoch = .ok (ofProcess p handlers) := by
  obtain ⟨e, he⟩ := exists_withProcess_iff.mpr ⟨g, compiled⟩
  unfold ofProcess
  rw [he]

/-- The engine for a process in which the activities of some names wait to be run, when it has gone
forward so far. -/
def waitingFor (p : Document) (names : List String) : Engine Unit :=
  (ofProcess p (.waiting .default names)).after (.advance .null () ⟨.epoch, 9⟩)

/-- It is one of the process. -/
theorem runs_waitingFor {p : Document} {g : Graph} (compiled : p.compile = .ok g)
    (names : List String) : (waitingFor p names).Runs p :=
  .called (.made (withProcess_ofProcess compiled _)) _

/-- The process of an engine that has one. -/
def compiled (e : Engine σ) : Graph := e.graph.getD .lone

/-- The live activity of an id that is live. -/
def live (e : Engine σ) (id : String) : Activity :=
  (e.history.headById? id).getD e.compiled.start

/-- An engine for the process with two branches, whose tasks wait to be run and then finish. -/
def diamond : Engine Unit := ofProcess Builder.diamond.build (.waiting .default ["Left", "Right"])

/-- The live activities where the branches wait. -/
theorem head_unique_diamond :
    ((diamond.after (.advance .null () ⟨.epoch, 9⟩)).history.head.map (·.id)) = ["left", "right"] ∧
      ((diamond.after (.advance .null () ⟨.epoch, 9⟩)).history.head.map (·.id)).Nodup :=
  ⟨rfl, Runs.head_unique (p := Builder.diamond.build) (.called (.made rfl) _)⟩

end Engine

end Workflow
