import Workflow.Proofs.Engine.Restore

/-!
# Live activities are instances of definitions

An engine may be built anew, with the same process or with another one, and it may restore a
snapshot that no engine has saved.  Two live activities may then have the same id, so such an engine
need not be coherent with its process.  It still agrees with it, which is all that `Engine.Agrees`
asks: before a process is built there are no activities, and afterwards each of them blanks to its
definition.

Whatever is done to an engine keeps this (`Engine.Arises.agrees`).  Agreement is then read as what
it says of one activity: it differs from its definition in where it stands, in which of its tokens
are taken and in where its boundary event stands, and in nothing else
(`Engine.Arises.instances`).
-/

namespace Workflow

/-- Tokens that stand for some edges have the shape, the length, the order and the ids of the
edges. -/
theorem Tokens.map_edge_of_matchRefs {ts : Option Tokens} {refs : Option EdgeRefs}
    (h : matchRefs ts refs = true) : ts.map (·.map Token.edge) = refs := by
  cases ts with
  | none => cases refs with
    | none => rfl
    | some refs => simp [matchRefs] at h
  | some ts => cases refs with
    | none => simp [matchRefs] at h
    | some refs => simpa [matchRefs] using h

namespace Activity

/-- Whether an activity is an instance of a definition. -/
structure InstanceOf (d a : Activity) : Prop where
  /-- It has the name of the definition. -/
  name : a.name = d.name
  /-- It has the same edges leading in. -/
  incoming : a.incoming = d.incoming
  /-- It has the same edges leading out. -/
  outgoing : a.outgoing = d.outgoing
  /-- It is in the same lane. -/
  lane : a.lane = d.lane
  /-- It is of the same family. -/
  category : a.category = d.category
  /-- A task is one of the same kind. -/
  task : a.task?.map (·.kind) = d.task?.map (·.kind)
  /-- A gateway is one of the same kind. -/
  gateway : a.gateway?.map (·.kind) = d.gateway?.map (·.kind)
  /-- An event is one of the same kind, set off in the same way. -/
  event : a.event? = d.event?
  /-- It has the same boundary event: with the same id, attached to the same task, redirecting along
  the same edge, and set off in the same way. -/
  boundary : a.boundary?.map (fun b => (b.id, b.attachedTo, b.outgoing, b.trigger)) =
    d.boundary?.map fun b => (b.id, b.attachedTo, b.outgoing, b.trigger)
  /-- The tokens of a gateway stand for its edges. -/
  tokens : ∀ w, a.kind = .gateway w →
    w.incoming.map (·.map Token.edge) = a.incoming ∧
      w.outgoing.map (·.map Token.edge) = a.outgoing
  /-- Nothing is left of the difference when the lifecycles and the taken tokens are wiped out. -/
  blank : a.blank = d

/-- The blank of a task is a task of the same kind. -/
theorem task?_blank (a : Activity) :
    a.blank.task?.map (·.kind) = a.task?.map (·.kind) := by
  unfold task?
  cases hk : a.kind <;> simp [hk, Kind.blank]

/-- Events have nothing to wipe out. -/
theorem event?_blank (a : Activity) : a.blank.event? = a.event? := by
  unfold event?
  cases hk : a.kind <;> simp [hk, Kind.blank]

/-- What has a definition is an instance of it. -/
theorem instanceOf_blank {g : Graph} (hg : g.WellFormed) {a : Activity} (ha : g.Defines a) :
    a.blank.InstanceOf a where
  name := rfl
  incoming := rfl
  outgoing := rfl
  lane := rfl
  category := a.kind.category_blank.symm
  task := a.task?_blank.symm
  gateway := by
    rw [gateway?_blank, Option.map_map]
    rfl
  event := a.event?_blank.symm
  boundary := by
    rw [boundary?_blank, Option.map_map]
    rfl
  tokens := fun w hw =>
    ⟨Tokens.map_edge_of_matchRefs (hg.matchRefs ha hw).1,
      Tokens.map_edge_of_matchRefs (hg.matchRefs ha hw).2⟩
  blank := rfl

end Activity

namespace Engine

variable {σ : Type}

/-- The engines that come about in whatever is done to engines: processes are built, calls are made
with any handlers, live activities are edited, and any snapshots are restored.  What is refused
leaves the engine as it is. -/
inductive Arises : Engine σ → Prop where
  /-- A new engine. -/
  | made (now : Instant) : Arises (new now)
  /-- An engine with a process built. -/
  | built {e e' : Engine σ} {p : Document} {now : Instant} (before : Arises e)
      (h : e.build p now = .ok e') : Arises e'
  /-- An engine with handlers bound. -/
  | bound {e : Engine σ} (before : Arises e) (handlers : HandlerTable (Handler σ))
      (now : Instant) : Arises (e.bind handlers now)
  /-- An engine that was called, whatever the call answered. -/
  | called {e : Engine σ} (before : Arises e) (c : Call σ) : Arises (e.after c)
  /-- An engine with a live activity of an id edited. -/
  | editedById {e e' : Engine σ} {id : String} {edit : Edit} {now : Instant} (before : Arises e)
      (h : e.editById id edit now = .ok e') : Arises e'
  /-- An engine with a live activity of a name edited. -/
  | editedByName {e e' : Engine σ} {name : String} {edit : Edit} {now : Instant}
      (before : Arises e) (h : e.editByName name edit now = .ok e') : Arises e'
  /-- An engine restored from a snapshot, wherever that comes from. -/
  | restored {e e' : Engine σ} {s : Snapshot} (before : Arises e) (h : e.restore s = .ok e') :
      Arises e'

/-- An engine made for a process comes about so. -/
theorem arises_withProcess {p : Document} {handlers : HandlerTable (Handler σ)} {now : Instant}
    {e : Engine σ} (h : withProcess p handlers now = .ok e) : e.Arises := by
  unfold withProcess at h
  split at h
  · cases h
  · next hbuilt =>
    cases h
    exact .bound (.built (.made now) hbuilt) handlers now

/-- So do the engines that are used on some terms. -/
theorem RunsUnder.arises {terms : Terms} {p : Document} {e : Engine σ} (h : e.RunsUnder terms p) :
    e.Arises := by
  induction h with
  | made within h => exact arises_withProcess h
  | called before c within ih => exact .called ih c
  | editedById before may h ih => exact .editedById ih h
  | editedByName before may h ih => exact .editedByName ih h

/-- So does one that is made for a process or new. -/
theorem arises_ofProcess (p : Document) (handlers : HandlerTable (Handler σ)) :
    (ofProcess p handlers).Arises := by
  unfold ofProcess
  split
  · next h => exact arises_withProcess h
  · exact .made .epoch

/-- And one that has gone forward to where activities wait to be run. -/
theorem arises_waitingFor (p : Document) (names : List String) : (waitingFor p names).Arises :=
  .called (arises_ofProcess p _) _

/-- Whether every activity of the engine has its definition; there is no activity before a process
is built. -/
structure Agrees (e : Engine σ) : Prop where
  /-- Before a process is built nothing is live or completed. -/
  unbuilt : e.graph = none → e.history = {}
  /-- Afterwards the process is well formed, and the history agrees with it. -/
  built : ∀ g, e.graph = some g → g.WellFormed ∧ e.history.Agrees g

/-- Only the process and the history matter. -/
theorem Agrees.of_frame {e e' : Engine σ} (he : e.Agrees) (hgraph : e'.graph = e.graph)
    (hhistory : e'.history = e.history) : e'.Agrees where
  unbuilt h := hhistory.trans (he.unbuilt (hgraph.symm.trans h))
  built g h := by
    rw [hhistory]
    exact he.built g (hgraph.symm.trans h)

/-- An engine with a process agrees as soon as its history does. -/
theorem Agrees.of_built {e : Engine σ} {g : Graph} (hgraph : e.graph = some g)
    (hg : g.WellFormed) (hhistory : e.history.Agrees g) : e.Agrees where
  unbuilt h := by
    rw [hgraph] at h
    cases h
  built g' h := by
    obtain rfl : g = g' := Option.some.inj (hgraph.symm.trans h)
    exact ⟨hg, hhistory⟩

/-- A dispatch keeps agreement, whatever the handler does. -/
theorem Agrees.dispatch {e : Engine σ} (he : e.Agrees) (id : String) (origin : Origin)
    (handler : Handler σ) (payload : Json) (memory : σ) (now : Instant) :
    (e.dispatch id origin handler payload memory now).engine.Agrees := by
  cases hgraph : e.graph with
  | none =>
    -- Nothing runs before a process is built.
    rcases dispatch_cases e id origin handler.within_all payload memory now with
      h | ⟨g, found, st, hgraph', -⟩
    · rw [h]; exact he
    · rw [hgraph] at hgraph'
      cases hgraph'
  | some g =>
    obtain ⟨hg, hhistory⟩ := he.built g hgraph
    obtain ⟨hgraph', hhistory'⟩ := dispatch_kept (History.kept_agrees hg) hg hgraph hhistory id
      origin handler payload memory now
    exact .of_built hgraph' hg hhistory'

/-- A call keeps agreement. -/
theorem Agrees.after {e : Engine σ} (he : e.Agrees) (c : Call σ) : (e.after c).Agrees :=
  after_keeps_any
    (fun _ id origin handler payload memory now h =>
      h.dispatch id origin handler payload memory now)
    (fun _ _ _ h => h.of_frame rfl rfl) he c

/-- An edit of a live activity keeps agreement. -/
theorem Agrees.edit {e : Engine σ} (he : e.Agrees) {q : Activity → Bool} {a b : Activity}
    {edit : Edit} {now : Instant} (ha : e.history.head.find? q = some a)
    (hb : a.edit now edit = .ok b) :
    Agrees { e with
      history := { e.history with head := updateFirst q (fun _ => b) e.history.head } } where
  unbuilt h := by
    -- There is nothing to edit before a process is built.
    rw [he.unbuilt h] at ha
    cases ha
  built g h := by
    obtain ⟨hg, hhistory⟩ := he.built g h
    exact ⟨hg, hhistory.updateFirst ha (Activity.blank_edit hb)⟩

/-- Every engine agrees with the process that it has. -/
theorem Arises.agrees {e : Engine σ} (h : e.Arises) : e.Agrees := by
  induction h with
  | made now => exact ⟨fun _ => rfl, fun g hg => nomatch hg⟩
  | built before h ih =>
    obtain ⟨g, hcompile, hgraph, hhistory, -⟩ := build_ok h
    have hg := Document.wellFormed_of_compile hcompile
    exact .of_built hgraph hg (coherent_start hg hgraph hhistory).history.agrees
  | @bound e before handlers now ih =>
    obtain ⟨hgraph, hhistory, -⟩ := startIfReady_frame { e with handlers := some handlers } now
    exact ih.of_frame hgraph hhistory
  | called before c ih => exact ih.after c
  | editedById before h ih =>
    obtain ⟨a, b, ha, hb, rfl⟩ := editById_ok h
    exact ih.edit ha hb
  | editedByName before h ih =>
    obtain ⟨a, b, ha, hb, rfl⟩ := editByName_ok h
    exact ih.edit ha hb
  | @restored e e' s before h ih =>
    cases hgraph : e.graph with
    | none =>
      unfold restore at h
      rw [hgraph] at h
      cases h
    | some g =>
      obtain ⟨hg, -⟩ := ih.built g hgraph
      obtain ⟨hgraph', hhistory⟩ := agrees_restore hg hgraph h
      exact .of_built hgraph' hg hhistory

/-- Whatever is done to an engine, each of its activities, live or completed, has a definition with
its id in the process that the engine has, and is an instance of that definition. -/
theorem Arises.instances {e : Engine σ} (h : e.Arises) :
    ∀ a ∈ e.history.head ++ e.history.stack,
      ∃ g d, e.graph = some g ∧ g.activity? a.id = some d ∧ d.InstanceOf a := by
  intro a ha
  cases hgraph : e.graph with
  | none =>
    rw [h.agrees.unbuilt hgraph] at ha
    cases ha
  | some g =>
    obtain ⟨hg, hhistory⟩ := h.agrees.built g hgraph
    have hdefines : g.Defines a := by
      rcases List.mem_append.mp ha with ha | ha
      · exact hhistory.live a ha
      · exact hhistory.completed a ha
    exact ⟨g, a.blank, rfl, hdefines, Activity.instanceOf_blank hg hdefines⟩

/-- A snapshot that was tampered with: the start event has another id and a name that leads in, the
join comes twice, and one record belongs to no process. -/
def tampered : Snapshot :=
  let start := { Activity.define "other" (some "Start") (some (.one "nowhere")) none
    (.event (.plain .start)) with lifecycle := ({} : Lifecycle).set .entered .epoch }
  { course := halfway.course
    head := halfway.history.head ++ [start, { start with name := none }]
    stack := halfway.history.head }

/-- What an engine takes over from it are instances all the same, the start event under its own
id. -/
theorem instances_tampered :
    ∃ e, (spare.restore tampered) = .ok e ∧
      e.history.head.map (·.id) = ["left", "join", "start"] ∧
      ∀ a ∈ e.history.head ++ e.history.stack,
        ∃ g d, e.graph = some g ∧ g.activity? a.id = some d ∧ d.InstanceOf a := by
  have hbuilt : (new .epoch).build Builder.diamond.build .epoch = .ok spare := rfl
  have hspare : spare.Arises := .built (.made .epoch) hbuilt
  obtain ⟨e, he, hhead⟩ : ∃ e, spare.restore tampered = .ok e ∧
      e.history.head.map (·.id) = ["left", "join", "start"] := ⟨_, rfl, rfl⟩
  exact ⟨e, he, hhead, Arises.instances (.restored hspare he)⟩

end Engine

end Workflow
