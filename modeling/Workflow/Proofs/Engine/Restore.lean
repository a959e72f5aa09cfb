import Workflow.Proofs.Engine.Reachable

/-!
# Restoring what was saved

A snapshot leaves out everything that the process says already, and restoring puts it back from the
process.  So nothing is lost only because little of an activity changes while it is live: every
engine that comes about in the use of a process is coherent with it, and a coherent history is
restored from its own records as it was.  It does not matter which engine restores the snapshot, as
long as the same process has been built there (`Engine.Runs.restore_save`).

A snapshot that was tampered with never brings an activity that is no instance of its definition
(`Engine.agrees_restore`), but it may bring two live activities of one id.  Every record that
belongs to a definition is restored, and a start event finds its definition by its id or by its
name.  So live activities have ids of their own just when the records of the head belong to
definitions of their own (`Engine.restore_head_unique_iff`).
-/

namespace Workflow

/-- Whether no two records belong to the same definition, be it by their ids or by the name of the
start event. -/
def Graph.Separates (g : Graph) (records : List Activity) : Prop :=
  records.Pairwise fun r r' => ∀ d, g.counterpart? r = some d → g.counterpart? r' ≠ some d

namespace History

variable {g : Graph}

/-- The live activities of restored records have ids of their own just when the records of the head
belong to definitions of their own. -/
theorem restore_unique_iff (hg : g.WellFormed) {head stack : List Activity} {h : History}
    (restored : restore g head stack = .ok h) :
    (h.head.map (·.id)).Nodup ↔ g.Separates head := by
  obtain ⟨head', hhead, restored⟩ := Document.bind_ok_iff.mp restored
  obtain ⟨stack', -, restored⟩ := Document.bind_ok_iff.mp restored
  cases restored
  -- The ids are those of the definitions, which have ids of their own.
  have hids : head'.map (·.id) = (head.filterMap g.counterpart?).map (·.id) := by
    rw [← map_blank_restoreAll hg hhead, List.map_map]
    rfl
  have hinj : ∀ d ∈ head.filterMap g.counterpart?, ∀ d' ∈ head.filterMap g.counterpart?,
      d.id = d'.id → d = d' := by
    intro d hd d' hd' hid
    obtain ⟨r, -, hr⟩ := List.mem_filterMap.mp hd
    obtain ⟨r', -, hr'⟩ := List.mem_filterMap.mp hd'
    exact List.inj_on_of_nodup_map hg.unique (g.mem_of_counterpart? hr)
      (g.mem_of_counterpart? hr') hid
  calc (head'.map (·.id)).Nodup
      ↔ (head.filterMap g.counterpart?).Nodup := by
        rw [hids]
        exact ⟨List.Nodup.of_map _, List.Nodup.map_on hinj⟩
    _ ↔ g.Separates head := by
      unfold Graph.Separates List.Nodup
      rw [List.pairwise_filterMap]
      refine List.Pairwise.iff fun r r' => ?_
      constructor
      · intro h d hr hr'
        exact h d hr d hr' rfl
      · rintro h d hr d' hr' rfl
        exact h d hr hr'

end History

namespace Engine

variable {σ τ : Type} {p : Document} {g : Graph}

/-- Restoring a snapshot restores its history and takes its course over. -/
theorem restore_ok {d d' : Engine τ} (built : d.graph = some g) {s : Snapshot}
    (h : d.restore s = .ok d') : ∃ history, History.restore g s.head s.stack = .ok history ∧
      d' = { d with course := s.course, history } := by
  unfold restore at h
  simp only [built] at h
  split at h
  · cases h
  · next history hhistory => cases h; exact ⟨history, hhistory, by rw [built]⟩

/-- An engine that was restored agrees with its process, whatever was saved. -/
theorem agrees_restore (hg : g.WellFormed) {d d' : Engine τ} (built : d.graph = some g)
    {s : Snapshot} (h : d.restore s = .ok d') : d'.graph = some g ∧ d'.history.Agrees g := by
  obtain ⟨history, hhistory, rfl⟩ := restore_ok built h
  exact ⟨built, History.agrees_restore hg hhistory⟩

/-- Whatever is restored, be it as a history alone or by an engine, its live activities have ids of
their own just when the records of the head belong to definitions of their own. -/
theorem restore_head_unique_iff (compiled : p.compile = .ok g) :
    (∀ head stack h, History.restore g head stack = .ok h →
        ((h.head.map (·.id)).Nodup ↔ g.Separates head)) ∧
      ∀ (d d' : Engine τ) s, d.graph = some g → d.restore s = .ok d' →
        ((d'.history.head.map (·.id)).Nodup ↔ g.Separates s.head) := by
  have hg := Document.wellFormed_of_compile compiled
  refine ⟨fun head stack h => History.restore_unique_iff hg, fun d d' s built restored => ?_⟩
  obtain ⟨history, hhistory, rfl⟩ := restore_ok built restored
  exact History.restore_unique_iff hg hhistory

/-- What an engine of a process has saved is restored without loss on every engine with that
process, whatever has become of it since: it has the same state, the same instants at which each
state was reached, and the same live and completed activities, and it saves the same again. -/
theorem Runs.restore_save {e : Engine σ} (runs : e.Runs p) (compiled : p.compile = .ok g)
    {d : Engine τ} (built : d.graph = some g) :
    ∃ d', d.restore e.save = .ok d' ∧ d'.state = e.state ∧
      (∀ s, d'.course.reachedAt s = e.course.reachedAt s) ∧ d'.history.head = e.history.head ∧
      d'.history.stack = e.history.stack ∧ d'.save = e.save := by
  obtain ⟨g', hg', he⟩ := runs.coherent
  obtain rfl : g = g' := Except.ok.inj (compiled.symm.trans hg')
  have hrestore := restore_of_coherent (Document.wellFormed_of_compile compiled) he.history built
  exact ⟨_, hrestore, rfl, fun _ => rfl, rfl, rfl, rfl⟩

/-! ## An engine without handlers -/

/-- An engine for the process with two branches, of which the right one has arrived at the join. -/
def halfway : Engine Unit :=
  (diamond.after (.advance .null () ⟨.epoch, 9⟩)).after (.run "Right" .null () ⟨.epoch, 9⟩)

/-- An engine with the same process and without handlers, which has not been started. -/
def spare : Engine Nat :=
  (((new .epoch).build Builder.diamond.build .epoch).toOption).getD (new .epoch)

/-- The engine without handlers goes on where the other one was saved. -/
theorem restore_save_halfway :
    halfway.history.head.map (·.id) = ["left", "join"] ∧ spare.state = .init ∧
      ∃ d', spare.restore halfway.save = .ok d' ∧ d'.state = halfway.state ∧
        (∀ s, d'.course.reachedAt s = halfway.course.reachedAt s) ∧
        d'.history.head = halfway.history.head ∧ d'.history.stack = halfway.history.stack ∧
        d'.save = halfway.save :=
  ⟨rfl, rfl, Runs.restore_save (p := Builder.diamond.build) (.called (.called (.made rfl) _) _) rfl
    rfl⟩

/-- What a process with two branches saves when both wait, with the record of the left one
repeated. -/
def repeated : Snapshot :=
  let e := diamond.after (.advance .null () ⟨.epoch, 9⟩)
  { e.save with head := e.history.head ++ e.history.head.take 1 }

/-- It is restored with two live activities of one id, so its records do not belong to definitions
of their own. -/
theorem restore_head_unique_iff_repeated :
    ∃ g e, spare.graph = some g ∧ spare.restore repeated = .ok e ∧
      e.history.head.map (·.id) = ["left", "right", "left"] ∧ ¬ g.Separates repeated.head := by
  have hbuilt : (new .epoch).build Builder.diamond.build .epoch = .ok spare := rfl
  obtain ⟨g, compiled, hgraph, -⟩ := build_ok hbuilt
  obtain ⟨e, he, hids⟩ : ∃ e, spare.restore repeated = .ok e ∧
      e.history.head.map (·.id) = ["left", "right", "left"] := ⟨_, rfl, rfl⟩
  have hiff := (restore_head_unique_iff compiled).2 spare e repeated hgraph he
  refine ⟨g, e, hgraph, he, hids, ?_⟩
  rw [← hiff, hids]
  decide

/-- So live activities need not have ids of their own when a history has been restored. -/
theorem not_forall_restore_unique :
    ¬ ∀ (p : Document) (g : Graph) (head stack : List Activity) (h : History),
      p.compile = .ok g → History.restore g head stack = .ok h → (h.head.map (·.id)).Nodup := by
  intro claim
  have hbuilt : (new .epoch).build Builder.diamond.build .epoch = .ok spare := rfl
  obtain ⟨g, compiled, hgraph, -⟩ := build_ok hbuilt
  obtain ⟨e, he, hids⟩ : ∃ e, spare.restore repeated = .ok e ∧
      e.history.head.map (·.id) = ["left", "right", "left"] := ⟨_, rfl, rfl⟩
  obtain ⟨history, hhistory, rfl⟩ := restore_ok hgraph he
  have hunique := claim _ g _ _ _ compiled hhistory
  rw [hids] at hunique
  exact absurd hunique (by decide)

end Engine

end Workflow
