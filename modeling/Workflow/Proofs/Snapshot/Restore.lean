import Workflow.Proofs.Engine.Instances

/-!
# What restoring accepts and produces

Saved records come from outside, so nothing may be assumed of them: ids may have changed, a boundary
event may be missing or be there where the process has none, and the edges that a record lists need
not be those of its own tokens.  A record is looked at in two respects only.  It has a counterpart
in the process (`Graph.Counterpart`) or is passed over, and it conflicts with its counterpart
(`Activity.Conflicts`) or is merged with it (`Activity.RestoredFrom`).

A conflict of any one record is all that restoring refuses, and otherwise the merged records are the
history, in their order (`Document.restore_exact`).  The check of the tokens comes after the merge,
in which they are the record's and the edges are the definition's; that is why the edges which a
record lists do not matter.
-/

namespace Workflow

/-! ## Counterparts -/

/-- Whether a definition of the process is the one that a saved record belongs to. -/
inductive Graph.Counterpart (g : Graph) (record : Activity) : Activity → Prop where
  /-- It has the id of the record. -/
  | byId {d : Activity} (mem : d ∈ g.activities) (id : d.id = record.id) : Counterpart g record d
  /-- Nothing has the id of the record, which is that of a start event and has the name of the start
  event. -/
  | byName {v : Event} {name : String} (missing : ∀ d ∈ g.activities, d.id ≠ record.id)
    (event : record.kind = .event v) (start : v.kind = .start) (named : record.name = some name)
    (same : g.start.name = some name) : Counterpart g record g.start

namespace Graph

variable {g : Graph} {record d : Activity}

/-- Nothing is found under an id that no definition has. -/
theorem activity?_eq_none_iff {id : String} :
    g.activity? id = none ↔ ∀ d ∈ g.activities, d.id ≠ id := by
  simp [activity?]

/-- The definition that a record belongs to is what is looked up for it. -/
theorem WellFormed.counterpart?_eq_some_iff (hg : g.WellFormed) :
    g.counterpart? record = some d ↔ g.Counterpart record d := by
  unfold counterpart?
  constructor
  · intro h
    split at h
    · next d' hd' =>
      cases h
      obtain ⟨hmem, hid⟩ := activity?_some hd'
      exact .byId hmem hid
    · next hnone =>
      obtain ⟨hcond, hd⟩ := Option.ite_none_right_eq_some.mp h
      obtain rfl : g.start = d := Option.some.inj hd
      simp only [Bool.and_eq_true, beq_iff_eq] at hcond
      obtain ⟨⟨hstart, hnamed⟩, hsame⟩ := hcond
      obtain ⟨name, hname⟩ := Option.isSome_iff_exists.mp hnamed
      obtain ⟨v, hv, hkind⟩ := (Option.any_eq_true ..).mp hstart
      have hevent : record.kind = .event v := by
        unfold Activity.event? at hv
        split at hv
        · next v' hv' => rw [hv']; exact congrArg Kind.event (Option.some.inj hv)
        · cases hv
      exact .byName (activity?_eq_none_iff.mp hnone) hevent (eq_of_beq hkind) hname
        (hsame.symm.trans hname)
  · intro h
    cases h with
    | byId hmem hid => rw [← hid, hg.activity?_of_mem hmem]
    | @byName v name missing event start named same =>
      have hevent : record.event? = some v := by
        unfold Activity.event?
        rw [event]
      rw [activity?_eq_none_iff.mpr missing]
      simp [hevent, start, named, same]

/-- A record belongs to no definition where none is found. -/
theorem WellFormed.counterpart?_eq_none_iff (hg : g.WellFormed) :
    g.counterpart? record = none ↔ ∀ d, ¬ g.Counterpart record d := by
  simp only [Option.eq_none_iff_forall_ne_some, ne_eq, hg.counterpart?_eq_some_iff]

end Graph

/-! ## Conflicts -/

/-- Whether the tokens of a gateway stand for these edges: on each side there are neither, or the
tokens are spelled as the edges are, bare or as a list, and are theirs one by one. -/
def Gateway.StandsFor (w : Gateway) (incoming outgoing : Option EdgeRefs) : Prop :=
  w.incoming.map (·.map Token.edge) = incoming ∧ w.outgoing.map (·.map Token.edge) = outgoing

/-- Tokens stand for some edges just when these are the edges read off them. -/
theorem Tokens.matchRefs_iff {ts : Option Tokens} {refs : Option EdgeRefs} :
    matchRefs ts refs = true ↔ ts.map (·.map Token.edge) = refs := by
  constructor
  · exact map_edge_of_matchRefs
  · rintro rfl
    cases ts with
    | none => rfl
    | some ts => exact beq_self_eq_true _

/-- The check of a gateway is whether its tokens stand for the edges. -/
theorem Gateway.matchRefs_iff {w : Gateway} {incoming outgoing : Option EdgeRefs} :
    w.matchRefs incoming outgoing = true ↔ w.StandsFor incoming outgoing := by
  rw [matchRefs, Bool.and_eq_true, Tokens.matchRefs_iff, Tokens.matchRefs_iff]
  rfl

namespace Activity

variable {g : Graph} {d record a : Activity}

/-- Whether a record contradicts the definition that it belongs to. -/
inductive Conflicts (d record : Activity) : Prop where
  /-- It is of another family. -/
  | category (differs : record.category ≠ d.category)
  /-- It is a gateway whose tokens are not those of the edges of the definition. -/
  | tokens {w : Gateway} (gateway : record.kind = .gateway w)
    (differ : ¬ w.StandsFor d.incoming d.outgoing)

/-- Whether an activity is a definition with what a record says of where it stands. -/
structure RestoredFrom (d record a : Activity) : Prop where
  /-- It has the id of the definition. -/
  id : a.id = d.id
  /-- It is an instance of the definition in every other respect. -/
  instanceOf : d.InstanceOf a
  /-- It stands where the record says, since when the record says. -/
  lifecycle : a.lifecycle = record.lifecycle
  /-- The tokens of a gateway are those of the record. -/
  tokens : ∀ w, a.kind = .gateway w → ∃ recorded, record.kind = .gateway recorded ∧
    w.incoming = recorded.incoming ∧ w.outgoing = recorded.outgoing
  /-- The boundary event of a task stands where that of the record does, and is not live where the
  record has none. -/
  boundary : ∀ b, a.boundary? = some b →
    b.lifecycle = (record.boundary?.map (·.lifecycle)).getD {}

/-- A definition with the changing part of a record. -/
def merged (d record : Activity) : Activity :=
  { d with lifecycle := record.lifecycle, kind := restoreKind d.kind record.kind }

/-- A record of the same family is merged, and then its tokens are looked at. -/
theorem reattach_eq (same : d.category = record.category) :
    d.reattach record = if (d.merged record).tokensMatch then .ok (d.merged record)
      else .error (.snapshotTokens d.id) := by
  unfold reattach
  rw [if_neg (not_not.mpr same)]
  rfl

/-- A definition and a record of one family are two tasks, two gateways or two events. -/
theorem kinds_of_category (same : d.category = record.category) :
    (∃ t t', d.kind = .task t ∧ record.kind = .task t') ∨
      (∃ w w', d.kind = .gateway w ∧ record.kind = .gateway w') ∨
      ∃ v v', d.kind = .event v ∧ record.kind = .event v' := by
  unfold category at same
  cases hd : d.kind <;> cases hr : record.kind <;> simp_all [Kind.category]

/-- A task keeps its boundary event, which stands where that of the record does if it has one. -/
theorem restoreKind_task (t recorded : Task) :
    restoreKind (.task t) (.task recorded) = .task { t with boundary := t.boundary.map fun b =>
      { b with lifecycle := (recorded.boundary.map (·.lifecycle)).getD b.lifecycle } } := by
  obtain ⟨kind, boundary⟩ := t
  obtain ⟨kind', boundary'⟩ := recorded
  cases boundary <;> cases boundary' <;> rfl

/-- Only the tokens of a gateway are looked at. -/
theorem tokensMatch_merged_iff (same : d.category = record.category) :
    (d.merged record).tokensMatch = true ↔
      ∀ w, record.kind = .gateway w → w.StandsFor d.incoming d.outgoing := by
  unfold tokensMatch merged
  rcases kinds_of_category same with
    ⟨t, t', hd, hr⟩ | ⟨w, w', hd, hr⟩ | ⟨v, v', hd, hr⟩
  · simp [hd, hr, restoreKind_task]
  · simp [hd, hr, restoreKind, Gateway.matchRefs_iff, Gateway.StandsFor]
  · simp [hd, hr, restoreKind]

/-- A record is refused just when it conflicts with the definition. -/
theorem reattach_error_iff : (∃ err, d.reattach record = .error err) ↔ d.Conflicts record := by
  by_cases same : d.category = record.category
  · rw [reattach_eq same]
    have htokens := tokensMatch_merged_iff same
    constructor
    · rintro ⟨err, herr⟩
      split at herr
      · cases herr
      · next hnot =>
        rw [htokens] at hnot
        push Not at hnot
        obtain ⟨w, hw, hdiffer⟩ := hnot
        exact .tokens hw hdiffer
    · rintro (hdiffers | ⟨hw, hdiffer⟩)
      · exact absurd same.symm hdiffers
      · exact ⟨_, if_neg fun hmatch => hdiffer (htokens.mp hmatch _ hw)⟩
  · -- The families are compared before anything is merged.
    have hrefused : d.reattach record =
        .error (.snapshotCategory record.id record.category d.category) := if_pos same
    exact ⟨fun _ => .category (Ne.symm same), fun _ => ⟨_, hrefused⟩⟩

/-- A record that is accepted is merged with its definition. -/
theorem merged_of_reattach (h : d.reattach record = .ok a) :
    d.category = record.category ∧ a = d.merged record := by
  by_cases same : d.category = record.category
  · rw [reattach_eq same] at h
    split at h
    · cases h
      exact ⟨same, rfl⟩
    · cases h
  · have hrefused : d.reattach record =
        .error (.snapshotCategory record.id record.category d.category) := if_pos same
    rw [hrefused] at h
    cases h

/-- A gateway that is merged has the tokens of the record. -/
theorem tokens_merged (same : d.category = record.category) {w : Gateway}
    (hw : (d.merged record).kind = .gateway w) :
    ∃ recorded, record.kind = .gateway recorded ∧ w.incoming = recorded.incoming ∧
      w.outgoing = recorded.outgoing := by
  have hkind : (d.merged record).kind = restoreKind d.kind record.kind := rfl
  rw [hkind] at hw
  rcases kinds_of_category same with
    ⟨t, t', hd, hr⟩ | ⟨v, recorded, hd, hr⟩ | ⟨v, v', hd, hr⟩
  · rw [hd, hr, restoreKind_task] at hw
    cases hw
  · rw [hd, hr] at hw
    cases hw
    exact ⟨recorded, hr, rfl, rfl⟩
  · rw [hd, hr] at hw
    cases hw

/-- A boundary event that is merged stands where that of the record does, if it has one. -/
theorem boundary_merged (same : d.category = record.category) {b : BoundaryEvent}
    (hb : (d.merged record).boundary? = some b) :
    ∃ defined, d.boundary? = some defined ∧
      b.lifecycle = (record.boundary?.map (·.lifecycle)).getD defined.lifecycle := by
  have hkind : (d.merged record).kind = restoreKind d.kind record.kind := rfl
  unfold boundary? at hb
  rw [hkind] at hb
  rcases kinds_of_category same with
    ⟨t, t', hd, hr⟩ | ⟨w, w', hd, hr⟩ | ⟨v, v', hd, hr⟩
  · rw [hd, hr, restoreKind_task] at hb
    obtain ⟨defined, hdefined, rfl⟩ := Option.map_eq_some_iff.mp hb
    refine ⟨defined, (boundary?_of_task hd).trans hdefined, ?_⟩
    rw [boundary?_of_task hr]
  · rw [hd, hr] at hb
    cases hb
  · rw [hd, hr] at hb
    cases hb

/-- The boundary event of a definition is not live. -/
theorem lifecycle_of_definition (hg : g.WellFormed) (hd : d ∈ g.activities) {b : BoundaryEvent}
    (hb : d.boundary? = some b) : b.lifecycle = {} := by
  have hblank : d.blank.boundary? = some b.blank := by rw [boundary?_blank, hb]; rfl
  rw [hg.blank d hd, hb] at hblank
  exact congrArg BoundaryEvent.lifecycle (Option.some.inj hblank)

/-- What a record is merged to is restored from it. -/
theorem restoredFrom_of_reattach (hg : g.WellFormed) (hd : d ∈ g.activities)
    (h : d.reattach record = .ok a) : d.RestoredFrom record a := by
  have hblank : a.blank = d := hg.blank_reattach hd h
  obtain ⟨same, rfl⟩ := merged_of_reattach h
  have hdefines : g.Defines (d.merged record) := by
    have hfound : g.activity? d.id = some d := hg.activity?_of_mem hd
    show g.activity? d.id = some (d.merged record).blank
    rw [hfound, hblank]
  have hinstance := instanceOf_blank hg hdefines
  rw [hblank] at hinstance
  refine ⟨rfl, hinstance, rfl, fun w hw => tokens_merged same hw, fun b hb => ?_⟩
  obtain ⟨defined, hdefined, hlifecycle⟩ := boundary_merged same hb
  rw [hlifecycle, lifecycle_of_definition hg hd hdefined]

end Activity

/-! ## Whole histories -/

/-- Whether activities are those restored from some records: one for each record that belongs to a
definition, in the order of the records, and none for the others. -/
inductive Graph.Restores (g : Graph) : List Activity → List Activity → Prop where
  /-- Nothing is restored from no records. -/
  | nil : Restores g [] []
  /-- A record that belongs to no definition is passed over. -/
  | skip {record : Activity} {records as : List Activity}
    (unknown : ∀ d, ¬ g.Counterpart record d) (rest : Restores g records as) :
    Restores g (record :: records) as
  /-- Any other one is restored. -/
  | keep {record d a : Activity} {records as : List Activity} (known : g.Counterpart record d)
    (restored : d.RestoredFrom record a) (rest : Restores g records as) :
    Restores g (record :: records) (a :: as)

namespace History

variable {g : Graph}

/-- Records are refused just when one of them conflicts with its definition. -/
theorem restoreAll_error_iff (hg : g.WellFormed) {records : List Activity} :
    (∃ err, restoreAll g records = .error err) ↔
      ∃ r ∈ records, ∃ d, g.Counterpart r d ∧ d.Conflicts r := by
  induction records with
  | nil => simp [restoreAll]
  | cons record records ih =>
    rw [List.exists_mem_cons_iff, ← ih, restoreAll]
    split
    · next hnone =>
      have hunknown := hg.counterpart?_eq_none_iff.mp hnone
      constructor
      · exact .inr
      · rintro (⟨d, hd, -⟩ | hrest)
        · exact absurd hd (hunknown d)
        · exact hrest
    · next d hd =>
      -- The record belongs to this definition and to no other one.
      have hknown : ∀ d', g.Counterpart record d' ↔ d' = d := by
        intro d'
        rw [← hg.counterpart?_eq_some_iff, hd, Option.some.injEq, eq_comm]
      simp only [hknown, exists_eq_left, ← Activity.reattach_error_iff]
      cases d.reattach record with
      | error err => simp [bind, Except.bind]
      | ok a => cases restoreAll g records <;> simp [bind, Except.bind, pure, Except.pure]

/-- Records that are not refused are restored. -/
theorem restores_of_restoreAll (hg : g.WellFormed) {records as : List Activity}
    (h : restoreAll g records = .ok as) : g.Restores records as := by
  induction records generalizing as with
  | nil => cases h; exact .nil
  | cons record records ih =>
    unfold restoreAll at h
    split at h
    · next hnone => exact .skip (hg.counterpart?_eq_none_iff.mp hnone) (ih h)
    · next d hd =>
      obtain ⟨a, ha, h⟩ := Document.bind_ok_iff.mp h
      obtain ⟨rest, hrest, h⟩ := Document.bind_ok_iff.mp h
      cases h
      exact .keep (hg.counterpart?_eq_some_iff.mp hd)
        (Activity.restoredFrom_of_reattach hg (g.mem_of_counterpart? hd) ha) (ih hrest)

/-- A history is refused just when its live or its completed records are. -/
theorem restore_error_iff {head stack : List Activity} :
    (∃ err, restore g head stack = .error err) ↔
      (∃ err, restoreAll g head = .error err) ∨ ∃ err, restoreAll g stack = .error err := by
  unfold restore
  cases restoreAll g head <;> cases restoreAll g stack <;>
    simp [bind, Except.bind, pure, Except.pure]

end History

/-- What a compiled process makes of saved records, whatever these are.  They are refused just when
one of them, live or completed, conflicts with the definition that it belongs to.  Otherwise each
record that belongs to a definition is restored as an instance of it, in order, with the lifecycles
and the taken tokens of the record, and the others are passed over. -/
theorem Document.restore_exact {p : Document} {g : Graph} (compiled : p.compile = .ok g)
    (head stack : List Activity) :
    ((∃ err, History.restore g head stack = .error err) ↔
      ∃ r ∈ head ++ stack, ∃ d, g.Counterpart r d ∧ d.Conflicts r) ∧
    ((∀ r ∈ head ++ stack, ∀ d, g.Counterpart r d → ¬ d.Conflicts r) →
      ∃ h, History.restore g head stack = .ok h ∧
        g.Restores head h.head ∧ g.Restores stack h.stack) := by
  have hg := wellFormed_of_compile compiled
  have hiff : (∃ err, History.restore g head stack = .error err) ↔
      ∃ r ∈ head ++ stack, ∃ d, g.Counterpart r d ∧ d.Conflicts r := by
    rw [History.restore_error_iff, History.restoreAll_error_iff hg,
      History.restoreAll_error_iff hg]
    simp only [List.mem_append, or_and_right, exists_or]
  refine ⟨hiff, fun accepts => ?_⟩
  cases hrestore : History.restore g head stack with
  | error err =>
    obtain ⟨r, hr, d, hd, hconflicts⟩ := hiff.mp ⟨err, hrestore⟩
    exact absurd hconflicts (accepts r hr d hd)
  | ok h =>
    obtain ⟨head', hhead, hrest⟩ := bind_ok_iff.mp hrestore
    obtain ⟨stack', hstack, hrest⟩ := bind_ok_iff.mp hrest
    cases hrest
    exact ⟨_, rfl, History.restores_of_restoreAll hg hhead,
      History.restores_of_restoreAll hg hstack⟩

namespace Engine

/-- A record of the join with one bare token, where the process has two edges that lead in. -/
def misspelled : Activity :=
  .define "join" (some "Join") none none
    (.gateway ⟨.parallel, some (.one ⟨"f_left_done", true⟩), some (.one ⟨"f_end", false⟩)⟩)

/-- The snapshot that was tampered with is restored but for the record that belongs to no process,
and with the misspelled record it is refused. -/
theorem restore_exact_tampered :
    ∃ g, Builder.diamond.build.compile = .ok g ∧
      (∃ h, History.restore g tampered.head tampered.stack = .ok h ∧
        h.head.map (·.id) = ["left", "join", "start"] ∧ tampered.head.length = 4 ∧
        g.Restores tampered.head h.head ∧ g.Restores tampered.stack h.stack) ∧
      ∃ err, History.restore g (tampered.head ++ [misspelled]) tampered.stack = .error err := by
  obtain ⟨g, compiled, hok, join, hjoin, hid, hrefs⟩ : ∃ g,
      Builder.diamond.build.compile = .ok g ∧
        (∃ h, History.restore g tampered.head tampered.stack = .ok h ∧
          h.head.map (·.id) = ["left", "join", "start"]) ∧
        ∃ join ∈ g.activities, join.id = "join" ∧
          join.incoming = some (.many ["f_left_done", "f_right_done"]) :=
    ⟨_, rfl, ⟨_, rfl, rfl⟩, _, List.mem_of_getElem? (i := 4) rfl, rfl, rfl⟩
  refine ⟨g, compiled, ?_, ?_⟩
  · obtain ⟨hrefused, hrestored⟩ := Document.restore_exact compiled tampered.head tampered.stack
    obtain ⟨h, hh, hids⟩ := hok
    obtain ⟨h', hh', hhead, hstack⟩ := hrestored fun r hr d hd hconflicts => by
      obtain ⟨err, herr⟩ := hrefused.mpr ⟨r, hr, d, hd, hconflicts⟩
      rw [hh] at herr
      cases herr
    obtain rfl : h = h' := Except.ok.inj (hh.symm.trans hh')
    exact ⟨h, hh, hids, rfl, hhead, hstack⟩
  · obtain ⟨hrefused, -⟩ :=
      Document.restore_exact compiled (tampered.head ++ [misspelled]) tampered.stack
    have hdiffer : join.Conflicts misspelled := by
      refine .tokens rfl fun hstands => ?_
      have hin := hstands.1
      rw [hrefs] at hin
      cases hin
    exact hrefused.mpr ⟨misspelled, by simp, join, .byId hjoin hid, hdiffer⟩

end Engine

end Workflow
