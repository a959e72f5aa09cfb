import Workflow.Proofs.Engine.Rounds

/-!
# Errands

There are three errands that make an engine run activities: to go forward, to run an activity by
name, and to run one by id with a handler that the caller brings.  Whichever it is, the turn comes
about by rounds, and the errand says of each of them on which activity it is and with which handler
(`Errand.Governs`): the first is the one that was asked for, and every other one is the next in
going forward (`Engine.Arises.turn_governed`).
-/

namespace Workflow

variable {σ : Type}

/-- What a caller asks an engine to run. -/
inductive Errand (σ : Type) where
  /-- To go forward. -/
  | advance
  /-- To run the first live activity of a name and go forward. -/
  | run (name : String)
  /-- To run the live activity of an id with a handler that the caller brings and go forward. -/
  | execute (id : String) (handler : Handler σ)

/-- The turn in which an engine runs an errand. -/
def Engine.turn (e : Engine σ) (errand : Errand σ) (payload : Json) (memory : σ)
    (o : Occasion) : Turn σ :=
  match errand with
  | .advance => e.advance payload memory o
  | .run name => e.run name payload memory o
  | .execute id handler => e.execute id handler payload memory o

/-- Whether the rounds of a turn are those of the errand: first the one that is asked for, if any,
and then, going forward, each time the next one. -/
def Errand.Governs (table : HandlerTable (Handler σ)) (now : Instant) :
    Errand σ → List (Round σ) → Prop
  | .advance, rounds => Round.GoesForward table now [] rounds
  | _, [] => True
  | .run name, first :: rounds =>
    first.RunsByName table name ∧ Round.GoesForward table now [] rounds
  | .execute id handler, first :: rounds =>
    (first.activity.id = id ∧ first.invocation.origin = .given ∧
      first.invocation.handler = handler) ∧ Round.GoesForward table now [] rounds

namespace Engine

variable {now : Instant}

/-- A call that is refused runs nothing. -/
theorem refuse_rounds (e : Engine σ) (memory : σ) (err : Error) (table : HandlerTable (Handler σ))
    (now : Instant) (payload : Json) :
    (e.refuse memory err).Comprises now e payload memory [] ∧
      (e.refuse memory err).Exhausts table now [] :=
  unplayed_rounds e payload memory table now [] (.error err) (by simp)

/-- A finished engine, which could not go on, runs nothing. -/
theorem finished_rounds {e : Engine σ} (h : e.isIn .finished = true) (memory : σ)
    (table : HandlerTable (Handler σ)) (now : Instant) (payload : Json) :
    Turn.Comprises ⟨e, memory, .payload payload, []⟩ now e payload memory [] ∧
      Turn.Exhausts ⟨e, memory, .payload payload, []⟩ table now [] := by
  refine ⟨⟨rfl, .rest fun _ h => (Reply.payload.inj h).symm⟩, fun _ _ _ hstarted => ?_⟩
  rw [isIn, hstarted] at h
  cases h

/-- Nothing is settled before the first round. -/
theorem mem_nil_iff_settled (id : String) :
    id ∈ [] ↔ Round.Settled now ([] : List (Round σ)) id := by
  simp [Round.Settled]

/-- Where an activity is run, its round comes first and going forward follows. -/
theorem runWith_rounds {e : Engine σ} (he : e.Agrees) (id : String) (origin : Origin)
    (handler : Handler σ) (payload : Json) (memory : σ) (o : Occasion) :
    ∃ rounds, (e.runWith id origin handler payload memory o).Comprises o.now e payload memory
        rounds ∧
      (e.runWith id origin handler payload memory o).Exhausts e.table o.now rounds ∧
      ∀ first later, rounds = first :: later → Round.GoesForward e.table o.now [] later ∧
        ∃ graph found, e.toRun id = .ok (graph, found) ∧
          first = ⟨e, memory, ⟨found, origin, handler, payload⟩⟩ := by
  unfold runWith
  split
  · next hfinished =>
    obtain ⟨hnone, hexhausts⟩ := finished_rounds hfinished memory e.table o.now payload
    exact ⟨[], hnone, hexhausts, fun _ _ h => nomatch h⟩
  · split
    · next err _ =>
      obtain ⟨hnone, hexhausts⟩ := refuse_rounds e memory err e.table o.now payload
      exact ⟨[], hnone, hexhausts, fun _ _ h => nomatch h⟩
    · cases hrun : e.toRun id with
      | error err =>
        rw [dispatch_refused hrun]
        obtain ⟨hnone, hexhausts⟩ := refuse_rounds e memory err e.table o.now payload
        exact ⟨[], hnone, hexhausts, fun _ _ h => nomatch h⟩
      | ok found =>
        obtain ⟨graph, found⟩ := found
        obtain rfl : found.id = id := (History.headById?_some (toRun_ok_iff.mp hrun).2.1).2
        let r : Round σ := ⟨e, memory, ⟨found, origin, handler, payload⟩⟩
        let rest : Json → Turn σ := fun value =>
          forward o.now o.limit [] (r.left o.now).engine value (r.left o.now).memory
        show ∃ rounds, ((r.left o.now).followed rest).Comprises _ _ _ _ _ ∧
          ((r.left o.now).followed rest).Exhausts _ _ _ ∧ _
        rcases comprises_followed (r := r) ⟨graph, hrun⟩ o.now rest with
          ⟨hone, err, -, herr⟩ | ⟨value, -, hengine, hreply, hlater⟩
        · refine ⟨[r], hone, fun value hvalue => ?_, fun first later h => ?_⟩
          · rw [hvalue] at herr
            cases herr
          · cases h
            exact ⟨trivial, graph, found, rfl, rfl⟩
        · have hagrees : (r.left o.now).engine.Agrees :=
            he.dispatch found.id origin handler payload memory o.now
          have htable : (r.left o.now).engine.table = e.table := table_dispatch e _ _ _ _ _ _
          obtain ⟨rounds, hcomprises, hgoes, hexhausts⟩ :=
            forward_rounds o.now o.limit hagrees mem_nil_iff_settled value (r.left o.now).memory
          rw [htable] at hgoes hexhausts
          refine ⟨r :: rounds, hlater rounds hcomprises, ?_, fun first later h => ?_⟩
          · unfold Turn.Exhausts
            rw [hengine, hreply]
            intro value hvalue hbound hstarted a ha hcan
            refine hexhausts value hvalue hbound hstarted a ha ⟨hcan.1, hcan.2.1, ?_⟩
            exact fun hsettled => hcan.2.2 (hsettled.mono (List.subset_cons_self _ _))
          · cases h
            exact ⟨hgoes, graph, found, rfl, rfl⟩

/-- The handler for a run by name answers for the name. -/
theorem answers_choiceFor (e : Engine σ) (name : String) :
    e.table.Answers name (e.choiceFor name) := by
  unfold choiceFor table
  cases e.handlers with
  | none => exact ⟨rfl, rfl⟩
  | some table => exact table.answers_forRun name

/-- What a run by name runs is the first live activity of the name. -/
theorem runsByName_of_headByName? {e : Engine σ} (he : e.Agrees) {name : String} {a : Activity}
    (ha : e.history.headByName? name = some a) {graph : Graph} {found : Activity}
    (hrun : e.toRun a.id = .ok (graph, found)) (payload : Json) (memory : σ) :
    Round.RunsByName e.table name ⟨e, memory,
      ⟨found, (e.choiceFor name).origin, (e.choiceFor name).handler, payload⟩⟩ := by
  obtain ⟨hname, ahead, behind, hhead, hahead⟩ := List.find?_eq_some_iff_append.mp ha
  have hnamed : a.name = some name := eq_of_beq hname
  have hothers : ∀ b ∈ ahead, b.name ≠ some name := by
    intro b hb hb'
    have hnot := hahead b hb
    simp [Activity.hasName, hb'] at hnot
  obtain rfl : found = a := toRun_eq he hhead hrun fun b hb _ _ hsame =>
    hothers b hb (hsame.trans hnamed)
  exact ⟨hnamed, ⟨ahead, behind, hhead, hothers⟩, e.choiceFor name, ⟨rfl, rfl⟩,
    e.answers_choiceFor name⟩

/-- The rounds of a turn are those of the errand, and they exhaust what can run. -/
theorem turn_rounds {e : Engine σ} (he : e.Agrees) (errand : Errand σ) (payload : Json)
    (memory : σ) (o : Occasion) :
    ∃ rounds, (e.turn errand payload memory o).Comprises o.now e payload memory rounds ∧
      errand.Governs e.table o.now rounds ∧
      (e.turn errand payload memory o).Exhausts e.table o.now rounds := by
  cases errand with
  | advance =>
    show ∃ rounds, (e.advance payload memory o).Comprises _ _ _ _ _ ∧ _ ∧
      (e.advance payload memory o).Exhausts _ _ _
    unfold advance
    split
    · next hfinished =>
      obtain ⟨hnone, hexhausts⟩ := finished_rounds hfinished memory e.table o.now payload
      exact ⟨[], hnone, trivial, hexhausts⟩
    · split
      · next err _ =>
        obtain ⟨hnone, hexhausts⟩ := refuse_rounds e memory err e.table o.now payload
        exact ⟨[], hnone, trivial, hexhausts⟩
      · obtain ⟨rounds, hcomprises, hgoes, hexhausts⟩ :=
          forward_rounds o.now o.limit he mem_nil_iff_settled payload memory
        exact ⟨rounds, hcomprises, hgoes, hexhausts⟩
  | run name =>
    show ∃ rounds, (e.run name payload memory o).Comprises _ _ _ _ _ ∧ _ ∧
      (e.run name payload memory o).Exhausts _ _ _
    unfold run
    split
    · obtain ⟨hnone, hexhausts⟩ := refuse_rounds e memory .alreadyFinished e.table o.now payload
      exact ⟨[], hnone, trivial, hexhausts⟩
    · split
      · obtain ⟨hnone, hexhausts⟩ :=
          refuse_rounds e memory (.runTargetNotFound name) e.table o.now payload
        exact ⟨[], hnone, trivial, hexhausts⟩
      · next a ha =>
        obtain ⟨rounds, hcomprises, hexhausts, hfirst⟩ := runWith_rounds he a.id
          (e.choiceFor name).origin (e.choiceFor name).handler payload memory o
        refine ⟨rounds, hcomprises, ?_, hexhausts⟩
        cases rounds with
        | nil => exact trivial
        | cons first later =>
          obtain ⟨hgoes, graph, found, hrun, rfl⟩ := hfirst first later rfl
          exact ⟨runsByName_of_headByName? he ha hrun payload memory, hgoes⟩
  | execute id handler =>
    obtain ⟨rounds, hcomprises, hexhausts, hfirst⟩ :=
      runWith_rounds he id .given handler payload memory o
    refine ⟨rounds, hcomprises, ?_, hexhausts⟩
    cases rounds with
    | nil => exact trivial
    | cons first later =>
      obtain ⟨hgoes, graph, found, hrun, rfl⟩ := hfirst first later rfl
      exact ⟨⟨(History.headById?_some (toRun_ok_iff.mp hrun).2.1).2, rfl, rfl⟩, hgoes⟩

/-- What is registered in the table of an engine is served. -/
theorem serves_of_has {e : Engine σ} {handler : Handler σ} (h : e.table.Has handler) :
    e.Serves handler := by
  unfold table at h
  cases hhandlers : e.handlers with
  | none =>
    rw [hhandlers] at h
    obtain ⟨name, r, tier, hfind, -⟩ := h
    cases hfind
  | some table =>
    rw [hhandlers] at h
    exact .inr ⟨table, hhandlers, h⟩

/-- What drives an activity is served. -/
theorem serves_of_drives {e : Engine σ} {name : Option String} {choice : Choice (Handler σ)}
    (h : e.table.Drives name choice) : e.Serves choice.handler := by
  cases choice with
  | default => exact .inl rfl
  | registered tier handler =>
    obtain ⟨-, n, -, hauto⟩ := h
    obtain ⟨r, hr, hon⟩ := Option.bind_eq_some_iff.mp hauto
    exact serves_of_has ⟨n, r, .automatic, hr, hon⟩

/-- What answers for a name is served. -/
theorem serves_of_answers {e : Engine σ} {name : String} {choice : Choice (Handler σ)}
    (h : e.table.Answers name choice) : e.Serves choice.handler := by
  cases choice with
  | default => exact .inl rfl
  | registered tier handler =>
    cases tier with
    | manual =>
      obtain ⟨r, hr, hon⟩ := Option.bind_eq_some_iff.mp h
      exact serves_of_has ⟨name, r, .manual, hr, hon⟩
    | automatic =>
      obtain ⟨r, hr, hon⟩ := Option.bind_eq_some_iff.mp h.2
      exact serves_of_has ⟨name, r, .automatic, hr, hon⟩

/-- Going forward runs handlers that are served. -/
theorem serves_of_goesForward {e : Engine σ} {before rounds : List (Round σ)}
    (h : Round.GoesForward e.table now before rounds) :
    ∀ r ∈ rounds, e.Serves r.invocation.handler := by
  induction rounds generalizing before with
  | nil => exact fun r hr => nomatch hr
  | cons first rounds ih =>
    obtain ⟨hfirst, hrounds⟩ := h
    obtain ⟨choice, ⟨-, hhandler⟩, hdrives⟩ := hfirst.driven
    exact List.forall_mem_cons.mpr ⟨hhandler ▸ serves_of_drives hdrives, ih hrounds⟩

/-- The handlers that the rounds of an errand call are served or brought by the caller. -/
theorem serves_of_governs {e : Engine σ} {errand : Errand σ} {rounds : List (Round σ)}
    (h : errand.Governs e.table now rounds) :
    ∀ r ∈ rounds, e.Serves r.invocation.handler ∨
      ∃ id, errand = .execute id r.invocation.handler := by
  cases errand with
  | advance => exact fun r hr => .inl (serves_of_goesForward h r hr)
  | run name =>
    cases rounds with
    | nil => exact fun r hr => nomatch hr
    | cons first later =>
      obtain ⟨choice, ⟨-, hhandler⟩, hanswers⟩ := h.1.answered
      exact List.forall_mem_cons.mpr ⟨.inl (hhandler ▸ serves_of_answers hanswers),
        fun r hr => .inl (serves_of_goesForward h.2 r hr)⟩
  | execute id handler =>
    cases rounds with
    | nil => exact fun r hr => nomatch hr
    | cons first later =>
      exact List.forall_mem_cons.mpr ⟨.inr ⟨id, by rw [h.1.2.2]⟩,
        fun r hr => .inl (serves_of_goesForward h.2 r hr)⟩

/-- Going forward runs no handler of the manual tier. -/
theorem origin_of_goesForward {table : HandlerTable (Handler σ)} {before rounds : List (Round σ)}
    (h : Round.GoesForward table now before rounds) :
    ∀ r ∈ rounds, r.invocation.origin ≠ .tier .manual := by
  induction rounds generalizing before with
  | nil => exact fun r hr => nomatch hr
  | cons first rounds ih =>
    obtain ⟨hfirst, hrounds⟩ := h
    intro r hr
    rcases List.mem_cons.mp hr with rfl | hr
    · obtain ⟨choice, ⟨horigin, -⟩, hdrives⟩ := hfirst.driven
      rw [horigin]
      cases choice with
      | registered tier handler => obtain ⟨rfl, -⟩ := hdrives; exact fun h => nomatch h
      | default => exact fun h => nomatch h
    · exact ih hrounds r hr

/-- A handler of the manual tier is run only in the first round of a run by name. -/
theorem manual_of_governs {table : HandlerTable (Handler σ)} {errand : Errand σ}
    {rounds : List (Round σ)} (h : errand.Governs table now rounds) {k : Nat} {r : Round σ}
    (hr : rounds[k]? = some r) (manual : r.invocation.origin = .tier .manual) :
    k = 0 ∧ ∃ name, errand = .run name ∧ r.activity.name = some name := by
  have hnever : ∀ {before rounds : List (Round σ)}, Round.GoesForward table now before rounds →
      ∀ k : Nat, rounds[k]? ≠ some r := by
    intro before rounds hgoes k hk
    exact origin_of_goesForward hgoes r (List.mem_of_getElem? hk) manual
  cases errand with
  | advance => exact absurd hr (hnever h k)
  | run name =>
    cases rounds with
    | nil => cases hr
    | cons first later =>
      cases k with
      | zero =>
        obtain rfl : first = r := by simpa using hr
        exact ⟨rfl, name, rfl, h.1.named⟩
      | succ k => exact absurd (by simpa using hr) (hnever h.2 k)
  | execute id handler =>
    cases rounds with
    | nil => cases hr
    | cons first later =>
      cases k with
      | zero =>
        obtain rfl : first = r := by simpa using hr
        rw [h.1.2.1] at manual
        cases manual
      | succ k => exact absurd (by simpa using hr) (hnever h.2 k)

/-- Which handler runs, and when.  A turn comes about by rounds that call its handlers one after
another, each on a live activity that is entered, and none after one that fails.  The first round of
a run by name is on the first live activity of that name, with the handler for runs of it; that of
an execution is on the given id with the given handler; every other round is on the first live
activity that is entered, not left alone and not settled, with the handler that drives it.  So a
manual handler runs only in the first round of a run by name, unless a caller brings it. -/
theorem Arises.turn_governed {e : Engine σ} (arises : e.Arises) (errand : Errand σ)
    (payload : Json) (memory : σ) (o : Occasion) :
    ∃ rounds, (e.turn errand payload memory o).Comprises o.now e payload memory rounds ∧
      errand.Governs e.table o.now rounds ∧
      ∀ k r, rounds[k]? = some r → r.invocation.origin = .tier .manual →
        k = 0 ∧ ∃ name, errand = .run name ∧ r.activity.name = some name := by
  obtain ⟨rounds, hcomprises, hgoverns, -⟩ := turn_rounds arises.agrees errand payload memory o
  exact ⟨rounds, hcomprises, hgoverns, fun _ _ hr manual => manual_of_governs hgoverns hr manual⟩

/-- An engine for the process with two branches, of which the left one also runs unattended. -/
def staffed : Engine Unit :=
  ofProcess Builder.diamond.build
    ((HandlerTable.waiting .default ["Left", "Right"]).register "Left" .automatic .default)

/-- The engine after it has gone forward. -/
def attended : Engine Unit := staffed.after (.advance .null () ⟨.epoch, 9⟩)

/-- The left task has run and the right one was left alone, which now runs by name. -/
theorem turn_governed_attended :
    attended.history.stack.map (·.id) = ["start", "fork", "left"] ∧
      (attended.turn (.run "Right") .null () ⟨.epoch, 9⟩).invocations.map
          (fun i => (i.activity.id, i.origin)) =
        [("right", .tier .manual), ("join", .default), ("end", .default)] ∧
      ∃ rounds, (attended.turn (.run "Right") .null () ⟨.epoch, 9⟩).Comprises .epoch attended .null
          () rounds ∧
        Errand.Governs attended.table .epoch (.run "Right") rounds := by
  have harises : attended.Arises := .called (arises_ofProcess ..) _
  obtain ⟨rounds, hcomprises, hgoverns, -⟩ :=
    Arises.turn_governed harises (.run "Right") .null () ⟨.epoch, 9⟩
  exact ⟨rfl, rfl, rounds, hcomprises, hgoverns⟩

end Engine

end Workflow
