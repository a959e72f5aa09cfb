import Workflow.Proofs.Engine.Boundary
import Workflow.Proofs.Engine.Redirection
import Workflow.Proofs.Engine.Refusal

/-!
# What a failing handler leaves behind

A handler works on a copy of its activity, but it reaches the other live activities themselves.
When it fails, nothing of this is undone: the copy is written over the activity, whatever has become
of it, and the call ends there, with the error of the handler and what the rounds before have left
(`Engine.Arises.failed_handler`).

Two actions reach the other live activities.  A takeover puts a target of the boundary event in the
place of the live activity of its id, or behind all of them if there is none, and a stop stops
whatever is live then.  So each activity that was live has been replaced, stopped or left alone
(`Step.Becomes`), in its place, and the only others are targets of a takeover
(`Step.Reaches.leaves`).  The handler may do both, one of them, or neither, in any order and any
number of times; what it has done is read off its run (`Program.Does`).
-/

namespace Workflow

/-- A program comes to its end by the actions that it does. -/
theorem Program.reaches_done {α : Type} (program : Program α) (st : Step) :
    Step.Reaches (fun action => program.Does action st) st (program.run st).2 := by
  induction program generalizing st with
  | done a => exact .refl
  | act action next ih =>
    -- A refused action leaves the step as it is, and is not one that the program does.
    unfold run
    cases hperform : st.perform action with
    | ok st' =>
      have hfirst : (act action next).Does action st := by
        unfold Does
        rw [hperform]
        exact .inl rfl
      have hrest : ∀ a, (next none st').Does a st' → (act action next).Does a st := by
        intro a ha
        unfold Does
        rw [hperform]
        exact .inr ha
      exact (Step.Reaches.act .refl hfirst hperform).trans ((ih none st' st').mono hrest)
    | error e =>
      have hrest : ∀ a, (next (some e) st).Does a st → (act action next).Does a st := by
        intro a ha
        unfold Does
        rw [hperform]
        exact ha
      exact (ih (some e) st st).mono hrest

/-! ## What a handler leaves of the live activities -/

namespace Step

variable {st st' : Step} {does : Action → Prop} {a b x : Activity}

/-- Whether an activity is one that a takeover of the boundary event makes live. -/
def TakenOver (st : Step) (x : Activity) : Prop :=
  ∃ ev f d, st.activity.boundary? = some ev ∧ f ∈ st.graph.edgesFrom ev.id ∧
    st.graph.activity? f.target = some d ∧
    x = redirected (st.history.lastCompleted? d.id) d ev.outgoing st.now

/-- What may become of a live activity while a handler does some actions, from a step on. -/
inductive Becomes (st : Step) (does : Action → Prop) (a : Activity) : Activity → Prop where
  /-- It stays as it is. -/
  | same : Becomes st does a a
  /-- A takeover puts another one of its id in its place. -/
  | replaced {x : Activity} (takes : does .takeBoundaryEvent) (leads : st.TakenOver x)
    (id : x.id = a.id) : Becomes st does a x
  /-- It is stopped with all the others, unless it has the id of the handler's own activity. -/
  | stopped {x : Activity} (before : Becomes st does a x) (stops : does .stopAllExceptThis)
    (other : a.id ≠ st.activity.id) : Becomes st does a (x.set .stopped st.now)

/-- Whatever becomes of an activity has its id. -/
theorem Becomes.id_eq (h : st.Becomes does a b) : b.id = a.id := by
  induction h with
  | same => rfl
  | replaced takes leads id => exact id
  | stopped before stops other ih => exact ih

/-- Whether live activities are what a handler leaves of those that were live, each in its place,
and others have been made live by takeovers. -/
structure Leaves (st : Step) (does : Action → Prop) (live kept made : List Activity) : Prop where
  /-- Something has become of each one that was live. -/
  becomes : List.Forall₂ (st.Becomes does) live kept
  /-- Any other one comes from a takeover. -/
  taken : ∀ a ∈ made, ∃ x, does .takeBoundaryEvent ∧ st.TakenOver x ∧ st.Becomes does x a
  /-- No two of the others have the same id. -/
  unique : (made.map (·.id)).Nodup
  /-- Nothing was live under their ids. -/
  fresh : ∀ a ∈ made, a.id ∉ live.map (·.id)

variable {live kept made : List Activity}

/-- What is left of the live activities has their ids. -/
theorem ids_of_becomes (h : List.Forall₂ (st.Becomes does) live kept) :
    kept.map (·.id) = live.map (·.id) := by
  induction h with
  | nil => rfl
  | cons hab hrest ih => rw [List.map_cons, List.map_cons, hab.id_eq, ih]

/-- What a takeover makes live is put in its place or behind the others. -/
theorem Leaves.pushHead (h : st.Leaves does live kept made) (takes : does .takeBoundaryEvent)
    (leads : st.TakenOver x) {history : History} (hhead : history.head = kept ++ made) :
    ∃ kept' made', (history.pushHead x).head = kept' ++ made' ∧
      st.Leaves does live kept' made' := by
  have hids := ids_of_becomes h.becomes
  unfold History.pushHead
  split
  · next hlive =>
    have hwrite : (history.writeBack x).head =
        if kept.any (·.id == x.id) then updateFirst (·.id == x.id) (fun _ => x) kept ++ made
        else kept ++ updateFirst (·.id == x.id) (fun _ => x) made := by
      show updateFirst (·.id == x.id) (fun _ => x) history.head = _
      rw [hhead, updateFirst_append]
    rw [hwrite]
    split
    · -- The first live activity of the id was live before the handler.
      refine ⟨_, made, rfl, ?_, h.taken, h.unique, h.fresh⟩
      refine forall₂_updateFirst h.becomes fun a b hab hb => ?_
      exact .replaced takes leads ((eq_of_beq hb).symm.trans hab.id_eq)
    · -- It was itself made live by a takeover.
      have hsame : (updateFirst (·.id == x.id) (fun _ => x) made).map (·.id) = made.map (·.id) :=
        map_updateFirst (·.id) (fun b hb => (eq_of_beq hb).symm) made
      refine ⟨kept, _, rfl, h.becomes, ?_, ?_, ?_⟩
      · exact forall_updateFirst h.taken fun _ _ _ => ⟨x, takes, leads, .same⟩
      · rw [hsame]
        exact h.unique
      · exact forall_updateFirst h.fresh fun a ha hax => eq_of_beq hax ▸ h.fresh a ha
  · next hnew =>
    -- Nothing of its id is live, so it comes last.
    rw [any_id_iff, hhead, List.map_append, List.mem_append, not_or, hids] at hnew
    obtain ⟨hlive, hmade⟩ := hnew
    refine ⟨kept, made ++ [x], by simp [hhead], h.becomes, ?_, ?_, ?_⟩
    · exact List.forall_mem_append.mpr
        ⟨h.taken, List.forall_mem_singleton.mpr ⟨x, takes, leads, .same⟩⟩
    · rw [List.map_append, List.map_singleton, ← List.concat_eq_append]
      exact h.unique.concat hmade
    · exact List.forall_mem_append.mpr ⟨h.fresh, List.forall_mem_singleton.mpr hlive⟩

/-- A handler leaves everything that was live as it is before it does anything. -/
theorem leaves_refl (st : Step) (does : Action → Prop) (live : List Activity) :
    st.Leaves does live live [] where
  becomes := List.forall₂_same.mpr fun _ _ => .same
  taken := by simp
  unique := List.nodup_nil
  fresh := by simp

/-- What takeovers along some flows of the boundary event make live. -/
theorem Leaves.foldl_redirectAlong (takes : does .takeBoundaryEvent) {b : BoundaryEvent}
    (leads : ∀ f d, f ∈ st'.graph.edgesFrom b.id → st'.graph.activity? f.target = some d →
      st.TakenOver (redirected (st.history.lastCompleted? d.id) d b.outgoing st'.now))
    {flows : List Flow} (hflows : flows ⊆ st'.graph.edgesFrom b.id)
    (h : st.Leaves does live kept made) {history : History}
    (hstack : history.stack = st.history.stack) (hhead : history.head = kept ++ made) :
    ∃ kept' made', (flows.foldl (st'.redirectAlong b.outgoing) history).head = kept' ++ made' ∧
      st.Leaves does live kept' made' := by
  induction flows generalizing kept made history with
  | nil => exact ⟨kept, made, hhead, h⟩
  | cons f flows ih =>
    obtain ⟨hf, hflows⟩ := List.cons_subset.mp hflows
    have hstack' : (st'.redirectAlong b.outgoing history f).stack = st.history.stack :=
      (stack_redirectAlong ..).trans hstack
    obtain ⟨kept', made', hhead', h'⟩ : ∃ kept' made',
        (st'.redirectAlong b.outgoing history f).head = kept' ++ made' ∧
          st.Leaves does live kept' made' := by
      unfold redirectAlong
      split
      · exact ⟨kept, made, hhead, h⟩
      · next d hd =>
        -- A takeover does not log anything, so each flow resumes from the same stack.
        have hlast : history.lastCompleted? d.id = st.history.lastCompleted? d.id := by
          unfold History.lastCompleted?
          rw [hstack]
        rw [hlast]
        exact h.pushHead takes (leads f d hf hd) hhead
    exact ih hflows h' hstack' hhead'

/-- What a stop leaves. -/
theorem Leaves.stop (stops : does .stopAllExceptThis) (h : st.Leaves does live kept made) :
    let stop := fun a : Activity => if a.id = st.activity.id then a else a.set .stopped st.now
    st.Leaves does live (kept.map stop) (made.map stop) := by
  intro stop
  have hid : ∀ a, (stop a).id = a.id := by
    intro a
    unfold stop
    split <;> rfl
  have hstop : ∀ {a b}, st.Becomes does a b → st.Becomes does a (stop b) := by
    intro a b hab
    unfold stop
    split
    · exact hab
    · next hother => exact .stopped hab stops (hab.id_eq ▸ hother)
  refine ⟨?_, ?_, ?_, ?_⟩
  · rw [List.forall₂_map_right_iff]
    exact h.becomes.imp fun _ _ => hstop
  · refine List.forall_mem_map.mpr fun a ha => ?_
    obtain ⟨x, takes, leads, hxa⟩ := h.taken a ha
    exact ⟨x, takes, leads, hstop hxa⟩
  · rw [List.map_map]
    simpa only [Function.comp_def, hid] using h.unique
  · refine List.forall_mem_map.mpr fun a ha => ?_
    rw [hid]
    exact h.fresh a ha

/-- What one action leaves, at a step that some actions have led to. -/
theorem Leaves.perform {st'' : Step} (h : st.Leaves does live kept made)
    (before : Reaches does st st') (hhead : st'.history.head = kept ++ made) {action : Action}
    (ok : does action) (done : st'.perform action = .ok st'') :
    ∃ kept' made', st''.history.head = kept' ++ made' ∧ st.Leaves does live kept' made' := by
  obtain ⟨hgraph, hnow, hstack, hblank⟩ := before.frame
  have hid : st'.activity.id = st.activity.id := Activity.id_eq_of_blank hblank
  rcases perform_cases done with
    ⟨edit, a, -, rfl, -⟩ | ⟨rfl, t, b, ht, hb, rfl⟩ | ⟨rfl, rfl⟩
  · exact ⟨kept, made, hhead, h⟩
  · -- The boundary event is the one from before, wherever it stands now.
    have hboundary : st'.activity.boundary? = some b := (Activity.boundary?_of_task ht).trans hb
    obtain ⟨ev, hev, hevid, hedge⟩ := Activity.exists_boundary_of_blank hblank hboundary
    refine h.foldl_redirectAlong ok (fun f d hf hd => ?_) (List.Subset.refl _) hstack hhead
    rw [hgraph] at hf hd
    exact ⟨ev, f, d, hev, hevid ▸ hf, hd, by rw [hedge, hnow]⟩
  · refine ⟨_, _, ?_, h.stop ok⟩
    simp only [stopAllExceptThis, hhead, List.map_append, hid, hnow]

/-- What a handler leaves of the live activities when its actions have led to a step. -/
theorem Reaches.leaves (h : Reaches does st st') :
    ∃ kept made, st'.history.head = kept ++ made ∧
      st.Leaves does st.history.head kept made := by
  induction h with
  | refl => exact ⟨st.history.head, [], by simp, st.leaves_refl does _⟩
  | act before ok done ih =>
    obtain ⟨kept, made, hhead, hleaves⟩ := ih
    exact hleaves.perform before hhead ok done

/-- The targets of a takeover are those that are known among the targets of the flows that leave the
event, and a handler that takes the event leaves them live. -/
theorem mem_ids_of_takenOver {g : Graph} (hg : g.WellFormed) (hst : st.graph = g)
    (agrees : st.history.Agrees g) {α : Type} {program : Program α}
    (takes : program.Does .takeBoundaryEvent st) (leads : st.TakenOver x) :
    x.id ∈ (program.run st).2.history.head.map (·.id) := by
  obtain ⟨ev, f, d, hev, hf, hd, rfl⟩ := leads
  -- The target is live right after the action, and no action takes a branch away.
  obtain ⟨before, after, hbefore, htaken, hafter⟩ := takes.exists_step .refl
  obtain ⟨hgraph, -, -, hblank⟩ := hbefore.frame
  have hbuilt : before.graph = g := hgraph.trans hst
  have hattached : before.activity.blank.boundary? = some ev.blank := by
    rw [hblank, Activity.boundary?_blank, hev]
    rfl
  rw [hst] at hf hd
  have hlive : f.target ∈ after.history.head.map (·.id) :=
    mem_ids_takeover hbuilt hattached htaken hf (by rw [hd]; rfl)
  have hagrees : after.history.Agrees g :=
    (hbefore.act trivial htaken).kept (History.kept_agrees hg) hg hst agrees
  have hid : (redirected (st.history.lastCompleted? d.id) d ev.outgoing st.now).id = f.target :=
    (id_redirected ..).trans (Graph.activity?_some hd).2
  rw [hid]
  exact hafter.mem_ids hg ((perform_frame htaken).1.trans hbuilt) hagrees hlive

end Step

/-- What is related to a list with an element in its middle has one in its middle, too. -/
theorem exists_of_forall₂_append_cons {α β : Type} {R : β → α → Prop} {bs cs : List β} {b : β}
    {as : List α} (h : List.Forall₂ R (bs ++ b :: cs) as) :
    ∃ bs' b' cs', as = bs' ++ b' :: cs' ∧ List.Forall₂ R bs bs' ∧ R b b' ∧
      List.Forall₂ R cs cs' := by
  induction bs generalizing as with
  | nil =>
    obtain ⟨b', cs', hb, hcs, rfl⟩ := List.forall₂_cons_left_iff.mp h
    exact ⟨[], b', cs', rfl, .nil, hb, hcs⟩
  | cons c bs ih =>
    obtain ⟨c', rest, hc, hrest, rfl⟩ := List.forall₂_cons_left_iff.mp h
    obtain ⟨bs', b', cs', rfl, hbs, hb, hcs⟩ := ih hrest
    exact ⟨c' :: bs', b', cs', rfl, .cons hc hbs, hb, hcs⟩

/-- What is written back over the first live activity of its id takes the place of that. -/
theorem History.head_writeBack {h : History} {ahead behind : List Activity} {x a : Activity}
    (hhead : h.head = ahead ++ x :: behind) (hx : x.id = a.id)
    (hahead : ∀ b ∈ ahead, b.id ≠ a.id) : (h.writeBack a).head = ahead ++ a :: behind := by
  have hnone : ¬ ahead.any (·.id == a.id) = true := by simpa using hahead
  show updateFirst (·.id == a.id) (fun _ => a) h.head = _
  rw [hhead, updateFirst_append, if_neg hnone]
  simp [updateFirst, hx]

/-! ## Rounds whose handler fails -/

variable {σ : Type} {g : Graph} {now : Instant}

namespace Round

/-- Whether the handler of a round does an action. -/
def Does (r : Round σ) (g : Graph) (now : Instant) (action : Step.Action) : Prop :=
  (r.invocation.handler (r.engine.opened g r.activity now) r.invocation.payload r.memory).Does
    action (r.engine.opened g r.activity now)

/-- Whether the handler of a round fails, and what it remembers then. -/
def Fails (r : Round σ) (g : Graph) (now : Instant) (memory : σ) (failure : Failure) : Prop :=
  (r.invocation.handler (r.engine.opened g r.activity now) r.invocation.payload r.memory).run
    (r.engine.opened g r.activity now) = ((memory, .error failure), r.step g now)

/-- Whether live activities are what the handler of a round leaves besides its own: `ahead'` and
`behind'` of those ahead of it and behind it, and `made` of no one. -/
structure Abandons (r : Round σ) (g : Graph) (now : Instant)
    (ahead behind ahead' behind' made : List Activity) : Prop where
  /-- The handler was called for the activity between those ahead and those behind. -/
  split : r.engine.history.head = ahead ++ r.activity :: behind
  /-- It is the first live one of its id. -/
  first : ∀ a ∈ ahead, a.id ≠ r.activity.id
  /-- The others are as the handler has left them, with something in the place of the activity. -/
  left : ∃ x, (r.step g now).history.head = ahead' ++ x :: (behind' ++ made)
  /-- Each one ahead was replaced by a takeover, stopped, or left alone. -/
  ahead : List.Forall₂ ((r.engine.opened g r.activity now).Becomes (r.Does g now)) ahead ahead'
  /-- So was each one behind. -/
  behind : List.Forall₂ ((r.engine.opened g r.activity now).Becomes (r.Does g now)) behind behind'
  /-- The others were made live by a takeover, and then replaced by another one, stopped, or left
  alone. -/
  taken : ∀ a ∈ made, ∃ x, (r.engine.opened g r.activity now).TakenOver x ∧
    (r.engine.opened g r.activity now).Becomes (r.Does g now) x a
  /-- No two of them have the same id. -/
  unique : (made.map (·.id)).Nodup
  /-- There is one for each target of the boundary event that was not live, if the event was
  taken. -/
  ids : ∀ id, id ∈ made.map (·.id) ↔ r.Does g now .takeBoundaryEvent ∧
    (∃ x, (r.engine.opened g r.activity now).TakenOver x ∧ x.id = id) ∧
    id ∉ r.engine.history.head.map (·.id)

variable {r : Round σ}

/-- A round whose handler fails leaves the engine as the handler did, and its error. -/
theorem Fails.left_eq {memory : σ} {failure : Failure} (h : r.Fails g now memory failure)
    (mayRun : r.MayRun) (built : r.engine.graph = some g) :
    r.left now = ⟨r.engine.leave (r.step g now), memory,
      .error (failure.surface r.activity.id), [r.invocation]⟩ := by
  obtain ⟨graph, hrun⟩ := mayRun
  obtain rfl : graph = g := Option.some.inj ((Engine.toRun_ok_iff.mp hrun).1.symm.trans built)
  rw [left, Engine.dispatch_eq hrun h, Engine.ended, r.id_step]
  rfl

/-- What a handler leaves when its activity is written back, whatever it has done. -/
theorem exists_abandons (now : Instant) (hg : g.WellFormed) (agrees : r.engine.history.Agrees g)
    (mayRun : r.MayRun) :
    ∃ ahead behind ahead' behind' made, r.Abandons g now ahead behind ahead' behind' made ∧
      (r.engine.leave (r.step g now)).history.head =
        ahead' ++ (r.step g now).activity :: (behind' ++ made) := by
  let opened := r.engine.opened g r.activity now
  have hid : (r.step g now).activity.id = r.activity.id := r.id_step g now
  obtain ⟨graph, hrun⟩ := mayRun
  obtain ⟨-, ahead, behind, hsplit, hfirst⟩ :=
    List.find?_eq_some_iff_append.mp (Engine.toRun_ok_iff.mp hrun).2.1
  have hreaches : Step.Reaches (r.Does g now) opened (r.step g now) := Program.reaches_done _ _
  obtain ⟨kept, made, hhead, hleaves⟩ := hreaches.leaves
  -- What has become of the activity itself stands between what has become of the others.
  have hlive : opened.history.head = ahead ++ r.activity :: behind := hsplit
  have hbecomes := hleaves.becomes
  rw [hlive] at hbecomes
  obtain ⟨ahead', x, behind', rfl, hahead, hx, hbehind⟩ := exists_of_forall₂_append_cons hbecomes
  have hother : ∀ a ∈ ahead, a.id ≠ r.activity.id := by
    intro a ha hsame
    have hnot := hfirst a ha
    simp [hsame] at hnot
  have hstands : (r.step g now).history.head = ahead' ++ x :: (behind' ++ made) := by
    rw [hhead, List.append_assoc, List.cons_append]
  refine ⟨ahead, behind, ahead', behind', made, ⟨hsplit, hother, ⟨x, hstands⟩, hahead, hbehind, ?_,
    hleaves.unique, fun id => ⟨?_, ?_⟩⟩, ?_⟩
  · intro a ha
    obtain ⟨x, -, leads, hxa⟩ := hleaves.taken a ha
    exact ⟨x, leads, hxa⟩
  · intro hmem
    obtain ⟨a, ha, rfl⟩ := List.mem_map.mp hmem
    obtain ⟨x, takes, leads, hxa⟩ := hleaves.taken a ha
    exact ⟨takes, ⟨x, leads, hxa.id_eq.symm⟩, hleaves.fresh a ha⟩
  · rintro ⟨takes, ⟨x, leads, rfl⟩, hnew⟩
    have hmem : x.id ∈ (r.step g now).history.head.map (·.id) :=
      Step.mem_ids_of_takenOver hg rfl agrees takes leads
    rw [hhead, List.map_append, List.mem_append, Step.ids_of_becomes hleaves.becomes] at hmem
    exact hmem.resolve_left hnew
  · -- The copy goes over what has become of the activity, since none ahead has its id.
    have hahead' : ∀ a ∈ ahead', a.id ≠ (r.step g now).activity.id := by
      intro a ha
      have hmem : a.id ∈ ahead.map (·.id) := Step.ids_of_becomes hahead ▸ List.mem_map_of_mem ha
      obtain ⟨b, hb, hba⟩ := List.mem_map.mp hmem
      rw [hid, ← hba]
      exact hother b hb
    have hsame : x.id = (r.step g now).activity.id := hx.id_eq.trans hid.symm
    exact History.head_writeBack hstands hsame hahead'

end Round

namespace Turn

variable {turn : Turn σ} {e : Engine σ} {payload : Json} {memory : σ} {rounds : List (Round σ)}
  {r : Round σ}

/-- Where rounds follow on one, it has not failed, and they start from what it has left. -/
theorem Plays.later (h : turn.Plays now e payload memory (r :: rounds)) (more : rounds ≠ []) :
    ∃ value, turn.Plays now (r.left now).engine value (r.left now).memory rounds := by
  cases h with
  | failed => exact absurd rfl more
  | next mayRun ok later => exact ⟨_, later⟩

/-- A round starts from what the one before it has left, and the first one from what the turn has
started from. -/
theorem Plays.engine_of_append {earlier : List (Round σ)}
    (h : turn.Plays now e payload memory (earlier ++ r :: rounds)) :
    r.engine = earlier.getLast?.elim e fun r' => (r'.left now).engine := by
  induction earlier generalizing e payload memory with
  | nil => exact h.first.1
  | cons first earlier ih =>
    obtain ⟨value, hlater⟩ := h.later (by simp)
    rw [ih hlater, List.getLast?_cons]
    cases earlier.getLast? <;> rfl

end Turn

namespace Engine

/-- When a handler fails, that ends the call, with its error.  Of what the rounds before have left,
nothing changes but the live activities.  The activity of the handler is as the handler left it, and
is not routed, whatever its status is; every other live activity was replaced by a takeover, stopped
or left alone, in its place; and behind all of them are the targets of a takeover that were not live
before. -/
theorem Arises.failed_handler {e : Engine σ} (arises : e.Arises) (built : e.graph = some g)
    (errand : Errand σ) (payload : Json) (memory : σ) (o : Occasion) :
    ∃ rounds, (e.turn errand payload memory o).Comprises o.now e payload memory rounds ∧
      ∀ r ∈ rounds, ∀ memory' failure, r.Fails g o.now memory' failure →
        (∃ earlier, rounds = earlier ++ [r] ∧
          r.engine = earlier.getLast?.elim e fun r' => (r'.left o.now).engine) ∧
        (e.turn errand payload memory o).reply = .error (failure.surface r.activity.id) ∧
        ∃ ahead behind ahead' behind' made,
          r.Abandons g o.now ahead behind ahead' behind' made ∧
          (e.turn errand payload memory o).engine.history.head =
            ahead' ++ (r.step g o.now).activity :: (behind' ++ made) ∧
          (e.turn errand payload memory o).engine.history.head.map (·.id) =
            r.engine.history.head.map (·.id) ++ made.map (·.id) ∧
          (e.turn errand payload memory o).engine.history.stack = r.engine.history.stack ∧
          (e.turn errand payload memory o).engine.course = r.engine.course := by
  obtain ⟨rounds, hcomprises, -, -⟩ := turn_rounds arises.agrees errand payload memory o
  refine ⟨rounds, hcomprises, fun r hr memory' failure hfails => ?_⟩
  obtain ⟨-, hrounds⟩ := frame_of_plays hcomprises.plays arises.agrees
  obtain ⟨mayRun, hagrees, hgraph, -⟩ := hrounds r hr
  have hbuilt : r.engine.graph = some g := hgraph.trans built
  obtain ⟨hg, hhistory⟩ := hagrees.built g hbuilt
  -- The round fails with its handler, so it is the last one, and the turn is what it leaves.
  have hleft := hfails.left_eq mayRun hbuilt
  have hreply : (r.left o.now).reply = .error (failure.surface r.activity.id) := by rw [hleft]
  obtain ⟨hlast, hengine, hanswer⟩ := hcomprises.plays.failed_last hr hreply
  obtain ⟨earlier, rfl⟩ := List.getLast?_eq_some_iff.mp hlast
  refine ⟨⟨earlier, rfl, hcomprises.plays.engine_of_append⟩, hanswer, ?_⟩
  rw [hengine, hleft]
  obtain ⟨ahead, behind, ahead', behind', made, habandons, hhead⟩ :=
    Round.exists_abandons o.now hg hhistory mayRun
  have hstack : (r.step g o.now).history.stack = r.engine.history.stack :=
    (r.reaches_step g o.now).frame.2.2.1
  refine ⟨ahead, behind, ahead', behind', made, habandons, hhead, ?_, hstack, rfl⟩
  have hid : (r.step g o.now).activity.id = r.activity.id := r.id_step g o.now
  show (r.engine.leave (r.step g o.now)).history.head.map (·.id) = _
  rw [hhead, habandons.split]
  simp [Step.ids_of_becomes habandons.ahead, Step.ids_of_becomes habandons.behind, hid]

end Engine

/-! ## A handler that fails after a takeover -/

namespace Alarm

/-- A handler that takes the boundary event, stops all the others, finishes its task and fails. -/
def givesUp : Handler Unit := fun _ _ memory =>
  .act .takeBoundaryEvent fun _ _ =>
    .act .stopAllExceptThis fun _ _ =>
      .act (.edit (.setStatus .finished)) fun _ _ => .done (memory, .error (.reason "late"))

/-- An engine for the process with the handler. -/
def attended : Engine Unit :=
  .ofProcess process.build (HandlerTable.register {} "Work" .automatic givesUp)

/-- The turn in which the engine goes forward from the start event. -/
def ended : Turn Unit := attended.turn .advance .null () ⟨.epoch, 9⟩

/-- The second of two rounds is on the task, after the start event was logged. -/
theorem exists_fails {rounds : List (Round Unit)}
    (h : ended.Comprises .epoch attended .null () rounds) :
    ∃ first r, rounds = [first, r] ∧ r.activity.id = "work" ∧
      r.engine.history.stack.map (·.id) = ["start"] ∧
      r.engine.history.head.map (·.id) = ["work"] ∧
      (r.step graph .epoch).activity.status = some .finished ∧
      r.Fails graph .epoch () (.reason "late") := by
  obtain ⟨i, j, hcalls, hwork⟩ : ∃ i j, ended.invocations = [i, j] ∧ j.activity.id = "work" ∧
      let r : Round Unit := ⟨((⟨attended, (), i⟩ : Round Unit).left .epoch).engine, (), j⟩
      r.engine.history.stack.map (·.id) = ["start"] ∧
        r.engine.history.head.map (·.id) = ["work"] ∧
        (r.step graph .epoch).activity.status = some .finished ∧
        r.Fails graph .epoch () (.reason "late") := ⟨_, _, rfl, rfl, rfl, rfl, rfl, rfl⟩
  have hmap := h.invocations.symm.trans hcalls
  obtain ⟨first, rest, rfl, rfl, hrest⟩ := List.map_eq_cons_iff.mp hmap
  obtain ⟨r, rfl, rfl⟩ := List.map_eq_singleton_iff.mp hrest
  -- Both rounds are told by their calls, since each starts from what is there.
  obtain ⟨engine, memory, i⟩ := first
  obtain ⟨engine', memory', j⟩ := r
  obtain ⟨rfl, -⟩ := h.plays.first
  obtain ⟨value, hlater⟩ := h.plays.later (by simp)
  obtain ⟨rfl, -⟩ := hlater.first
  exact ⟨_, _, rfl, hwork⟩

/-- The task is finished, but it is neither logged nor routed; the targets of the boundary event are
live behind it; and the start event, which went before, stays logged. -/
theorem failed_handler_alarm :
    ∃ first r ahead behind ahead' behind' made,
      ended.Comprises .epoch attended .null () [first, r] ∧
      r.Fails graph .epoch () (.reason "late") ∧
      ended.reply = .error (.handler "work" "late") ∧
      r.Abandons graph .epoch ahead behind ahead' behind' made ∧
      ended.engine.history.head =
        ahead' ++ (r.step graph .epoch).activity :: (behind' ++ made) ∧
      (r.step graph .epoch).activity.status = some .finished ∧
      made.map (·.id) = ["notify", "review"] ∧
      ended.engine.history.stack.map (·.id) = ["start"] := by
  have hbuilt : attended.graph = some graph := rfl
  obtain ⟨rounds, hcomprises, hfailed⟩ := Engine.Arises.failed_handler
    (Engine.arises_ofProcess ..) hbuilt .advance .null () ⟨.epoch, 9⟩
  obtain ⟨first, r, rfl, hid, hstack, hhead, hfinished, hfails⟩ := exists_fails hcomprises
  obtain ⟨-, hreply, ahead, behind, ahead', behind', made, habandons, hlive, hids, hlogged, -⟩ :=
    hfailed r (by simp) () (.reason "late") hfails
  rw [hid] at hreply
  have hadded : made.map (·.id) = ["notify", "review"] := by
    have hall : ended.engine.history.head.map (·.id) = ["work"] ++ ["notify", "review"] := rfl
    rw [hhead] at hids
    exact List.append_cancel_left (hids.symm.trans hall)
  have hstart : ended.engine.history.stack.map (·.id) = ["start"] :=
    (congrArg (List.map (·.id)) hlogged).trans hstack
  exact ⟨first, r, ahead, behind, ahead', behind', made, hcomprises, hfails, hreply, habandons,
    hlive, hfinished, hadded, hstart⟩

end Alarm

end Workflow
