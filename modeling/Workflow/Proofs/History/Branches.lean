import Workflow.Proofs.History.Coherent

/-!
# Branches

The branches of a history are its live activities, each looked up by its id.  This module says what
an operation on the history does to branches other than the one it is for.

The lemmas `headById?_…` say which branches an operation leaves alone: writing back, logging and
putting live leave every branch of another id alone, and following a route every branch that it does
not lead to.  Two consequences are used on their own.  A branch is never dropped without a trace: it
stays live or is logged (`History.Continues`).  And an activity that comes to wait to be run is one
that the flow leads to (`History.Wakes`).
-/

namespace Workflow

namespace History

variable {g : Graph} {h h' h'' : History} {a : Activity} {id : String} {route : List String}
  {now : Instant}

/-! ## What other branches do not see -/

/-- Writing back leaves other branches alone. -/
theorem headById?_writeBack (hne : id ≠ a.id) : (h.writeBack a).headById? id = h.headById? id := by
  refine find?_updateFirst (fun b hb => ?_) (fun b _ => ?_) h.head
  · simpa [eq_of_beq hb] using hne.symm
  · simpa using hne.symm

/-- What is written back over a live activity is found under its id. -/
theorem headById?_writeBack_self (ha : a.id ∈ h.head.map (·.id)) :
    (h.writeBack a).headById? a.id = some a :=
  find?_updateFirst_self (any_id_iff.mpr ha) (beq_self_eq_true a.id)

/-- Logging leaves other branches alone. -/
theorem headById?_retire (hne : id ≠ a.id) : (h.retire a).headById? id = h.headById? id := by
  have hsame : (fun b : Activity => decide ((b.id != a.id) = true ∧ (b.id == id) = true)) =
      fun b => b.id == id := by
    funext b
    by_cases hb : b.id = id
    · simp [hb, hne]
    · simp [hb]
  unfold headById? retire
  rw [List.find?_filter, hsame]

/-- Nothing is live under the id of what was logged. -/
theorem headById?_retire_self (h : History) (a : Activity) :
    (h.retire a).headById? a.id = none := by
  unfold headById? retire
  rw [List.find?_eq_none]
  intro b hb
  simpa using (List.mem_filter.mp hb).2

/-- One more live activity does not change what is found under other ids. -/
theorem find?_concat {as : List Activity} (hne : id ≠ a.id) :
    (as ++ [a]).find? (·.id == id) = as.find? (·.id == id) := by
  have hlast : [a].find? (·.id == id) = none := by simpa using hne.symm
  rw [List.find?_append, hlast, Option.or_none]

/-- Putting an activity live leaves other branches alone. -/
theorem headById?_pushHead (hne : id ≠ a.id) : (h.pushHead a).headById? id = h.headById? id := by
  unfold pushHead
  split
  · exact headById?_writeBack hne
  · exact find?_concat hne

/-- What is put live is found under its id. -/
theorem headById?_pushHead_self (h : History) (a : Activity) :
    (h.pushHead a).headById? a.id = some a := by
  unfold pushHead
  split
  · next hlive => exact find?_updateFirst_self hlive (beq_self_eq_true a.id)
  · next hnew =>
    have hnone : h.head.find? (·.id == a.id) = none := by
      rw [Bool.not_eq_true, List.any_eq_false] at hnew
      exact List.find?_eq_none.mpr hnew
    unfold headById?
    dsimp only
    rw [List.find?_append, hnone]
    simp

/-- An activity that joins others is found behind them. -/
theorem find?_join (as : List Activity) (a : Activity) (id : String) :
    (join as a).find? (·.id == id) = (as ++ [a]).find? (·.id == id) := by
  unfold join
  split
  · next hlive =>
    -- It does not join, but then its id is found among the others.
    by_cases hid : a.id = id
    · have hsome : (as.find? (·.id == a.id)).isSome :=
        List.find?_isSome.mpr (List.any_eq_true.mp hlive)
      obtain ⟨b, hb⟩ := Option.isSome_iff_exists.mp hsome
      rw [List.find?_append, ← hid, hb, Option.some_or]
    · exact (find?_concat (Ne.symm hid)).symm
  · rfl

/-- What joins the live activities is found behind them. -/
theorem headById?_merge_eq (h : History) (successors : List Activity) (id : String) :
    (h.merge successors).headById? id = (h.head ++ successors).find? (·.id == id) := by
  induction successors generalizing h with
  | nil => rw [List.append_nil]; rfl
  | cons b successors ih =>
    calc (h.merge (b :: successors)).headById? id
        = (History.merge { h with head := join h.head b } successors).headById? id := rfl
      _ = (join h.head b ++ successors).find? (·.id == id) := ih _
      _ = (h.head ++ b :: successors).find? (·.id == id) := by
        rw [List.find?_append, find?_join, ← List.find?_append, List.append_assoc]
        rfl

/-- Activities that join leave other branches alone. -/
theorem headById?_merge {successors : List Activity} (hne : ∀ a ∈ successors, a.id ≠ id) :
    (h.merge successors).headById? id = h.headById? id := by
  have hnone : successors.find? (·.id == id) = none :=
    List.find?_eq_none.mpr fun a ha => by simpa using hne a ha
  rw [headById?_merge_eq, List.find?_append, hnone, Option.or_none]
  rfl

/-- Following a route leaves alone every branch to which the route does not lead. -/
theorem headById?_onward (hnot : id ∉ g.targetIds route) :
    (h.onward g route a now).headById? id = (h.retire a).headById? id := by
  have hhead : (g.advance route (h.retire a).head now).head.find? (·.id == id) =
      (h.retire a).headById? id := (Graph.advance_find? hnot _).1
  have hmade : ∀ b ∈ (g.advance route (h.retire a).head now).made, b.id ≠ id := by
    unfold Graph.Advance.made
    split
    · next fresh hok => exact (Graph.advance_find? hnot _).2 fresh hok
    · exact fun b hb => nomatch hb
  unfold onward
  rw [headById?_merge hmade]
  exact hhead

/-! ## Branches that go on -/

/-- A live activity is live under its id. -/
theorem mem_ids_of_headById? (ha : h.headById? id = some a) : id ∈ h.head.map (·.id) := by
  obtain ⟨hmem, hid⟩ := headById?_some ha
  exact List.mem_map.mpr ⟨a, hmem, hid⟩

/-- The ids that are live after an activity is logged. -/
theorem mem_ids_retire :
    id ∈ (h.retire a).head.map (·.id) ↔ id ∈ h.head.map (·.id) ∧ id ≠ a.id := by
  constructor
  · intro hmem
    obtain ⟨b, hb, rfl⟩ := List.mem_map.mp hmem
    obtain ⟨hb, hne⟩ := List.mem_filter.mp hb
    exact ⟨List.mem_map_of_mem hb, by simpa using hne⟩
  · rintro ⟨hmem, hne⟩
    obtain ⟨b, hb, rfl⟩ := List.mem_map.mp hmem
    exact List.mem_map.mpr ⟨b, List.mem_filter.mpr ⟨hb, by simpa using hne⟩, rfl⟩

/-- What is live stays live when others join. -/
theorem mem_ids_merge (hid : id ∈ h.head.map (·.id)) (successors : List Activity) :
    id ∈ (h.merge successors).head.map (·.id) := by
  unfold merge
  induction successors generalizing h with
  | nil => exact hid
  | cons a successors ih =>
    refine ih (h := { h with head := join h.head a }) ?_
    unfold join
    split
    · exact hid
    · rw [List.map_append]
      exact List.mem_append_left _ hid

/-- What joins the live activities is live, unless its id was live already. -/
theorem mem_ids_merge_joining {successors : List Activity} (hid : id ∈ successors.map (·.id)) :
    id ∈ (h.merge successors).head.map (·.id) := by
  induction successors generalizing h with
  | nil => cases hid
  | cons a successors ih =>
    show id ∈ (({ h with head := join h.head a } : History).merge successors).head.map (·.id)
    rcases List.mem_cons.mp hid with rfl | hlater
    · refine mem_ids_merge ?_ successors
      show a.id ∈ (join h.head a).map (·.id)
      unfold join
      split
      · next hlive => exact any_id_iff.mp hlive
      · simp
    · exact ih hlater

/-- What is live stays live when an activity is put live. -/
theorem mem_ids_pushHead (hid : id ∈ h.head.map (·.id)) (a : Activity) :
    id ∈ (h.pushHead a).head.map (·.id) := by
  unfold pushHead
  split
  · rw [ids_writeBack]; exact hid
  · rw [List.map_append]
    exact List.mem_append_left _ hid

/-- Whether one history goes on from another: what was logged stays logged, and what was live is
live still or has been logged since. -/
def Continues (h h' : History) : Prop :=
  ∃ logged, h'.stack = h.stack ++ logged ∧
    ∀ id ∈ h.head.map (·.id), id ∈ h'.head.map (·.id) ∨ id ∈ logged.map (·.id)

/-- A history goes on from itself. -/
theorem Continues.refl (h : History) : h.Continues h := ⟨[], by simp, fun _ hid => .inl hid⟩

/-- One history goes on from another through a third. -/
theorem Continues.trans (first : h.Continues h') (second : h'.Continues h'') : h.Continues h'' := by
  obtain ⟨logged, hstack, hids⟩ := first
  obtain ⟨logged', hstack', hids'⟩ := second
  refine ⟨logged ++ logged', by rw [hstack', hstack, List.append_assoc], fun id hid => ?_⟩
  rw [List.map_append, List.mem_append]
  rcases hids id hid with hlive | hlogged
  · exact (hids' id hlive).imp_right .inr
  · exact .inr (.inl hlogged)

/-- A change of the live activities goes on from the history where it keeps their ids. -/
theorem Continues.of_ids (hstack : h'.stack = h.stack)
    (hids : ∀ id ∈ h.head.map (·.id), id ∈ h'.head.map (·.id)) : h.Continues h' :=
  ⟨[], by simp [hstack], fun id hid => .inl (hids id hid)⟩

/-- Where nothing has been logged, what was live is live still. -/
theorem Continues.mem_ids (hc : h.Continues h') (hstack : h'.stack = h.stack)
    (hid : id ∈ h.head.map (·.id)) : id ∈ h'.head.map (·.id) := by
  obtain ⟨logged, happend, hids⟩ := hc
  have hnone : logged = [] := by
    rw [hstack] at happend
    exact List.self_eq_append_right.mp happend
  simpa [hnone] using hids id hid

/-- A history goes on when an activity is logged. -/
theorem continues_retire (h : History) (a : Activity) : h.Continues (h.retire a) := by
  refine ⟨[a], rfl, fun id hid => ?_⟩
  by_cases hlogged : id = a.id
  · exact .inr (by simp [hlogged])
  · exact .inl (mem_ids_retire.mpr ⟨hid, hlogged⟩)

/-- What is live when an activity is logged stays live when the flow goes on from it. -/
theorem mem_ids_onward (hid : id ∈ (h.retire a).head.map (·.id)) (g : Graph) (route : List String)
    (now : Instant) : id ∈ (h.onward g route a now).head.map (·.id) := by
  unfold onward
  refine mem_ids_merge ?_ _
  rw [Graph.advance_head_ids]
  exact hid

/-- The targets of a route that is not refused are live when it has been followed, those of them
that have a definition. -/
theorem mem_ids_onward_target {fresh : List Activity}
    (hok : (g.advance route (h.retire a).head now).fresh = .ok fresh)
    (htarget : id ∈ g.targetIds route) (hdefined : (g.activity? id).isSome = true) :
    id ∈ (h.onward g route a now).head.map (·.id) := by
  have hmem := Graph.mem_ids_advance hok htarget hdefined
  rw [List.map_append, List.mem_append] at hmem
  unfold onward
  simp only [Graph.Advance.made, hok]
  rcases hmem with hlive | hmade
  · exact mem_ids_merge hlive fresh
  · exact mem_ids_merge_joining hmade

/-- A history goes on when an activity is logged and followed along a route. -/
theorem continues_onward (h : History) (g : Graph) (route : List String) (a : Activity)
    (now : Instant) : h.Continues (h.onward g route a now) :=
  (continues_retire h a).trans (.of_ids rfl fun _ hid => mem_ids_onward hid g route now)

/-- That histories go on from one of them is kept. -/
theorem kept_continues (hg : g.WellFormed) (h₀ : History) :
    Kept g fun h => h.Agrees g ∧ h₀.Continues h where
  agrees := And.left
  writeBack := by
    rintro h a ⟨hc, hgoes⟩ ha
    refine ⟨hc.writeBack ha, hgoes.trans (.of_ids rfl fun id hid => ?_)⟩
    rw [ids_writeBack]
    exact hid
  retire := by
    rintro h a ⟨hc, hgoes⟩ ha
    exact ⟨hc.retire ha, hgoes.trans (continues_retire h a)⟩
  onward := by
    rintro h a ⟨hc, hgoes⟩ ha route now
    exact ⟨hc.onward hg ha route now, hgoes.trans (continues_onward h g route a now)⟩
  pushHead := by
    rintro h a ⟨hc, hgoes⟩ ha
    exact ⟨hc.pushHead ha, hgoes.trans
      (.of_ids (stack_pushHead h a) fun id hid => mem_ids_pushHead hid a)⟩
  map := by
    rintro h f ⟨hc, hgoes⟩ keeps
    refine ⟨hc.map keeps, hgoes.trans (.of_ids rfl fun id hid => ?_)⟩
    have hid' : ∀ a, (f a).id = a.id := fun a => Activity.id_eq_of_blank (keeps a)
    simpa [Function.comp_def, hid'] using hid

/-! ## Activities that come to wait -/

/-- Whether the activity that is found live under an id waits to be run. -/
def Awake (h : History) (id : String) : Prop :=
  ∃ a, h.headById? id = some a ∧ a.isEntered = true

/-- Whether every activity that has come to wait is allowed to. -/
def Wakes (may : String → Prop) (h h' : History) : Prop :=
  ∀ id, h'.Awake id → h.Awake id ∨ may id

variable {may : String → Prop}

/-- Nothing has come to wait in the same history. -/
theorem Wakes.refl (may : String → Prop) (h : History) : Wakes may h h := fun _ => .inl

/-- What has come to wait did so before or after a history in between. -/
theorem Wakes.trans (first : Wakes may h h') (second : Wakes may h' h'') : Wakes may h h'' := by
  intro id hawake
  rcases second id hawake with hawake' | hmay
  · exact first id hawake'
  · exact .inr hmay

/-- Nothing but what is allowed has come to wait where all other branches are left alone. -/
theorem Wakes.of_headById? (same : ∀ id, ¬ may id → h'.headById? id = h.headById? id) :
    Wakes may h h' := by
  rintro id ⟨a, ha, hentered⟩
  by_cases hmay : may id
  · exact .inr hmay
  · rw [same id hmay] at ha
    exact .inl ⟨a, ha, hentered⟩

/-- Writing an activity back wakes at most that one. -/
theorem wakes_writeBack (hmay : may a.id) : Wakes may h (h.writeBack a) :=
  .of_headById? fun _ hnot => headById?_writeBack fun hid => hnot (hid ▸ hmay)

/-- Logging an activity wakes nothing. -/
theorem wakes_retire (may : String → Prop) (h : History) (a : Activity) :
    Wakes may h (h.retire a) := by
  rintro id ⟨b, hb, hentered⟩
  by_cases hid : id = a.id
  · rw [hid, headById?_retire_self] at hb
    cases hb
  · rw [headById?_retire hid] at hb
    exact .inl ⟨b, hb, hentered⟩

/-- Following a route wakes at most its targets. -/
theorem wakes_onward (hmay : ∀ target ∈ g.targetIds route, may target) :
    Wakes may h (h.onward g route a now) := by
  have hrouted : Wakes may (h.retire a) (h.onward g route a now) :=
    .of_headById? fun id hnot => headById?_onward fun htarget => hnot (hmay id htarget)
  exact (wakes_retire may h a).trans hrouted

end History

namespace Step

variable {st : Step} {edge : String} {may : String → Prop}

/-- A redirected activity has the id of its definition. -/
theorem id_redirected (h : History) (d : Activity) (now : Instant) :
    (redirected (h.lastCompleted? d.id) d edge now).id = d.id := by
  rw [Activity.id_eq_of_blank (blank_redirected _ _ _ _)]
  cases hl : h.lastCompleted? d.id with
  | none => rfl
  | some c => exact (History.lastCompleted?_some hl).2

/-- What is live stays live while a handler acts. -/
theorem Reaches.mem_ids {g : Graph} (hg : g.WellFormed) {allowed : Action → Prop} {st' : Step}
    (h : Reaches allowed st st') (hst : st.graph = g) (hagrees : st.history.Agrees g) {id : String}
    (hid : id ∈ st.history.head.map (·.id)) : id ∈ st'.history.head.map (·.id) := by
  obtain ⟨-, hgoes⟩ := h.kept (History.kept_continues hg st.history) hg hst
    ⟨hagrees, .refl st.history⟩
  exact hgoes.mem_ids h.frame.2.2.1 hid

/-- Flows that lead elsewhere leave a branch alone. -/
theorem headById?_foldl_redirectAlong {id : String} {flows : List Flow}
    (hother : ∀ f ∈ flows, f.target ≠ id) (h : History) :
    (flows.foldl (st.redirectAlong edge) h).headById? id = h.headById? id := by
  induction flows generalizing h with
  | nil => rfl
  | cons f flows ih =>
    have hfirst : (st.redirectAlong edge h f).headById? id = h.headById? id := by
      unfold redirectAlong
      split
      · rfl
      · next d hd =>
        apply History.headById?_pushHead
        rw [id_redirected, (Graph.activity?_some hd).2]
        exact (hother f (List.mem_cons_self ..)).symm
    rw [List.foldl_cons, ih (fun f' hf' => hother f' (List.mem_cons_of_mem _ hf')), hfirst]

/-- Redirections wake at most their targets. -/
theorem wakes_foldl_redirectAlong {flows : List Flow} (hmay : ∀ f ∈ flows, may f.target)
    (h : History) : h.Wakes may (flows.foldl (st.redirectAlong edge) h) := by
  refine .of_headById? fun id hnot => headById?_foldl_redirectAlong (fun f hf htarget => ?_) h
  rw [← htarget] at hnot
  exact hnot (hmay f hf)

/-- Stopping the other branches wakes nothing. -/
theorem wakes_stopAllExceptThis (may : String → Prop) (st : Step) :
    st.history.Wakes may st.stopAllExceptThis.history := by
  let stop : Activity → Activity := fun a =>
    if a.id = st.activity.id then a else a.set .stopped st.now
  have hid : ∀ a, (stop a).id = a.id := by
    intro a
    unfold stop
    split <;> rfl
  rintro id ⟨b, hb, hentered⟩
  -- What is found afterwards is what was found before, stopped unless it is the step's own.
  have hfind : (st.history.head.map stop).find? (·.id == id) =
      (st.history.headById? id).map stop := by
    rw [List.find?_map]
    simp only [Function.comp_def, hid]
    rfl
  obtain ⟨a, ha, rfl⟩ := Option.map_eq_some_iff.mp (hfind.symm.trans hb)
  unfold stop at hentered
  split at hentered
  · exact .inl ⟨a, ha, hentered⟩
  · simp [Activity.isEntered, Activity.isIn] at hentered

/-- An action wakes at most the targets of the flows out of the activity's boundary event. -/
theorem perform_wakes {st' : Step} {action : Action} (h : st.perform action = .ok st')
    (hmay : ∀ b, st.activity.blank.boundary? = some b →
      ∀ f ∈ st.graph.edgesFrom b.id, may f.target) : st.history.Wakes may st'.history := by
  rcases perform_cases h with ⟨edit, a, -, rfl, -⟩ | ⟨-, t, b, ht, hb, rfl⟩ | ⟨-, rfl⟩
  · exact .refl may st.history
  · have hboundary : st.activity.boundary? = some b := (Activity.boundary?_of_task ht).trans hb
    have hblank : st.activity.blank.boundary? = some b.blank := by
      rw [Activity.boundary?_blank, hboundary]
      rfl
    exact wakes_foldl_redirectAlong (hmay b.blank hblank) st.history
  · exact wakes_stopAllExceptThis may st

/-- Actions in turn wake at most the targets of the flows out of the activity's boundary event. -/
theorem Reaches.wakes {allowed : Action → Prop} {st' : Step} (h : Reaches allowed st st')
    (hmay : ∀ b, st.activity.blank.boundary? = some b →
      ∀ f ∈ st.graph.edgesFrom b.id, may f.target) : st.history.Wakes may st'.history := by
  induction h with
  | refl => exact .refl may st.history
  | act before ok done ih =>
    -- Neither the graph nor the blank of the activity changes on the way.
    obtain ⟨hgraph, -, -, hblank⟩ := before.frame
    rw [← hgraph, ← hblank] at hmay
    exact ih.trans (perform_wakes done hmay)

end Step

end Workflow
