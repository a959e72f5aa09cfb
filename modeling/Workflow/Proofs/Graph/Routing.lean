import Mathlib.Data.List.Induction
import Workflow.Proofs.Activity.Tokens
import Workflow.Proofs.FirstMatch

/-!
# What following a route leaves

The first half of this module is about every route, also one on which a target refuses the arrival.
A visit keeps the ids of the live activities and makes an activity anew only when its id is neither
live nor made anew before, so ids stay distinct (`advance_unique`).  Whatever holds of the live
activities and of new ones, and is kept by an arrival, holds of everything a route leaves
(`advance_forall`).

The second half says what a route leaves when no target refuses (`advance_eq`).  Every live
activity has had as many arrivals as the route has edges into it, and one activity is made anew for
each other target, in the order of the first arrivals.  After one arrival or more a task or an event
is entered, and a gateway is entered or paused as its join says (`arrivals_gateway`); if there are
enough of them, every token of the route is taken (`tokens_arrivals_of_le`).
-/

namespace Workflow

/-- An arrival is refused only because a complex gateway cannot be reached along a route. -/
theorem Activity.arrive_some {a : Activity} {route : List String} {now : Instant} {err : Error}
    (h : (a.arrive route now).2 = some err) : err = .complexTraversal a.id := by
  unfold arrive at h
  cases hk : a.kind with
  | gateway w =>
    rw [hk] at h
    dsimp only at h
    split at h
    · cases h; rfl
    · cases h
  | task t => rw [hk] at h; cases h
  | event e => rw [hk] at h; cases h

/-- Where no untaken token of a route is left, an arrival changes nothing, no more than taking a
token of the route again would. -/
theorem Gateway.arrive_eq (g : Gateway) (route : List String) :
    g.arrive route =
      if g.acceptsIncoming fun t => !t.taken && route.contains t.edge then
        g.takeIncoming fun t => !t.taken && route.contains t.edge
      else g.takeIncoming fun t => route.contains t.edge := by
  split
  · rfl
  · next hnone =>
    unfold acceptsIncoming at hnone
    unfold arrive takeIncoming
    cases hin : g.incoming with
    | none => rfl
    | some ts =>
      rw [hin] at hnone
      have huntaken : ∀ t ∈ ts.toList, (!t.taken && route.contains t.edge) = false := fun t ht =>
        Bool.eq_false_iff.mpr fun h => hnone (List.any_eq_true.mpr ⟨t, ht, h⟩)
      -- A token of the route is taken already.
      have hfixed : ∀ t ∈ ts.toList, route.contains t.edge = true → t.take = t := by
        intro t ht hroute
        have htaken := huntaken t ht
        rw [hroute, Bool.and_true, Bool.not_eq_false'] at htaken
        rw [Token.take, ← htaken]
      have hsame : ts.updateFirst (fun t => !t.taken && route.contains t.edge) Token.take =
          ts.updateFirst (fun t => route.contains t.edge) Token.take := by
        refine OneOrMany.eq_of_toList_isMany ?_ ?_
        · rw [OneOrMany.toList_updateFirst, OneOrMany.toList_updateFirst,
            updateFirst_of_none _ huntaken, updateFirst_of_fixed hfixed]
        · rw [OneOrMany.isMany_updateFirst, OneOrMany.isMany_updateFirst]
      rw [Option.map_some, Option.map_some, hsame]

namespace Graph

variable {g : Graph} {route : List String} {now : Instant}

/-! ## Every route -/

/-- A route leads to a node along one of its edges. -/
theorem exists_edge_of_mem_targetIds {target : String} (h : target ∈ g.targetIds route) :
    ∃ f ∈ g.edges, f.id ∈ route ∧ f.target = target := by
  obtain ⟨f, hf, rfl⟩ := List.mem_map.mp h
  obtain ⟨edge, hedge, hfound⟩ := List.mem_filterMap.mp hf
  have hid : f.id = edge := by simpa using List.find?_some hfound
  exact ⟨f, List.mem_of_find?_eq_some hfound, hid ▸ hedge, rfl⟩

/-- A route leads to fewer nodes when it has fewer edges. -/
theorem targetIds_subset {route' : List String} (h : route ⊆ route') :
    g.targetIds route ⊆ g.targetIds route' :=
  List.map_subset _ (List.filterMap_subset _ h)

/-- Routes with the same edges lead to the same nodes. -/
theorem mem_targetIds_congr {route' : List String} (same : ∀ edge, edge ∈ route' ↔ edge ∈ route)
    (id : String) : id ∈ g.targetIds route' ↔ id ∈ g.targetIds route :=
  ⟨fun h => targetIds_subset (fun _ => (same _).mp) h,
    fun h => targetIds_subset (fun _ => (same _).mpr) h⟩

/-- What each visit keeps is kept by visits in turn. -/
theorem visitAll_keeps {P : Arrivals → Prop} (targets : List String)
    (visit : ∀ r, ∀ target ∈ targets, P r → P (g.visit route now r target).1) {r : Arrivals}
    (h : P r) : P (g.visitAll route now targets r).1 := by
  induction targets generalizing r with
  | nil => exact h
  | cons target targets ih =>
    have hfirst := visit r target (List.mem_cons_self ..) h
    have hrest : ∀ r, ∀ target ∈ targets, P r → P (g.visit route now r target).1 :=
      fun r target ht => visit r target (List.mem_cons_of_mem _ ht)
    unfold visitAll
    split
    · next r' e heq => rw [heq] at hfirst; exact hfirst
    · next r' heq => rw [heq] at hfirst; exact ih hrest hfirst

/-- A visit keeps what an arrival keeps and what holds of a new activity that has been arrived
at. -/
theorem visit_forall {Q : Activity → Prop} (arrive : ∀ a, Q a → Q (a.arrive route now).1)
    (made : ∀ id d, g.activity? id = some d → Q ((d.instantiate now).arrive route now).1)
    (r : Arrivals) (target : String) (h : ∀ a ∈ r.head ++ r.fresh, Q a) :
    ∀ a ∈ (g.visit route now r target).1.head ++ (g.visit route now r target).1.fresh, Q a := by
  have hhead : ∀ a ∈ r.head, Q a := fun a ha => h a (List.mem_append_left _ ha)
  have hfresh : ∀ a ∈ r.fresh, Q a := fun a ha => h a (List.mem_append_right _ ha)
  -- The target is live, or was made anew before, or is made anew by this visit.
  unfold visit
  split
  · next b hb =>
    have hchanged := arrive b (hhead b (List.mem_of_find?_eq_some hb))
    intro a ha
    rcases List.mem_append.mp ha with ha | ha
    · exact forall_updateFirst hhead (fun _ _ _ => hchanged) a ha
    · exact hfresh a ha
  · split
    · next b hb =>
      have hchanged := arrive b (hfresh b (List.mem_of_find?_eq_some hb))
      intro a ha
      rcases List.mem_append.mp ha with ha | ha
      · exact hhead a ha
      · exact forall_updateFirst hfresh (fun _ _ _ => hchanged) a ha
    · split
      · next d hd =>
        have hnew := made target d hd
        intro a ha
        simp only [List.mem_append, List.mem_singleton] at ha
        rcases ha with ha | ha | rfl
        · exact hhead a ha
        · exact hfresh a ha
        · exact hnew
      · exact h

/-- A visit keeps the ids of the live activities and adds at most the target's to those of the
activities made anew, where it was not yet. -/
theorem visit_ids (g : Graph) (route : List String) (now : Instant) (r : Arrivals)
    (target : String) :
    (g.visit route now r target).1.head.map (·.id) = r.head.map (·.id) ∧
      ((g.visit route now r target).1.fresh.map (·.id) = r.fresh.map (·.id) ∨
        (g.visit route now r target).1.fresh.map (·.id) = r.fresh.map (·.id) ++ [target] ∧
          target ∉ (r.head ++ r.fresh).map (·.id)) := by
  -- What is written back has the id of what was found.
  have hwrite : ∀ (as : List Activity) (a : Activity), as.find? (·.id == target) = some a →
      (updateFirst (·.id == target) (fun _ => (a.arrive route now).1) as).map (·.id) =
        as.map (·.id) := by
    intro as a ha
    have hid : a.id = target := by simpa using List.find?_some ha
    refine map_updateFirst (·.id) (fun b hb => ?_) as
    have hb' : b.id = target := by simpa using hb
    rw [Activity.id_arrive, hid, hb']
  unfold visit
  split
  · next a ha => exact ⟨hwrite _ a ha, .inl rfl⟩
  · next hhead =>
    split
    · next a ha => exact ⟨rfl, .inl (hwrite _ a ha)⟩
    · next hfresh =>
      split
      · next d hd =>
        refine ⟨rfl, .inr ⟨?_, ?_⟩⟩
        · simp [(activity?_some hd).2]
        · rw [List.find?_eq_none] at hhead hfresh
          simp only [List.map_append, List.mem_append, List.mem_map, not_or, not_exists, not_and]
          exact ⟨fun a ha hid => hhead a ha (by simp [hid]),
            fun a ha hid => hfresh a ha (by simp [hid])⟩
      · exact ⟨rfl, .inl rfl⟩

/-- A visit keeps the ids of all activities distinct. -/
theorem visit_unique (g : Graph) (route : List String) (now : Instant) (r : Arrivals)
    (target : String) (h : ((r.head ++ r.fresh).map (·.id)).Nodup) :
    (((g.visit route now r target).1.head ++ (g.visit route now r target).1.fresh).map
      (·.id)).Nodup := by
  obtain ⟨hhead, hfresh⟩ := visit_ids g route now r target
  rw [List.map_append, hhead]
  rcases hfresh with hfresh | ⟨hfresh, hnew⟩
  · rw [hfresh, ← List.map_append]; exact h
  · rw [hfresh, ← List.append_assoc, ← List.map_append, ← List.concat_eq_append]
    exact h.concat hnew

/-- A visit keeps every id and adds that of the target, if it has a definition. -/
theorem mem_ids_visit (g : Graph) (route : List String) (now : Instant) (r : Arrivals)
    (target : String) {id : String}
    (h : id ∈ (r.head ++ r.fresh).map (·.id) ∨ id = target ∧ (g.activity? target).isSome = true) :
    id ∈ ((g.visit route now r target).1.head ++ (g.visit route now r target).1.fresh).map
      (·.id) := by
  have hkeeps : ∀ other ∈ (r.head ++ r.fresh).map (·.id),
      other ∈ ((g.visit route now r target).1.head ++ (g.visit route now r target).1.fresh).map
        (·.id) := by
    intro other hother
    obtain ⟨hhead, hfresh⟩ := visit_ids g route now r target
    rw [List.map_append, hhead, List.mem_append]
    rw [List.map_append, List.mem_append] at hother
    refine hother.imp_right fun hmade => ?_
    rcases hfresh with hfresh | ⟨hfresh, -⟩
    · rwa [hfresh]
    · rw [hfresh]
      exact List.mem_append_left _ hmade
  by_cases hmem : id ∈ (r.head ++ r.fresh).map (·.id)
  · exact hkeeps id hmem
  · -- The target is new, so that a visit makes it anew.
    obtain ⟨rfl, hdefined⟩ := h.resolve_left hmem
    obtain ⟨d, hd⟩ := Option.isSome_iff_exists.mp hdefined
    have hnone : ∀ as : List Activity, (∀ a ∈ as, a ∈ r.head ++ r.fresh) →
        as.find? (·.id == id) = none := by
      intro as hsub
      rw [List.find?_eq_none]
      intro a ha hid
      exact hmem (List.mem_map.mpr ⟨a, hsub a ha, eq_of_beq hid⟩)
    unfold visit
    rw [hnone r.head fun a ha => List.mem_append_left _ ha,
      hnone r.fresh fun a ha => List.mem_append_right _ ha, hd]
    simp [(activity?_some hd).2]

/-- Visits in turn, none of which is refused, keep every id and add those of all targets that have a
definition. -/
theorem mem_ids_visitAll {targets : List String} {r r' : Arrivals} {id : String}
    (hall : g.visitAll route now targets r = (r', none))
    (h : id ∈ (r.head ++ r.fresh).map (·.id) ∨ id ∈ targets ∧ (g.activity? id).isSome = true) :
    id ∈ (r'.head ++ r'.fresh).map (·.id) := by
  induction targets generalizing r with
  | nil =>
    cases hall
    exact h.resolve_right fun hnil => nomatch hnil.1
  | cons target targets ih =>
    unfold visitAll at hall
    split at hall
    · cases hall
    · next first heq =>
      refine ih hall ?_
      have hfirst : id ∈ (r.head ++ r.fresh).map (·.id) ∨
          id = target ∧ (g.activity? target).isSome = true →
          id ∈ (first.head ++ first.fresh).map (·.id) := by
        intro h
        have hvisit := mem_ids_visit g route now r target h
        rwa [heq] at hvisit
      rcases h with hmem | ⟨hmem, hdefined⟩
      · exact .inl (hfirst (.inl hmem))
      · rcases List.mem_cons.mp hmem with rfl | hlater
        · exact .inl (hfirst (.inr ⟨rfl, hdefined⟩))
        · exact .inr ⟨hlater, hdefined⟩

/-- Where no target refuses, every target that has a definition is live after a route is followed or
is made anew. -/
theorem mem_ids_advance {head fresh : List Activity}
    (hok : (g.advance route head now).fresh = .ok fresh) {id : String}
    (htarget : id ∈ g.targetIds route) (hdefined : (g.activity? id).isSome = true) :
    id ∈ ((g.advance route head now).head ++ fresh).map (·.id) := by
  unfold advance at hok ⊢
  split
  · next r heq =>
    rw [heq] at hok
    cases hok
    exact mem_ids_visitAll heq (.inr ⟨htarget, hdefined⟩)
  · next r err heq =>
    rw [heq] at hok
    cases hok

/-- A visit to another target leaves the live activity of an id alone. -/
theorem visit_find? {id target : String} (hne : target ≠ id) (r : Arrivals) :
    (g.visit route now r target).1.head.find? (·.id == id) = r.head.find? (·.id == id) := by
  unfold visit
  split
  · next a ha =>
    have hid : a.id = target := by simpa using List.find?_some ha
    refine find?_updateFirst (fun b hb => ?_) (fun b _ => ?_) r.head
    · simpa [eq_of_beq hb] using hne
    · simpa [hid] using hne
  · split
    · rfl
    · split <;> rfl

/-- A route keeps the ids of the live activities. -/
theorem advance_head_ids (head : List Activity) :
    (g.advance route head now).head.map (·.id) = head.map (·.id) := by
  have h : (g.visitAll route now (g.targetIds route) ⟨head, []⟩).1.head.map (·.id) =
      head.map (·.id) :=
    visitAll_keeps (P := fun r => r.head.map (·.id) = head.map (·.id)) (g.targetIds route)
      (fun r target _ hr => (visit_ids g route now r target).1.trans hr) rfl
  unfold advance
  split <;> next heq => rw [heq] at h; exact h

/-- A route that does not lead to an id leaves the live activity of that id alone and makes none
anew. -/
theorem advance_find? {id : String} (hnot : id ∉ g.targetIds route) (head : List Activity) :
    (g.advance route head now).head.find? (·.id == id) = head.find? (·.id == id) ∧
      ∀ fresh, (g.advance route head now).fresh = .ok fresh → ∀ a ∈ fresh, a.id ≠ id := by
  let P : Arrivals → Prop := fun r =>
    r.head.find? (·.id == id) = head.find? (·.id == id) ∧ id ∉ r.fresh.map (·.id)
  have hvisit : ∀ r, ∀ target ∈ g.targetIds route, P r → P (g.visit route now r target).1 := by
    rintro r target ht ⟨hhead, hfresh⟩
    have hne : target ≠ id := fun heq => hnot (heq ▸ ht)
    refine ⟨(visit_find? hne r).trans hhead, ?_⟩
    rcases (visit_ids g route now r target).2 with hids | ⟨hids, -⟩
    · rw [hids]; exact hfresh
    · rw [hids, List.mem_append, List.mem_singleton, not_or]
      exact ⟨hfresh, hne.symm⟩
  have hstart : P ⟨head, []⟩ := ⟨rfl, by simp⟩
  have hall := visitAll_keeps (g.targetIds route) hvisit hstart
  unfold advance
  split
  · next r heq =>
    rw [heq] at hall
    refine ⟨hall.1, fun fresh hf a ha hid => hall.2 ?_⟩
    cases hf
    exact hid ▸ List.mem_map_of_mem ha
  · next r e heq =>
    rw [heq] at hall
    exact ⟨hall.1, fun _ hf => nomatch hf⟩

/-- The activities that a route makes anew have ids of their own. -/
theorem advance_unique {head fresh : List Activity} (h : (head.map (·.id)).Nodup)
    (hok : (g.advance route head now).fresh = .ok fresh) :
    (((g.advance route head now).head ++ fresh).map (·.id)).Nodup := by
  have hall := visitAll_keeps (P := fun r => ((r.head ++ r.fresh).map (·.id)).Nodup)
    (g.targetIds route) (fun r target _ => visit_unique g route now r target)
    (r := ⟨head, []⟩) (by simpa using h)
  unfold advance at hok ⊢
  split
  · next r heq =>
    rw [heq] at hall hok
    cases hok
    exact hall
  · next r e heq => rw [heq] at hok; cases hok

/-- What an arrival keeps and what holds of a new activity that has been arrived at holds of
everything a route leaves. -/
theorem advance_forall {Q : Activity → Prop} (arrive : ∀ a, Q a → Q (a.arrive route now).1)
    (made : ∀ id d, g.activity? id = some d → Q ((d.instantiate now).arrive route now).1)
    {head : List Activity}
    (h : ∀ a ∈ head, Q a) :
    (∀ a ∈ (g.advance route head now).head, Q a) ∧
      ∀ fresh, (g.advance route head now).fresh = .ok fresh → ∀ a ∈ fresh, Q a := by
  have hall := visitAll_keeps (P := fun r => ∀ a ∈ r.head ++ r.fresh, Q a)
    (g.targetIds route) (fun r target _ => visit_forall arrive made r target)
    (r := ⟨head, []⟩) (by simpa using h)
  unfold advance
  split
  · next r heq =>
    rw [heq] at hall
    refine ⟨fun a ha => hall a (List.mem_append_left _ ha), fun fresh hf => ?_⟩
    cases hf
    exact fun a ha => hall a (List.mem_append_right _ ha)
  · next r e heq =>
    rw [heq] at hall
    exact ⟨fun a ha => hall a (List.mem_append_left _ ha), fun _ hf => nomatch hf⟩

/-- A visit is refused only because a complex gateway cannot be reached along a route. -/
theorem visit_some {r : Arrivals} {target : String} {err : Error}
    (h : (g.visit route now r target).2 = some err) : ∃ id, err = .complexTraversal id := by
  unfold visit at h
  split at h
  · exact ⟨_, Activity.arrive_some h⟩
  · split at h
    · exact ⟨_, Activity.arrive_some h⟩
    · split at h
      · exact ⟨_, Activity.arrive_some h⟩
      · cases h

/-- A route is refused only because a complex gateway cannot be reached along it. -/
theorem advance_error {head : List Activity} {err : Error}
    (h : (g.advance route head now).fresh = .error err) : ∃ id, err = .complexTraversal id := by
  -- The first visit that refuses decides.
  have hvisits : ∀ (targets : List String) (r r' : Arrivals),
      g.visitAll route now targets r = (r', some err) → ∃ id, err = .complexTraversal id := by
    intro targets
    induction targets with
    | nil => intro r r' hall; cases hall
    | cons target targets ih =>
      intro r r' hall
      unfold visitAll at hall
      split at hall
      · next heq => cases hall; exact visit_some (congrArg Prod.snd heq)
      · exact ih _ _ hall
  unfold advance at h
  split at h
  · cases h
  · next r e heq => cases h; exact hvisits _ _ _ heq

end Graph

/-! ## Routes on which no target refuses -/

namespace Activity

variable {route : List String} {now : Instant}

/-- Whether the activity refuses every arrival, as a complex gateway does. -/
def Refuses (a : Activity) : Prop := ∃ w, a.kind = .gateway w ∧ w.kind = .complex

/-- Whether an activity refuses shows in its blank. -/
theorem refuses_blank {a : Activity} : a.blank.Refuses ↔ a.Refuses := by
  unfold Refuses
  cases hk : a.kind with
  | gateway w => simp [hk, Kind.blank]
  | task t => simp [hk, Kind.blank]
  | event e => simp [hk, Kind.blank]

/-- An arrival is answered without an error by every activity that does not refuse. -/
theorem arrive_error {a : Activity} (h : ¬ a.Refuses) : (a.arrive route now).2 = none := by
  unfold arrive
  cases hk : a.kind with
  | gateway w =>
    dsimp only
    split
    · next hw => exact absurd ⟨w, hk, hw⟩ h
    · rfl
  | task t => rfl
  | event e => rfl

/-- The activity after a number of arrivals along edges of a route. -/
def arrivals (route : List String) (now : Instant) (n : ℕ) (a : Activity) : Activity :=
  (fun a => (a.arrive route now).1)^[n] a

@[simp]
theorem arrivals_zero (a : Activity) : a.arrivals route now 0 = a := rfl

/-- One arrival more, after the others. -/
theorem arrivals_succ (n : ℕ) (a : Activity) :
    a.arrivals route now (n + 1) = ((a.arrivals route now n).arrive route now).1 :=
  Function.iterate_succ_apply' _ n a

@[simp]
theorem blank_arrivals (n : ℕ) (a : Activity) : (a.arrivals route now n).blank = a.blank := by
  induction n with
  | zero => rfl
  | succ n ih => rw [arrivals_succ, blank_arrive, ih]

@[simp]
theorem id_arrivals (n : ℕ) (a : Activity) : (a.arrivals route now n).id = a.id := by
  show (a.arrivals route now n).blank.id = a.blank.id
  rw [blank_arrivals]

/-- The arrivals along targets of which the last is given apart. -/
theorem arrivals_count_append (targets : List String) (target id : String) (a : Activity) :
    a.arrivals route now ((targets ++ [target]).count id) =
      if id == target then ((a.arrivals route now (targets.count id)).arrive route now).1
      else a.arrivals route now (targets.count id) := by
  by_cases h : id = target
  · subst h
    simp [arrivals_succ]
  · have h' : target ≠ id := Ne.symm h
    simp [h, h', List.count_append]

end Activity

/-- Whether some activity has an id. -/
theorem any_id_iff {as : List Activity} {id : String} :
    as.any (·.id == id) = true ↔ id ∈ as.map (·.id) := by
  rw [List.any_eq_true, List.mem_map]
  constructor
  · rintro ⟨a, ha, hid⟩
    exact ⟨a, ha, eq_of_beq hid⟩
  · rintro ⟨a, ha, rfl⟩
    exact ⟨a, ha, beq_self_eq_true _⟩

namespace Graph

variable {g : Graph} {route : List String} {now : Instant}

/-- The definitions of the targets that are not live, each once, in the order of their first
mention. -/
def newcomers (g : Graph) (head : List Activity) (targets : List String) : List Activity :=
  targets.foldl (fun made target =>
    if head.any (·.id == target) || made.any (·.id == target) then made
    else made ++ (g.activity? target).toList) []

/-- The newcomers along targets of which the last is given apart. -/
theorem newcomers_append (head : List Activity) (targets : List String) (target : String) :
    g.newcomers head (targets ++ [target]) =
      if target ∈ head.map (·.id) ∨ target ∈ (g.newcomers head targets).map (·.id) then
        g.newcomers head targets
      else g.newcomers head targets ++ (g.activity? target).toList := by
  rw [newcomers, List.foldl_append]
  exact if_congr (by rw [Bool.or_eq_true, any_id_iff, any_id_iff]; rfl) rfl rfl

/-- Newcomers are the definitions of targets that are not live. -/
theorem mem_newcomers {head : List Activity} {targets : List String} {d : Activity} :
    d ∈ g.newcomers head targets ↔
      d.id ∈ targets ∧ d.id ∉ head.map (·.id) ∧ g.activity? d.id = some d := by
  induction targets using List.reverseRecOn generalizing d with
  | nil => simp [newcomers]
  | append_singleton targets target ih =>
    rw [newcomers_append]
    split
    · next hknown =>
      -- A target that is live or a newcomer already brings nobody new.
      have hagain : ∀ d : Activity, d.id ∉ head.map (·.id) → d.id = target → d.id ∈ targets := by
        intro d hnot hid
        obtain ⟨d', hd', hd'id⟩ := List.mem_map.mp (hknown.resolve_left (hid ▸ hnot))
        rw [hid, ← hd'id]
        exact (ih.mp hd').1
      rw [ih, List.mem_append, List.mem_singleton]
      constructor
      · rintro ⟨ht, hnot, hd⟩
        exact ⟨.inl ht, hnot, hd⟩
      · rintro ⟨ht | ht, hnot, hd⟩
        · exact ⟨ht, hnot, hd⟩
        · exact ⟨hagain d hnot ht, hnot, hd⟩
    · next hnew =>
      rw [not_or] at hnew
      rw [List.mem_append, ih, Option.mem_toList, List.mem_append, List.mem_singleton]
      constructor
      · rintro (⟨ht, hnot, hd⟩ | hd)
        · exact ⟨.inl ht, hnot, hd⟩
        · have hid := (activity?_some hd).2
          exact ⟨.inr hid, hid ▸ hnew.1, hid ▸ hd⟩
      · rintro ⟨ht | ht, hnot, hd⟩
        · exact .inl ⟨ht, hnot, hd⟩
        · exact .inr (ht ▸ hd)

/-- Newcomers have distinct ids. -/
theorem newcomers_unique (head : List Activity) (targets : List String) :
    ((g.newcomers head targets).map (·.id)).Nodup := by
  induction targets using List.reverseRecOn with
  | nil => simp [newcomers]
  | append_singleton targets target ih =>
    rw [newcomers_append]
    split
    · exact ih
    · next hnew =>
      cases hd : g.activity? target with
      | none => simpa using ih
      | some d =>
        rw [not_or, ← (activity?_some hd).2] at hnew
        rw [Option.toList_some, List.map_append, List.map_singleton, ← List.concat_eq_append]
        exact ih.concat hnew.2

/-- One is made anew for each target that is defined and not live, in the order of their first
mention. -/
theorem ids_newcomers (head : List Activity) (targets : List String) :
    (g.newcomers head targets).map (·.id) =
      (targets.filter fun id =>
        (g.activity? id).isSome && !(head.map (·.id)).contains id).eraseDups := by
  induction targets using List.reverseRecOn with
  | nil => rfl
  | append_singleton targets target ih =>
    have hknown : target ∈ (g.newcomers head targets).map (·.id) ↔ target ∈ targets.filter fun id =>
        (g.activity? id).isSome && !(head.map (·.id)).contains id := by
      rw [ih, List.mem_eraseDups]
    rw [newcomers_append, List.filter_append, List.filter_singleton]
    by_cases hlive : target ∈ head.map (·.id)
    · simpa [hlive] using ih
    · cases hd : g.activity? target with
      | none => simpa [hd] using ih
      | some d =>
        -- The target counts, and only its first mention brings somebody new.
        have hlives : (head.map (·.id)).contains target = false := by simpa using hlive
        rw [hlives, Option.isSome_some, Bool.not_false, Bool.and_self, cond_true,
          eraseDups_append_singleton]
        by_cases hagain : target ∈ (g.newcomers head targets).map (·.id)
        · rw [if_pos (.inr hagain), if_pos (hknown.mp hagain), ih]
        · rw [if_neg (not_or.mpr ⟨hlive, hagain⟩), if_neg (mt hknown.mpr hagain), List.map_append,
            ih, Option.toList_some, List.map_singleton, (activity?_some hd).2]

/-- The newcomers are the same for the same targets, in some order. -/
theorem newcomers_perm {head : List Activity} {targets targets' : List String}
    (same : ∀ id, id ∈ targets' ↔ id ∈ targets) :
    (g.newcomers head targets').Perm (g.newcomers head targets) := by
  have hnodup : ∀ targets, (g.newcomers head targets).Nodup :=
    fun targets => (newcomers_unique head targets).of_map _
  rw [List.perm_ext_iff_of_nodup (hnodup _) (hnodup _)]
  intro d
  rw [mem_newcomers, mem_newcomers, same]

section Images

variable {as : List Activity} {m : Activity → Activity} {targets : List String} {target : String}

/-- A visit to one of several activities with distinct ids, each of which has had its arrivals
already. -/
theorem map_arrivals_hit (hm : ∀ a, (m a).id = a.id) (unique : (as.map (·.id)).Nodup)
    {b : Activity} (hb : (as.map fun a => (m a).arrivals route now (targets.count a.id)).find?
      (·.id == target) = some b) :
    updateFirst (·.id == target) (fun _ => (b.arrive route now).1)
        (as.map fun a => (m a).arrivals route now (targets.count a.id)) =
      as.map fun a => (m a).arrivals route now ((targets ++ [target]).count a.id) := by
  have hids : ((as.map fun a => (m a).arrivals route now (targets.count a.id)).map
      (·.id)).Nodup := by
    rw [List.map_map]
    simpa [Function.comp_def, hm] using unique
  have hwrite := updateFirst_eq_map (fun a : Activity => a.id) target
    (fun _ => (b.arrive route now).1) hids
  rw [hwrite, List.map_map]
  refine List.map_congr_left fun a ha => ?_
  rw [Function.comp_apply, Activity.id_arrivals, hm, Activity.arrivals_count_append]
  by_cases h : a.id == target
  · -- The activity that was found is the image of this one, as ids are distinct.
    obtain ⟨a', ha', rfl⟩ := List.mem_map.mp (List.mem_of_find?_eq_some hb)
    have hid : a'.id = target := by simpa [hm] using List.find?_some hb
    have haa : a' = a := List.inj_on_of_nodup_map unique ha' ha (hid.trans (eq_of_beq h).symm)
    rw [if_pos h, if_pos h, haa]
  · rw [if_neg h, if_neg h]

/-- A visit to none of the activities. -/
theorem map_arrivals_miss (h : target ∉ as.map (·.id)) :
    (as.map fun a => (m a).arrivals route now ((targets ++ [target]).count a.id)) =
      as.map fun a => (m a).arrivals route now (targets.count a.id) := by
  refine List.map_congr_left fun a ha => ?_
  rw [Activity.arrivals_count_append, if_neg]
  intro hid
  exact h (eq_of_beq hid ▸ List.mem_map_of_mem ha)

/-- A visit that finds none of the activities is to none of them. -/
theorem notMem_of_find?_map_arrivals (hm : ∀ a, (m a).id = a.id)
    (h : (as.map fun a => (m a).arrivals route now (targets.count a.id)).find?
      (·.id == target) = none) : target ∉ as.map (·.id) := by
  intro hmem
  obtain ⟨a, ha, hid⟩ := List.mem_map.mp hmem
  have hnot := List.find?_eq_none.mp h _ (List.mem_map_of_mem ha)
  simp [hm, hid] at hnot

/-- A visit that finds one of the activities finds an image of one with the id of the target. -/
theorem exists_of_find?_map_arrivals (hm : ∀ a, (m a).id = a.id) {b : Activity}
    (h : (as.map fun a => (m a).arrivals route now (targets.count a.id)).find?
      (·.id == target) = some b) :
    ∃ a ∈ as, a.id = target ∧ b = (m a).arrivals route now (targets.count a.id) := by
  obtain ⟨a, ha, rfl⟩ := List.mem_map.mp (List.mem_of_find?_eq_some h)
  exact ⟨a, ha, by simpa [hm] using List.find?_some h, rfl⟩

end Images

/-- Visits to targets of which the last is given apart. -/
theorem visitAll_append (targets : List String) (target : String) {r r' : Arrivals}
    (h : g.visitAll route now targets r = (r', none)) :
    g.visitAll route now (targets ++ [target]) r = g.visit route now r' target := by
  induction targets generalizing r with
  | nil =>
    cases h
    simp only [List.nil_append, visitAll]
    split
    · next heq => rw [heq]
    · next heq => rw [heq]
  | cons first targets ih =>
    rw [List.cons_append, visitAll]
    rw [visitAll] at h
    split at h
    · cases h
    · exact ih h

section Routed

variable {head : List Activity} {targets : List String} {target : String}

/-- What visits to targets in turn leave when none of them refuses. -/
def routed (g : Graph) (route : List String) (now : Instant) (head : List Activity)
    (targets : List String) : Arrivals where
  head := head.map fun a => a.arrivals route now (targets.count a.id)
  fresh := (g.newcomers head targets).map fun d =>
    (d.instantiate now).arrivals route now (targets.count d.id)

/-- A visit to one more target that is live. -/
theorem visit_routed_live (unique : (head.map (·.id)).Nodup)
    (live : ∀ a ∈ head, a.id = target → ¬ a.Refuses) {b : Activity}
    (hb : (g.routed route now head targets).head.find? (·.id == target) = some b) :
    g.visit route now (g.routed route now head targets) target =
      (g.routed route now head (targets ++ [target]), none) := by
  obtain ⟨a, ha, hid, rfl⟩ := exists_of_find?_map_arrivals (m := id) (fun _ => rfl) hb
  have hlive : target ∈ head.map (·.id) := hid ▸ List.mem_map_of_mem ha
  have hnew : target ∉ (g.newcomers head targets).map (·.id) := by
    intro hmem
    obtain ⟨d, hd, hdid⟩ := List.mem_map.mp hmem
    exact (mem_newcomers.mp hd).2.1 (hdid ▸ hlive)
  have hok : ¬ (a.arrivals route now (targets.count a.id)).Refuses := by
    rw [← Activity.refuses_blank, Activity.blank_arrivals, Activity.refuses_blank]
    exact live a ha hid
  -- The activity that was found has one arrival more, and no newcomer has its id.
  have hwrite := map_arrivals_hit (m := id) (fun _ => rfl) unique hb
  simp only [id_eq] at hwrite
  unfold visit
  rw [hb]
  unfold routed
  rw [newcomers_append, if_pos (.inl hlive), map_arrivals_miss hnew, ← hwrite]
  exact congrArg _ (Activity.arrive_error hok)

/-- A visit to one more target that has been made anew. -/
theorem visit_routed_made (hdead : target ∉ head.map (·.id))
    (made : ∀ d, g.activity? target = some d → ¬ d.Refuses) {b : Activity}
    (hnone : (g.routed route now head targets).head.find? (·.id == target) = none)
    (hb : (g.routed route now head targets).fresh.find? (·.id == target) = some b) :
    g.visit route now (g.routed route now head targets) target =
      (g.routed route now head (targets ++ [target]), none) := by
  obtain ⟨d, hd, hid, rfl⟩ := exists_of_find?_map_arrivals (fun d => d.id_instantiate now) hb
  have hknown : target ∈ (g.newcomers head targets).map (·.id) := hid ▸ List.mem_map_of_mem hd
  have hok : ¬ ((d.instantiate now).arrivals route now (targets.count d.id)).Refuses := by
    rw [← Activity.refuses_blank, Activity.blank_arrivals, Activity.blank_instantiate,
      Activity.refuses_blank]
    exact made d (hid ▸ (mem_newcomers.mp hd).2.2)
  have hmiss : (head.map fun a => a.arrivals route now ((targets ++ [target]).count a.id)) =
      head.map fun a => a.arrivals route now (targets.count a.id) :=
    map_arrivals_miss (m := id) hdead
  unfold visit
  rw [hnone, hb]
  unfold routed
  rw [newcomers_append, if_pos (.inr hknown), hmiss,
    ← map_arrivals_hit (fun d => d.id_instantiate now) (newcomers_unique head targets) hb]
  exact congrArg _ (Activity.arrive_error hok)

/-- A visit to one more target that is neither live nor made anew. -/
theorem visit_routed_new (hdead : target ∉ head.map (·.id))
    (hnew : target ∉ (g.newcomers head targets).map (·.id))
    (made : ∀ d, g.activity? target = some d → ¬ d.Refuses)
    (hnone : (g.routed route now head targets).head.find? (·.id == target) = none)
    (hnone' : (g.routed route now head targets).fresh.find? (·.id == target) = none) :
    g.visit route now (g.routed route now head targets) target =
      (g.routed route now head (targets ++ [target]), none) := by
  have hmiss : (head.map fun a => a.arrivals route now ((targets ++ [target]).count a.id)) =
      head.map fun a => a.arrivals route now (targets.count a.id) :=
    map_arrivals_miss (m := id) hdead
  unfold visit
  rw [hnone, hnone']
  unfold routed
  rw [newcomers_append, if_neg (not_or.mpr ⟨hdead, hnew⟩), hmiss, List.map_append,
    map_arrivals_miss hnew]
  cases hd : g.activity? target with
  | none => simp
  | some d =>
    -- This is the first arrival at the target.
    have hid := (activity?_some hd).2
    have hfirst : target ∉ targets := by
      intro hmem
      exact hnew (List.mem_map.mpr
        ⟨d, mem_newcomers.mpr ⟨hid ▸ hmem, hid ▸ hdead, hid ▸ hd⟩, hid⟩)
    have hcount : (targets ++ [target]).count d.id = 1 := by
      rw [hid, List.count_append, List.count_eq_zero_of_not_mem hfirst]
      simp
    have hok : ¬ (d.instantiate now).Refuses := by
      rw [← Activity.refuses_blank, Activity.blank_instantiate, Activity.refuses_blank]
      exact made d hd
    have herror : ((d.instantiate now).arrive route now).2 = none := Activity.arrive_error hok
    simp only [Option.toList_some, List.map_cons, List.map_nil, hcount]
    exact congrArg _ herror

/-- What visits in turn leave when no target refuses. -/
theorem visitAll_eq (unique : (head.map (·.id)).Nodup)
    (live : ∀ a ∈ head, a.id ∈ targets → ¬ a.Refuses)
    (made : ∀ target ∈ targets, ∀ d, g.activity? target = some d → ¬ d.Refuses) :
    g.visitAll route now targets ⟨head, []⟩ = (g.routed route now head targets, none) := by
  induction targets using List.reverseRecOn with
  | nil => simp [visitAll, routed, newcomers]
  | append_singleton targets target ih =>
    -- The last visit is the one that counts: the ones before it have left what is routed so far.
    have hprev := ih (fun a ha ht => live a ha (List.mem_append_left _ ht))
      fun t ht => made t (List.mem_append_left _ ht)
    have hlast : target ∈ targets ++ [target] := by simp
    rw [visitAll_append targets target hprev]
    cases hhead : (g.routed route now head targets).head.find? (·.id == target) with
    | some b => exact visit_routed_live unique (fun a ha hid => live a ha (hid ▸ hlast)) hhead
    | none =>
      have hdead := notMem_of_find?_map_arrivals (m := id) (fun _ => rfl) hhead
      cases hfresh : (g.routed route now head targets).fresh.find? (·.id == target) with
      | some b => exact visit_routed_made hdead (made target hlast) hhead hfresh
      | none =>
        have hnew := notMem_of_find?_map_arrivals (fun d => d.id_instantiate now) hfresh
        exact visit_routed_new hdead hnew (made target hlast) hhead hfresh

end Routed

/-- What a route leaves when no target refuses. -/
theorem advance_eq {head : List Activity} (unique : (head.map (·.id)).Nodup)
    (live : ∀ a ∈ head, a.id ∈ g.targetIds route → ¬ a.Refuses)
    (made : ∀ target ∈ g.targetIds route, ∀ d, g.activity? target = some d → ¬ d.Refuses) :
    g.advance route head now =
      ⟨head.map fun a => a.arrivals route now ((g.targetIds route).count a.id),
        .ok ((g.newcomers head (g.targetIds route)).map fun d =>
          (d.instantiate now).arrivals route now ((g.targetIds route).count d.id))⟩ := by
  unfold advance
  rw [visitAll_eq unique live made]
  rfl

end Graph

/-! ## What arrivals do -/

/-- The token after arrivals along all edges of a route. -/
def Token.arriveAll (route : List String) (t : Token) : Token :=
  if route.contains t.edge then t.take else t

@[simp]
theorem Token.edge_arriveAll (route : List String) (t : Token) :
    (t.arriveAll route).edge = t.edge := by
  unfold arriveAll
  split <;> rfl

/-- To take a taken token changes nothing, so it does not matter which tokens of a route were taken
before. -/
theorem Token.take_untaken (route : List String) (t : Token) :
    (if !t.taken && route.contains t.edge then t.take else t) = t.arriveAll route := by
  unfold arriveAll
  cases ht : t.taken with
  | false => simp
  | true =>
    have htake : t.take = t := by simp [Token.take, ← ht]
    simp [htake]

namespace Activity

variable {route : List String} {now : Instant}

/-- An arrival enters every activity that is no gateway. -/
theorem status_arrive {a : Activity} (h : a.gateway? = none) :
    (a.arrive route now).1.status = some .entered := by
  unfold gateway? at h
  unfold arrive
  cases hk : a.kind with
  | gateway w => rw [hk] at h; cases h
  | task t => simp
  | event e => simp

/-- Whether an activity is a gateway shows in its blank. -/
theorem gateway?_blank (a : Activity) : a.blank.gateway? = a.gateway?.map Gateway.blank := by
  unfold gateway?
  cases hk : a.kind <;> simp [hk, Kind.blank]

/-- Arrivals enter every activity that is no gateway. -/
theorem status_arrivals (route : List String) (now : Instant) {a : Activity}
    (h : a.gateway? = none) {n : ℕ} (hn : 0 < n) :
    (a.arrivals route now n).status = some .entered := by
  obtain ⟨m, rfl⟩ : ∃ m, n = m + 1 := ⟨n - 1, by omega⟩
  -- The last arrival decides, and before it the activity is no gateway either.
  rw [arrivals_succ]
  apply status_arrive
  have hblank := gateway?_blank (a.arrivals route now m)
  rw [blank_arrivals, gateway?_blank, h] at hblank
  simpa using hblank.symm

/-- An arrival at a gateway that does not refuse takes a token of the route, and the join decides
whether the gateway is entered or paused. -/
theorem arrive_gateway {a : Activity} {w : Gateway} (hw : a.kind = .gateway w)
    (hok : ¬ a.Refuses) :
    (a.arrive route now).1.kind = .gateway (w.arrive route) ∧
      (a.arrive route now).1.status =
        some (if (w.arrive route).joinSatisfied then .entered else .paused) := by
  unfold arrive
  rw [hw]
  dsimp only
  split
  · next hc => exact absurd ⟨w, hw, hc⟩ hok
  · exact ⟨rfl, status_set _ _ _⟩

/-- After one arrival or more at a gateway that does not refuse, the join decides whether the
gateway is entered or paused. -/
theorem arrivals_gateway (route : List String) (now : Instant) {a : Activity} {w : Gateway}
    (hw : a.kind = .gateway w) (hok : ¬ a.Refuses) {n : ℕ} (hn : 0 < n) :
    ∃ w', (a.arrivals route now n).kind = .gateway w' ∧
      (a.arrivals route now n).status =
        some (if w'.joinSatisfied then .entered else .paused) := by
  obtain ⟨m, rfl⟩ : ∃ m, n = m + 1 := ⟨n - 1, by omega⟩
  have hok' : ¬ (a.arrivals route now m).Refuses := by
    rw [← refuses_blank, blank_arrivals, refuses_blank]
    exact hok
  -- The activity is still a gateway before the last arrival.
  obtain ⟨w', hw'⟩ : ∃ w', (a.arrivals route now m).kind = .gateway w' := by
    have hblank := gateway?_blank (a.arrivals route now m)
    rw [blank_arrivals, gateway?_blank, gateway?_of_kind hw] at hblank
    obtain ⟨w', hw', -⟩ := Option.map_eq_some_iff.mp hblank.symm
    exact ⟨w', kind_of_gateway? hw'⟩
  rw [arrivals_succ]
  exact ⟨w'.arrive route, arrive_gateway hw' hok'⟩

/-- Arrivals take tokens on the route that are not taken, one by one. -/
theorem tokens_arrivals (a : Activity) (n : ℕ) :
    (a.arrivals route now n).tokens =
      (updateFirst (fun t => !t.taken && route.contains t.edge) Token.take)^[n] a.tokens := by
  induction n with
  | zero => rfl
  | succ n ih => rw [arrivals_succ, tokens_arrive, ih, Function.iterate_succ_apply']

/-- As many arrivals as there are untaken tokens on the route, or more, take every token on it. -/
theorem tokens_arrivals_of_le {a : Activity} {n : ℕ}
    (h : (a.tokens.filter fun t => !t.taken && route.contains t.edge).length ≤ n) :
    (a.arrivals route now n).tokens = a.tokens.map (Token.arriveAll route) := by
  rw [tokens_arrivals, iterate_updateFirst (fun t _ => by simp [Token.take]) h]
  exact List.map_congr_left fun t _ => t.take_untaken route

end Activity

end Workflow
