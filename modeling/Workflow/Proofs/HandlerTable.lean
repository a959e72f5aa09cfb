import Workflow.Engine.Run

/-!
# What registration gives

Registering a handler sets it for its name and tier and leaves every other name alone
(`HandlerTable.find?_register`).  Unattended, an activity is run by the automatic handler of its
name or the default policy (`HandlerTable.forForward_some`), and it is left alone only if its name
has a handler.  A table in which some activities wait to be run has a manual handler for each of
their names and nothing else.
-/

namespace Workflow

namespace HandlerTable

variable {η : Type} {name : String} {tier : Tier} {handler : η}

/-- Setting the handler of a name and a tier among the entries. -/
theorem lookup_setEntry (entries : List (String × Registration η)) (n : String) :
    (setEntry name tier handler entries).lookup n =
      if n = name then some (((entries.lookup name).getD {}).set tier handler)
      else entries.lookup n := by
  induction entries with
  | nil =>
    by_cases h : n = name
    · simp [setEntry, h]
    · have h' : (n == name) = false := by simpa using h
      simp [setEntry, List.lookup_cons, h, h']
  | cons entry entries ih =>
    obtain ⟨m, r⟩ := entry
    unfold setEntry
    by_cases hm : name = m
    · -- The name has an entry already, which is changed.
      subst hm
      by_cases h : n = name
      · simp [h]
      · have h' : (n == name) = false := by simpa using h
        simp [List.lookup_cons, h, h']
    · have hm' : (name == m) = false := by simpa using hm
      rw [if_neg hm]
      by_cases hn : n = m
      · subst hn
        have h : n ≠ name := fun h => hm h.symm
        simp [h]
      · have hn' : (n == m) = false := by simpa using hn
        simp only [List.lookup_cons, hn', hm', ih]

/-- What is found after a registration. -/
theorem find?_register (t : HandlerTable η) (n : String) :
    (t.register name tier handler).find? n =
      if n = name then some (((t.find? name).getD {}).set tier handler) else t.find? n :=
  lookup_setEntry t.entries n

/-- Whether a handler is registered in the table, under any name and on either tier. -/
def Has (t : HandlerTable η) (handler : η) : Prop :=
  ∃ name r tier, t.find? name = some r ∧ r.on tier = some handler

/-- Setting the handler of a tier leaves the other tier alone. -/
theorem on_set (r : Registration η) (tier tier' : Tier) (handler : η) :
    (r.set tier handler).on tier' = if tier' = tier then some handler else r.on tier' := by
  cases tier <;> cases tier' <;> rfl

/-- A registration brings no other handler than the registered one. -/
theorem has_register {t : HandlerTable η} {other : η}
    (h : (t.register name tier handler).Has other) : other = handler ∨ t.Has other := by
  obtain ⟨n, r, tier', hr, hon⟩ := h
  rw [find?_register] at hr
  split at hr
  · cases hr
    rw [on_set] at hon
    split at hon
    · exact .inl (Option.some.inj hon).symm
    · -- The other tier is as it was, empty where the name is new.
      cases hfound : t.find? name with
      | none => rw [hfound] at hon; cases tier' <;> cases hon
      | some r => rw [hfound] at hon; exact .inr ⟨name, r, tier', hfound, hon⟩
  · exact .inr ⟨n, r, tier', hr, hon⟩

/-- What runs an activity unattended is the default policy or the automatic handler of its name. -/
theorem forForward_some {t : HandlerTable η} {name : Option String} {choice : Choice η}
    (h : t.forForward name = some choice) :
    choice = .default ∨ ∃ n handler, name = some n ∧ t.automatic? n = some handler ∧
      choice = .registered .automatic handler := by
  unfold forForward at h
  split at h
  · exact .inl (Option.some.inj h).symm
  · next r hr =>
    obtain ⟨n, hname, hfind⟩ := Option.bind_eq_some_iff.mp hr
    split at h
    · next handler hauto =>
      refine .inr ⟨n, handler, hname, ?_, (Option.some.inj h).symm⟩
      rw [automatic?, hfind]
      exact hauto
    · cases h
    · exact .inl (Option.some.inj h).symm

/-- Whether a name has a handler on the manual tier and none on the automatic one. -/
def OnlyManual (t : HandlerTable η) (name : Option String) : Prop :=
  ∃ n handler, name = some n ∧ t.manual? n = some handler ∧ t.automatic? n = none

/-- Whether a choice is the automatic handler of a name, or the default policy for a name that has
no handler. -/
def Drives (t : HandlerTable η) (name : Option String) : Choice η → Prop
  | .registered tier handler =>
    tier = .automatic ∧ ∃ n, name = some n ∧ t.automatic? n = some handler
  | .default => ∀ n, name = some n → t.automatic? n = none ∧ t.manual? n = none

/-- Whether a choice is the manual handler of a name if it has one, else its automatic handler, else
the default policy. -/
def Answers (t : HandlerTable η) (name : String) : Choice η → Prop
  | .registered .manual handler => t.manual? name = some handler
  | .registered .automatic handler => t.manual? name = none ∧ t.automatic? name = some handler
  | .default => t.manual? name = none ∧ t.automatic? name = none

/-- An activity is left alone just when its name has a manual handler only. -/
theorem forForward_eq_none_iff {t : HandlerTable η} {name : Option String} :
    t.forForward name = none ↔ t.OnlyManual name := by
  unfold forForward OnlyManual manual? automatic?
  cases name with
  | none => simp
  | some n =>
    rw [Option.bind_some]
    cases hr : t.find? n with
    | none => simp [hr]
    | some r =>
      cases hauto : r.automatic <;> cases hmanual : r.manual <;> simp [hr, hauto, hmanual]

/-- An activity that is left alone has a handler for its name. -/
theorem forForward_none {t : HandlerTable η} {name : Option String}
    (h : t.forForward name = none) : ∃ n, name = some n ∧ t.find? n ≠ none := by
  obtain ⟨n, handler, hname, hmanual, -⟩ := forForward_eq_none_iff.mp h
  refine ⟨n, hname, fun hnone => ?_⟩
  rw [manual?, hnone] at hmanual
  cases hmanual

/-- What runs an activity unattended drives it. -/
theorem drives_of_forForward {t : HandlerTable η} {name : Option String} {choice : Choice η}
    (h : t.forForward name = some choice) : t.Drives name choice := by
  unfold forForward at h
  unfold Drives manual? automatic?
  cases name with
  | none => cases h; exact fun n hn => nomatch hn
  | some n =>
    rw [Option.bind_some] at h
    cases hr : t.find? n with
    | none => rw [hr] at h; cases h; simp [hr]
    | some r =>
      rw [hr] at h
      cases hauto : r.automatic <;> cases hmanual : r.manual <;>
        simp only [hauto, hmanual, Option.some.injEq, reduceCtorEq] at h
      all_goals subst h; simp [hr, hauto, hmanual]

/-- What runs an activity by name answers for the name. -/
theorem answers_forRun (t : HandlerTable η) (name : String) : t.Answers name (t.forRun name) := by
  unfold forRun
  split
  · next handler hmanual => exact hmanual
  · next handler hmanual hauto => exact ⟨hmanual, hauto⟩
  · next hmanual hauto => exact ⟨hmanual, hauto⟩

/-- The table in which activities of some names wait to be run with a handler. -/
def waiting (handler : η) (names : List String) : HandlerTable η :=
  names.foldr (fun name t => t.register name .manual handler) {}

/-- The names of such a table have the handler on the manual tier, and no other name has any. -/
theorem find?_waiting (handler : η) (names : List String) (n : String) :
    (waiting handler names).find? n =
      if n ∈ names then some { manual := some handler } else none := by
  induction names with
  | nil => rfl
  | cons name names ih =>
    show ((waiting handler names).register name .manual handler).find? n = _
    rw [find?_register]
    by_cases hn : n = name
    · -- The handler is set once more if the name occurs again.
      subst hn
      rw [if_pos rfl, if_pos (List.mem_cons_self ..), ih]
      split <;> rfl
    · simp [hn, ih]

/-- The names of such a table have nothing but a manual handler. -/
theorem onlyManual_waiting (handler : η) {names : List String} {name : String}
    (h : name ∈ names) : (waiting handler names).OnlyManual (some name) := by
  have hfind := find?_waiting handler names name
  rw [if_pos h] at hfind
  exact ⟨name, handler, rfl, by rw [manual?, hfind]; rfl, by rw [automatic?, hfind]; rfl⟩

/-- Such a table has no other handler. -/
theorem eq_of_has_waiting {handler other : η} {names : List String}
    (h : (waiting handler names).Has other) : other = handler := by
  obtain ⟨name, r, tier, hr, hon⟩ := h
  rw [find?_waiting] at hr
  split at hr
  · cases hr
    cases tier with
    | manual => exact (Option.some.inj hon).symm
    | automatic => cases hon
  · cases hr

end HandlerTable

end Workflow
