import Mathlib.Data.List.Forall2
import Mathlib.Data.List.Nodup
import Mathlib.Logic.Function.Iterate
import Workflow.FirstMatch

/-!
# More on the first match of a list and on changing it

A search finds the first element that it accepts (`find?_eq_some_iff_isFirst`).  Where a key tells
all elements of a list apart, the first element of a key is the only one (`find?_of_mem`), and
changing it is a map (`updateFirst_eq_map`).  What holds of every element and of the changed one
holds of the whole result (`forall_updateFirst`), and a search for other elements does not see the
change (`find?_updateFirst`).  And when a change makes an element stop matching, as many changes as
there are matches change them all (`iterate_updateFirst`): this is how a gateway comes to have taken
every token of a route.
-/

namespace Workflow

variable {α β : Type}

/-- Whether an element is the first of a list that has a property. -/
def IsFirst (P : α → Prop) (as : List α) (a : α) : Prop :=
  ∃ before after, as = before ++ a :: after ∧ P a ∧ ∀ b ∈ before, ¬ P b

/-- What a search finds is the first element that is accepted. -/
theorem find?_eq_some_iff_isFirst {p : α → Bool} {P : α → Prop} (decides : ∀ a, p a = true ↔ P a)
    {as : List α} {a : α} : as.find? p = some a ↔ IsFirst P as a := by
  rw [List.find?_eq_some_iff_append, decides]
  unfold IsFirst
  constructor
  · rintro ⟨ha, before, after, rfl, hbefore⟩
    refine ⟨before, after, rfl, ha, fun b hb hP => ?_⟩
    have hnot := hbefore b hb
    rw [(decides b).mpr hP] at hnot
    cases hnot
  · rintro ⟨before, after, rfl, ha, hbefore⟩
    refine ⟨ha, before, after, rfl, fun b hb => ?_⟩
    cases hb' : p b with
    | false => rfl
    | true => exact absurd ((decides b).mp hb') (hbefore b hb)

/-- The first image that has a property is the image of the first element whose image has it. -/
theorem isFirst_map {α β : Type} {P : β → Prop} {f : α → β} {as : List α} {b : β} :
    IsFirst P (as.map f) b ↔ ∃ a, IsFirst (fun a => P (f a)) as a ∧ b = f a := by
  constructor
  · rintro ⟨before, after, hsplit, hb, hbefore⟩
    obtain ⟨before', rest, rfl, rfl, hrest⟩ := List.map_eq_append_iff.mp hsplit
    obtain ⟨a, after', rfl, rfl, rfl⟩ := List.map_eq_cons_iff.mp hrest
    exact ⟨a, ⟨before', after', rfl, hb, fun c hc => hbefore _ (List.mem_map_of_mem hc)⟩, rfl⟩
  · rintro ⟨a, ⟨before, after, rfl, ha, hbefore⟩, rfl⟩
    exact ⟨before.map f, after.map f, by simp, ha, List.forall_mem_map.mpr hbefore⟩

/-- The first mentions in a list of which the last element is given apart. -/
theorem eraseDups_append_singleton [DecidableEq α] (as : List α) (a : α) :
    (as ++ [a]).eraseDups = if a ∈ as then as.eraseDups else as.eraseDups ++ [a] := by
  rw [List.eraseDups_append]
  by_cases h : a ∈ as <;> simp [List.removeAll, List.eraseDups_cons, h]

/-- Where keys are distinct, an element is found by its key. -/
theorem find?_of_mem [BEq β] [LawfulBEq β] (key : α → β) {as : List α}
    (unique : (as.map key).Nodup) {a : α} (ha : a ∈ as) :
    as.find? (fun b => key b == key a) = some a := by
  cases hfind : as.find? (fun b => key b == key a) with
  | none =>
    have hnone := List.find?_eq_none.mp hfind a ha
    simp at hnone
  | some b =>
    have hkey : key b = key a := by simpa using List.find?_some hfind
    rw [List.inj_on_of_nodup_map unique (List.mem_of_find?_eq_some hfind) ha hkey]

/-- Where keys are distinct, changing the first element of a key is changing every element of that
key. -/
theorem updateFirst_eq_map [BEq β] [LawfulBEq β] (key : α → β) (k : β) (f : α → α) {as : List α}
    (unique : (as.map key).Nodup) :
    updateFirst (fun a => key a == k) f as = as.map fun a => if key a == k then f a else a := by
  induction as with
  | nil => rfl
  | cons a as ih =>
    rw [List.map_cons, List.nodup_cons] at unique
    obtain ⟨hnot, hrest⟩ := unique
    by_cases h : key a == k
    · -- No later element has the key of the first.
      have hk : key a = k := by simpa using h
      have hlater : ∀ b ∈ as, (if key b == k then f b else b) = b := by
        intro b hb
        rw [if_neg]
        intro hkb
        have : key b = key a := by rw [hk]; simpa using hkb
        exact hnot (this ▸ List.mem_map_of_mem hb)
      simp [updateFirst, h, List.map_congr_left hlater]
    · simp [updateFirst, h, ih hrest]

/-- Changing the first match among images is changing the first one whose image matches. -/
theorem updateFirst_map (φ : α → β) {p : β → Bool} {q : α → Bool} {k : β → β} (l : α → α)
    (matching : ∀ a, p (φ a) = q a) (changed : ∀ a, k (φ a) = φ (l a)) (as : List α) :
    updateFirst p k (as.map φ) = (updateFirst q l as).map φ := by
  induction as with
  | nil => rfl
  | cons a as ih => by_cases h : q a <;> simp [updateFirst, matching, changed, h, ih]

/-- What holds of all elements, and of the changed one, holds of all elements after the change. -/
theorem forall_updateFirst {P : α → Prop} {p : α → Bool} {f : α → α} {as : List α}
    (before : ∀ a ∈ as, P a) (changed : ∀ a ∈ as, p a = true → P (f a)) :
    ∀ a ∈ updateFirst p f as, P a := by
  induction as with
  | nil => simp [updateFirst]
  | cons a as ih =>
    have hrest := ih (fun b hb => before b (by simp [hb])) fun b hb => changed b (by simp [hb])
    by_cases h : p a
    · simp only [updateFirst, h, if_true, List.mem_cons]
      rintro b (rfl | hb)
      · exact changed a (by simp) h
      · exact before b (by simp [hb])
    · simp only [updateFirst, h, if_false, Bool.false_eq_true, List.mem_cons]
      rintro b (rfl | hb)
      · exact before b (by simp)
      · exact hrest b hb

/-- What holds of some element and is kept by the change holds of some element after it. -/
theorem exists_updateFirst {P : α → Prop} {p : α → Bool} {f : α → α} {as : List α}
    (before : ∃ a ∈ as, P a) (keeps : ∀ a, P a → P (f a)) : ∃ a ∈ updateFirst p f as, P a := by
  induction as with
  | nil => obtain ⟨a, ha, -⟩ := before; cases ha
  | cons b as ih =>
    unfold updateFirst
    obtain ⟨a, ha, hP⟩ := before
    rcases List.mem_cons.mp ha with rfl | ha
    · split
      · exact ⟨f a, List.mem_cons_self .., keeps a hP⟩
      · exact ⟨a, List.mem_cons_self .., hP⟩
    · split
      · exact ⟨a, List.mem_cons_of_mem _ ha, hP⟩
      · obtain ⟨c, hc, hPc⟩ := ih ⟨a, ha, hP⟩
        exact ⟨c, List.mem_cons_of_mem _ hc, hPc⟩

/-- The first match of two lists is in the first of them, or there is none there. -/
theorem updateFirst_append (p : α → Bool) (f : α → α) (as bs : List α) :
    updateFirst p f (as ++ bs) =
      if as.any p then updateFirst p f as ++ bs else as ++ updateFirst p f bs := by
  induction as with
  | nil => rfl
  | cons a as ih =>
    by_cases h : p a
    · simp [updateFirst, h]
    · simp only [List.cons_append, updateFirst, h, ih, List.any_cons, Bool.false_or,
        Bool.false_eq_true, if_false]
      split <;> rfl

/-- A relation to the elements of a list that the change keeps is one to the elements after it. -/
theorem forall₂_updateFirst {R : β → α → Prop} {p : α → Bool} {f : α → α} {bs : List β}
    {as : List α} (before : List.Forall₂ R bs as)
    (changed : ∀ b a, R b a → p a = true → R b (f a)) :
    List.Forall₂ R bs (updateFirst p f as) := by
  induction before with
  | nil => exact .nil
  | @cons b a bs as hab hrest ih =>
    by_cases h : p a
    · simp only [updateFirst, h, if_true]
      exact .cons (changed b a hab h) hrest
    · simp only [updateFirst, h, if_false, Bool.false_eq_true]
      exact .cons hab ih

/-- A change of the first match is not seen by a search that accepts neither a match nor what
becomes of it. -/
theorem find?_updateFirst {p q : α → Bool} {f : α → α} (before : ∀ a, p a = true → q a = false)
    (after : ∀ a, p a = true → q (f a) = false) (as : List α) :
    (updateFirst p f as).find? q = as.find? q := by
  induction as with
  | nil => rfl
  | cons a as ih =>
    by_cases h : p a
    · simp [updateFirst, h, before a h, after a h]
    · simp [updateFirst, h, List.find?_cons, ih]

/-- What is put in the place of the first match is the first match. -/
theorem find?_updateFirst_self {p : α → Bool} {as : List α} (has : as.any p = true) {a : α}
    (ha : p a = true) : (updateFirst p (fun _ => a) as).find? p = some a := by
  induction as with
  | nil => cases has
  | cons b as ih =>
    by_cases hb : p b
    · simp [updateFirst, hb, ha]
    · rw [List.any_cons, Bool.or_eq_true] at has
      simp [updateFirst, hb, ih (has.resolve_left hb)]

section Exhaust

variable {p : α → Bool} {f : α → α}

/-- Changing the first match, where the change ends the match, leaves one match less. -/
theorem length_filter_updateFirst (ends : ∀ a, p a = true → p (f a) = false) (as : List α) :
    ((updateFirst p f as).filter p).length = (as.filter p).length - 1 := by
  induction as with
  | nil => rfl
  | cons a as ih =>
    by_cases h : p a
    · simp [updateFirst, h, ends a h]
    · simp [updateFirst, h, ih]

/-- Changing every match of a list in which the first match has been changed is changing every match
of the list. -/
theorem map_updateFirst_all (ends : ∀ a, p a = true → p (f a) = false) (as : List α) :
    ((updateFirst p f as).map fun a => if p a then f a else a) =
      as.map fun a => if p a then f a else a :=
  map_updateFirst _ (fun a h => by simp [h, ends a h]) as

/-- As many changes of the first match as there are matches, or more, change every match. -/
theorem iterate_updateFirst (ends : ∀ a, p a = true → p (f a) = false) {n : ℕ} {as : List α}
    (h : (as.filter p).length ≤ n) :
    (updateFirst p f)^[n] as = as.map fun a => if p a then f a else a := by
  induction n generalizing as with
  | zero =>
    -- No element matches, so there is nothing to change.
    have hnone : ∀ a ∈ as, (if p a then f a else a) = a := by
      have hempty : as.filter p = [] := List.length_eq_zero_iff.mp (by omega)
      intro a ha
      rw [if_neg]
      intro hpa
      have : a ∈ as.filter p := List.mem_filter.mpr ⟨ha, hpa⟩
      simp [hempty] at this
    rw [Function.iterate_zero, id_eq, List.map_congr_left hnone, List.map_id']
  | succ n ih =>
    -- The first change leaves one match less for the others.
    have hless : ((updateFirst p f as).filter p).length ≤ n := by
      rw [length_filter_updateFirst ends]
      omega
    rw [Function.iterate_succ_apply, ih hless, map_updateFirst_all ends]

end Exhaust

end Workflow
