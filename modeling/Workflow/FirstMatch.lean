/-!
# Changing the first match of a list

Live branches, arrival tokens and records are kept in lists whose order is part of what an engine
answers, and each of them is looked up by the first element that matches.  `updateFirst` changes
that element and leaves every other element, and the order, alone.  The lemmas say what it keeps:
the length, every projection that the change keeps, and the whole list when nothing matches.
-/

namespace Workflow

variable {α β : Type}

/-- The list with `f` applied to the first element that `p` accepts. -/
def updateFirst (p : α → Bool) (f : α → α) : List α → List α
  | [] => []
  | a :: as => if p a then f a :: as else a :: updateFirst p f as

@[simp]
theorem length_updateFirst (p : α → Bool) (f : α → α) (as : List α) :
    (updateFirst p f as).length = as.length := by
  induction as with
  | nil => rfl
  | cons a as ih => by_cases h : p a <;> simp [updateFirst, h, ih]

/-- A projection that `f` keeps on the elements `p` accepts is kept by the whole update. -/
theorem map_updateFirst (g : α → β) {p : α → Bool} {f : α → α}
    (keeps : ∀ a, p a = true → g (f a) = g a) (as : List α) :
    (updateFirst p f as).map g = as.map g := by
  induction as with
  | nil => rfl
  | cons a as ih => by_cases h : p a <;> simp [updateFirst, h, ih, keeps]

/-- Nothing changes when `f` changes no element that matches. -/
theorem updateFirst_of_fixed {p : α → Bool} {f : α → α} {as : List α}
    (fixed : ∀ a ∈ as, p a = true → f a = a) : updateFirst p f as = as := by
  induction as with
  | nil => rfl
  | cons a as ih =>
    have hrest := ih fun b hb => fixed b (List.mem_cons_of_mem _ hb)
    by_cases h : p a
    · simp [updateFirst, h, fixed a (List.mem_cons_self ..) h]
    · simp [updateFirst, h, hrest]

/-- Nothing changes when no element matches. -/
theorem updateFirst_of_none {p : α → Bool} (f : α → α) {as : List α}
    (none_match : ∀ a ∈ as, p a = false) : updateFirst p f as = as :=
  updateFirst_of_fixed fun a ha h => by rw [none_match a ha] at h; cases h

end Workflow
