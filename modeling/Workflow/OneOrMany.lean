import Workflow.FirstMatch

/-!
# One or many

A diagram may give a single reference bare and several as a list, and even a single one as a list of
one.  The two spellings are kept apart, because an activity is written back in the spelling it was
read in and because a gateway treats a bare outgoing edge as a choice already made.
-/

namespace Workflow

/-- A value given bare, or a list of values. -/
inductive OneOrMany (α : Type) where
  | one (a : α)
  | many (as : List α)
  deriving DecidableEq, Repr

namespace OneOrMany

variable {α β : Type}

/-- The values, in order. -/
def toList : OneOrMany α → List α
  | one a => [a]
  | many as => as

/-- Whether the values were given as a list. -/
def isMany : OneOrMany α → Bool
  | one _ => false
  | many _ => true

/-- How many values there are. -/
def length (xs : OneOrMany α) : Nat := xs.toList.length

/-- Whether there is no value, which only an empty list can be. -/
def isEmpty (xs : OneOrMany α) : Bool := xs.toList.isEmpty

/-- Whether `a` is among the values. -/
def contains [DecidableEq α] (xs : OneOrMany α) (a : α) : Bool := xs.toList.contains a

/-- Every value mapped, in the same spelling. -/
def map (f : α → β) : OneOrMany α → OneOrMany β
  | one a => one (f a)
  | many as => many (as.map f)

/-- The values with `f` applied to the first that `p` accepts, in the same spelling. -/
def updateFirst (p : α → Bool) (f : α → α) : OneOrMany α → OneOrMany α
  | one a => one (if p a then f a else a)
  | many as => many (Workflow.updateFirst p f as)

/-- The shortest spelling of a list: absent when empty, bare for one value, else a list. -/
def ofList? : List α → Option (OneOrMany α)
  | [] => none
  | [a] => some (one a)
  | as => some (many as)

@[simp] theorem toList_one (a : α) : (one a).toList = [a] := rfl

@[simp] theorem toList_many (as : List α) : (many as).toList = as := rfl

@[simp]
theorem toList_map (f : α → β) (xs : OneOrMany α) : (xs.map f).toList = xs.toList.map f := by
  cases xs <;> rfl

@[simp]
theorem isMany_map (f : α → β) (xs : OneOrMany α) : (xs.map f).isMany = xs.isMany := by
  cases xs <;> rfl

@[simp]
theorem toList_updateFirst (p : α → Bool) (f : α → α) (xs : OneOrMany α) :
    (xs.updateFirst p f).toList = Workflow.updateFirst p f xs.toList := by
  cases xs with
  | one a => by_cases h : p a <;> simp [updateFirst, Workflow.updateFirst, h]
  | many as => rfl

@[simp]
theorem isMany_updateFirst (p : α → Bool) (f : α → α) (xs : OneOrMany α) :
    (xs.updateFirst p f).isMany = xs.isMany := by
  cases xs <;> rfl

/-- The values and the spelling determine the whole. -/
theorem eq_of_toList_isMany {xs ys : OneOrMany α} (hl : xs.toList = ys.toList)
    (hm : xs.isMany = ys.isMany) : xs = ys := by
  cases xs <;> cases ys <;> simp_all [isMany]

end OneOrMany

end Workflow
