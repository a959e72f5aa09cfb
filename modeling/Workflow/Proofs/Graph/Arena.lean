import Workflow.Proofs.Graph.Compile

/-!
# Definitions in slots

A process is compiled into an arena: its definitions are put into slots one after another, and a
table keeps the slot of each id.  A definition is refused when the table has its id already, and it
is looked up by way of the table.

A search over the definitions finds what the table leads to, since no arena can be built in which
the two disagree.  So putting a definition into an arena is accepting it (`Arena.map_push`), a
lookup is a search (`Arena.find?_eq`), and the definitions of every process that compiles have such
an arena (`Document.exists_arena`).
-/

namespace Workflow

/-- Definitions in slots, with a table of the slots of their ids. -/
structure Arena where
  /-- The definitions, each in the slot of its position. -/
  activities : List Activity
  /-- The slot of each id. -/
  slots : Std.HashMap String ℕ
  /-- The table has a slot for an id when the definition there has the id. -/
  agrees : ∀ id slot, slots[id]? = some slot ↔
    ∃ a : Activity, activities[slot]? = some a ∧ a.id = id

namespace Arena

/-- No definitions. -/
def empty : Arena where
  activities := []
  slots := ∅
  agrees := by simp

variable (arena : Arena)

/-- The table still agrees when a definition whose id is new is put into the next slot. -/
theorem agrees_insert {a : Activity} (new : arena.slots[a.id]? = none) (id : String) (slot : ℕ) :
    (arena.slots.insert a.id arena.activities.length)[id]? = some slot ↔
      ∃ b, (arena.activities ++ [a])[slot]? = some b ∧ b.id = id := by
  -- The new slot is the only one that is added.
  have hslot : ∀ b, (arena.activities ++ [a])[slot]? = some b ↔
      arena.activities[slot]? = some b ∨ slot = arena.activities.length ∧ a = b := by
    intro b
    grind
  simp only [hslot, Std.HashMap.getElem?_insert]
  by_cases hid : a.id = id
  · subst hid
    have hnot : ¬ ∃ b, arena.activities[slot]? = some b ∧ b.id = a.id := by
      rw [← arena.agrees, new]
      nofun
    rw [beq_self_eq_true, if_pos rfl, Option.some.injEq]
    constructor
    · rintro rfl
      exact ⟨a, .inr ⟨rfl, rfl⟩, rfl⟩
    · rintro ⟨b, hb | ⟨hlast, -⟩, hid⟩
      · exact absurd ⟨b, hb, hid⟩ hnot
      · exact hlast.symm
  · have hne : (a.id == id) = false := by simpa using hid
    rw [hne, if_neg Bool.false_ne_true, arena.agrees]
    constructor
    · rintro ⟨b, hb, hbid⟩
      exact ⟨b, .inl hb, hbid⟩
    · rintro ⟨b, hb | ⟨-, rfl⟩, hbid⟩
      · exact ⟨b, hb, hbid⟩
      · exact absurd hbid hid

/-- The arena with one more definition, unless it has a fault. -/
def push (a : Activity) : Except Error Arena := do
  Document.checkRefs a.id .incoming a.incoming
  Document.checkRefs a.id .outgoing a.outgoing
  match new : arena.slots[a.id]? with
  | some _ => .error (.duplicateActivity a.id)
  | none => .ok {
      activities := arena.activities ++ [a]
      slots := arena.slots.insert a.id arena.activities.length
      agrees := arena.agrees_insert new }

/-- The definition in the slot of an id. -/
def find? (id : String) : Option Activity := arena.slots[id]?.bind (arena.activities[·]?)

/-- An id without a slot is that of no definition. -/
theorem slots_eq_none_iff {id : String} :
    arena.slots[id]? = none ↔ ∀ a ∈ arena.activities, a.id ≠ id := by
  rw [Option.eq_none_iff_forall_ne_some]
  simp only [ne_eq, arena.agrees]
  constructor
  · rintro h a ha rfl
    obtain ⟨slot, hslot⟩ := List.getElem?_of_mem ha
    exact h slot ⟨a, hslot, rfl⟩
  · rintro h slot ⟨a, hslot, hid⟩
    exact h a (List.mem_of_getElem? hslot) hid

/-- Putting a definition into an arena is accepting it: both are refused for the same fault. -/
theorem map_push (a : Activity) :
    (arena.push a).map (·.activities) = Document.accept arena.activities a := by
  unfold push Document.accept
  cases Document.checkRefs a.id .incoming a.incoming with
  | error err => rfl
  | ok u =>
    cases Document.checkRefs a.id .outgoing a.outgoing with
    | error err => rfl
    | ok v =>
      -- The table has the id when a definition has it.
      simp only [bind, Except.bind]
      split
      · next slot h =>
        obtain ⟨b, hslot, hid⟩ := (arena.agrees a.id slot).mp h
        have hany : arena.activities.any (·.id == a.id) = true :=
          List.any_eq_true.mpr ⟨b, List.mem_of_getElem? hslot, by simp [hid]⟩
        rw [hany, if_pos rfl]
        rfl
      · next new =>
        have hany : arena.activities.any (·.id == a.id) = false := by
          simpa using arena.slots_eq_none_iff.mp new
        rw [hany, if_neg Bool.false_ne_true]
        rfl

/-- A lookup in an arena is a search for the id. -/
theorem find?_eq (id : String) :
    arena.find? id = arena.activities.find? (·.id == id) := by
  unfold find?
  cases hslot : arena.slots[id]? with
  | none =>
    have hnone : arena.activities.find? (·.id == id) = none :=
      List.find?_eq_none.mpr fun a ha => by simpa using arena.slots_eq_none_iff.mp hslot a ha
    rw [hnone]
    rfl
  | some slot =>
    obtain ⟨a, ha, hid⟩ := (arena.agrees id slot).mp hslot
    rw [Option.bind_some, ha]
    cases hfind : arena.activities.find? (·.id == id) with
    | none => simpa [hid] using List.find?_eq_none.mp hfind a (List.mem_of_getElem? ha)
    | some b =>
      -- What the search finds is in the slot of the id, of which there is one.
      have hb : b.id = id := by simpa using List.find?_some hfind
      obtain ⟨slot', hslot'⟩ := List.getElem?_of_mem (List.mem_of_find?_eq_some hfind)
      have hsame := (arena.agrees id slot').mpr ⟨b, hslot', hb⟩
      rw [hslot] at hsame
      cases hsame
      exact ha.symm.trans hslot'

/-- Putting definitions into an arena one after another is accepting them. -/
theorem map_foldlM_push (as : List Activity) :
    (as.foldlM push arena).map (·.activities) = as.foldlM Document.accept arena.activities := by
  induction as generalizing arena with
  | nil => rfl
  | cons a as ih =>
    rw [List.foldlM_cons, List.foldlM_cons, ← map_push]
    cases arena.push a with
    | error err => rfl
    | ok more => exact ih more

end Arena

/-- The definitions of a process that compiles can be put into an arena, the start event first, and
what is looked up there is what a search finds. -/
theorem Document.exists_arena {p : Document} {g : Graph} (compiled : p.compile = .ok g) :
    ∃ arena : Arena, g.activities.foldlM Arena.push .empty = .ok arena ∧
      arena.activities = g.activities ∧ ∀ id, arena.find? id = g.activity? id := by
  obtain ⟨r, -, -, hlists, hnodup, rfl⟩ := compile_ok_iff.mp compiled
  have haccept : (p.graphOf r).activities.foldlM accept [] = .ok (p.graphOf r).activities :=
    (foldlM_accept_ok_iff (by simp)).mpr ⟨hlists, hnodup, rfl⟩
  have hpush := Arena.map_foldlM_push .empty (p.graphOf r).activities
  rw [show Arena.empty.activities = [] from rfl, haccept] at hpush
  cases harena : (p.graphOf r).activities.foldlM Arena.push .empty with
  | error err => rw [harena] at hpush; cases hpush
  | ok arena =>
    rw [harena] at hpush
    have hactivities : arena.activities = (p.graphOf r).activities := Except.ok.inj hpush
    refine ⟨arena, rfl, hactivities, fun id => ?_⟩
    rw [arena.find?_eq, hactivities, Graph.activity?]

end Workflow
