import Workflow.Text.Quoted

/-!
# Handler tables

Handlers are registered by the name of the activities they serve, on one of two tiers.  A manual
handler runs only when its activity is run by name; an automatic one also runs unattended.  A name
that begins with an underscore registers on the automatic tier of the rest of the name.

A run prefers the manual tier.  Going forward unattended uses the automatic tier, and leaves an
activity alone that has a manual handler only.  The default policy serves where nothing is
registered.
-/

namespace Workflow

/-- The two tiers of registration. -/
inductive Tier where
  | manual
  | automatic
  deriving DecidableEq, Repr

variable {η : Type}

/-- The handlers of one name. -/
structure Registration (η : Type) where
  /-- The handler that runs only on demand. -/
  manual : Option η := none
  /-- The handler that also runs unattended. -/
  automatic : Option η := none
  deriving DecidableEq, Repr

/-- The handler of a tier. -/
def Registration.on (r : Registration η) : Tier → Option η
  | .manual => r.manual
  | .automatic => r.automatic

/-- The registration with the handler of a tier set. -/
def Registration.set (r : Registration η) (tier : Tier) (handler : η) : Registration η :=
  match tier with
  | .manual => { r with manual := some handler }
  | .automatic => { r with automatic := some handler }

/-- The handler to run: a registered one with its tier, or the default policy. -/
inductive Choice (η : Type) where
  | registered (tier : Tier) (handler : η)
  | default
  deriving DecidableEq, Repr

/-- Entries with the handler of a name and a tier set. -/
def setEntry (name : String) (tier : Tier) (handler : η) :
    List (String × Registration η) → List (String × Registration η)
  | [] => [(name, Registration.set {} tier handler)]
  | (n, r) :: rest =>
    if name = n then (n, r.set tier handler) :: rest
    else (n, r) :: setEntry name tier handler rest

/-- Setting a handler brings at most its name. -/
theorem names_setEntry {name n : String} {tier : Tier} {handler : η}
    {entries : List (String × Registration η)}
    (h : n ∈ (setEntry name tier handler entries).map (·.1)) :
    n = name ∨ n ∈ entries.map (·.1) := by
  induction entries with
  | nil => exact .inl (by simpa [setEntry] using h)
  | cons entry rest ih =>
    unfold setEntry at h
    split at h
    · exact .inr h
    · rcases List.mem_cons.mp h with rfl | h
      · exact .inr (List.mem_cons_self ..)
      · exact (ih h).imp_right (List.mem_cons_of_mem _)

/-- Setting a handler repeats no name. -/
theorem nodup_setEntry (name : String) (tier : Tier) (handler : η)
    {entries : List (String × Registration η)} (distinct : (entries.map (·.1)).Nodup) :
    ((setEntry name tier handler entries).map (·.1)).Nodup := by
  induction entries with
  | nil => simp [setEntry]
  | cons entry rest ih =>
    obtain ⟨hnot, hrest⟩ := List.nodup_cons.mp distinct
    unfold setEntry
    split
    · exact distinct
    · next hne =>
      refine List.nodup_cons.mpr ⟨fun h => ?_, ih hrest⟩
      rcases names_setEntry h with h | h
      · exact hne h.symm
      · exact hnot h

/-- Handlers by name; each name occurs once. -/
structure HandlerTable (η : Type) where
  /-- The names with their handlers, in the order of first registration. -/
  entries : List (String × Registration η) := []
  /-- No name occurs twice. -/
  distinct : (entries.map (·.1)).Nodup := by exact List.nodup_nil
  deriving DecidableEq, Repr

namespace HandlerTable

/-- The handlers of a name. -/
def find? (t : HandlerTable η) (name : String) : Option (Registration η) := t.entries.lookup name

/-- The table with a handler registered, in the place of an earlier one of that name and tier. -/
def register (t : HandlerTable η) (name : String) (tier : Tier) (handler : η) : HandlerTable η :=
  ⟨setEntry name tier handler t.entries, nodup_setEntry name tier handler t.distinct⟩

/-- The name and tier that a conventional handler name stands for. -/
def address (handlerName : String) : String × Tier :=
  match handlerName.toList with
  | '_' :: c :: cs => (String.ofList (c :: cs), .automatic)
  | _ => (handlerName, .manual)

/-- The table with a handler registered under a conventional name. -/
def registerNamed (t : HandlerTable η) (handlerName : String) (handler : η) : HandlerTable η :=
  t.register (address handlerName).1 (address handlerName).2 handler

/-- The manual handler of a name. -/
def manual? (t : HandlerTable η) (name : String) : Option η := (t.find? name).bind (·.manual)

/-- The automatic handler of a name. -/
def automatic? (t : HandlerTable η) (name : String) : Option η := (t.find? name).bind (·.automatic)

/-- The handler that runs an activity unattended; absent when it waits for a run by name. -/
def forForward (t : HandlerTable η) (name : Option String) : Option (Choice η) :=
  match name.bind t.find? with
  | none => some .default
  | some r =>
    match r.automatic, r.manual with
    | some h, _ => some (.registered .automatic h)
    | none, some _ => none
    | none, none => some .default

/-- The handler for a run by name. -/
def forRun (t : HandlerTable η) (name : String) : Choice η :=
  match t.manual? name, t.automatic? name with
  | some h, _ => .registered .manual h
  | none, some h => .registered .automatic h
  | none, none => .default

/-- The names with a handler, in ascending order, as they are shown to a person. -/
def describe (t : HandlerTable η) : String :=
  let names := (t.entries.map (·.1)).mergeSort fun a b => decide (a ≤ b)
  "Callable \x7b handlers: [" ++ String.intercalate ", " (names.map Text.quoted) ++ "] \x7d"

end HandlerTable

end Workflow
