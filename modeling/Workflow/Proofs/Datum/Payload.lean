import Workflow.Json.Reader

/-!
# Payloads that were read

The entries of a mapping become the fields of an object one by one, each set among those before it.
Setting a field changes what is found under its key and nothing else (`Json.field?_setField`), and
it keeps the keys in ascending order.  So under each key of an object that was read is the last
value that the mapping has for it (`Datum.field?_toPayload?`), and at every depth of a payload the
keys ascend and none occurs twice (`Json.ordered_readPayload?`).
-/

namespace Workflow

namespace Json

variable {key k : String} {value : Json} {fields : List (String × Json)}

/-- Whether the keys of fields are in ascending order, none of them twice. -/
def Ascending (fields : List (String × Json)) : Prop := (fields.map (·.1)).Pairwise (· < ·)

/-- Setting a field changes what is found under its key and nothing else. -/
theorem field?_setField (key k : String) (value : Json) (fields : List (String × Json)) :
    (object (setField key value fields)).field? k =
      if key = k then some value else (object fields).field? k := by
  induction fields with
  | nil => by_cases h : key = k <;> simp [setField, field?, h]
  | cons field rest ih =>
    obtain ⟨first, v⟩ := field
    have hcons : ∀ (first : String) (v : Json) (rest : List (String × Json)),
        (object ((first, v) :: rest)).field? k =
          if first = k then some v else (object rest).field? k := by
      intro first v rest
      by_cases h : first = k <;> simp [field?, h]
    unfold setField
    split
    · rw [hcons]
    · split
      · next heq =>
        subst heq
        rw [hcons, hcons]
        by_cases h : key = k <;> simp [h]
      · next hne =>
        rw [hcons, hcons, ih]
        by_cases h : first = k
        · have hother : key ≠ k := fun hk => hne (hk.trans h.symm)
          simp [h, hother]
        · simp [h]

/-- A key is among those of fields with one more set when it is that key or was among them. -/
theorem mem_keys_setField :
    k ∈ (setField key value fields).map (·.1) ↔ k = key ∨ k ∈ fields.map (·.1) := by
  induction fields with
  | nil => simp [setField]
  | cons field rest ih =>
    obtain ⟨first, v⟩ := field
    unfold setField
    split
    · simp
    · split
      · next heq => simp [heq]
      · simp only [List.map_cons, List.mem_cons, ih]
        exact or_left_comm

/-- Setting a field keeps the keys ascending. -/
theorem ascending_setField (h : Ascending fields) : Ascending (setField key value fields) := by
  induction fields with
  | nil => simp [setField, Ascending]
  | cons field rest ih =>
    obtain ⟨first, v⟩ := field
    obtain ⟨hfirst, hrest⟩ := List.pairwise_cons.mp h
    unfold setField
    split
    · next hlt =>
      refine List.pairwise_cons.mpr ⟨fun k hk => ?_, h⟩
      rcases List.mem_cons.mp hk with rfl | hk
      · exact hlt
      · exact String.lt_trans hlt (hfirst k hk)
    · next hnlt =>
      split
      · exact List.pairwise_cons.mpr ⟨hfirst, hrest⟩
      · next hne =>
        -- The key belongs behind the first one, as do all the others.
        have hgt : first < key := by grind
        refine List.pairwise_cons.mpr ⟨fun k hk => ?_, ih hrest⟩
        rcases mem_keys_setField.mp hk with rfl | hk
        · exact hgt
        · exact hfirst k hk

mutual

/-- Whether the keys of every object ascend, at every depth. -/
def Ordered : Json → Prop
  | null | bool _ | number _ | text _ => True
  | list items => OrderedItems items
  | object fields => Ascending fields ∧ OrderedFields fields

/-- Whether every element is ordered. -/
def OrderedItems : List Json → Prop
  | [] => True
  | j :: js => Ordered j ∧ OrderedItems js

/-- Whether every value is ordered. -/
def OrderedFields : List (String × Json) → Prop
  | [] => True
  | (_, j) :: rest => Ordered j ∧ OrderedFields rest

end

/-- Values are ordered after one that is ordered has been set. -/
theorem orderedFields_setField (hvalue : value.Ordered) (h : OrderedFields fields) :
    OrderedFields (setField key value fields) := by
  induction fields with
  | nil => exact ⟨hvalue, trivial⟩
  | cons field rest ih =>
    obtain ⟨hfirst, hrest⟩ := h
    unfold setField
    split
    · exact ⟨hvalue, hfirst, hrest⟩
    · split
      · exact ⟨hvalue, hrest⟩
      · exact ⟨hfirst, ih hrest⟩

end Json

namespace Datum

/-- The last value that entries have for a key. -/
def lastValue? (key : String) (entries : List (Datum × Datum)) : Option Datum :=
  (entries.reverse.find? (·.1.text? == some key)).map (·.2)

mutual

/-- The keys of every object in a payload ascend. -/
theorem ordered_toPayload? : ∀ {d : Datum} {j : Json}, d.toPayload? = some j → j.Ordered
  | null, _, h | bool _, _, h | number _, _, h | text _, _, h => by
    cases h
    exact trivial
  | list items, j, h => by
    unfold toPayload? at h
    obtain ⟨js, hjs, rfl⟩ := Option.map_eq_some_iff.mp h
    exact orderedItems_toPayloadList? hjs
  | mapping entries, j, h => by
    unfold toPayload? at h
    obtain ⟨fields, hfields, rfl⟩ := Option.map_eq_some_iff.mp h
    exact orderedFields_toPayloadFields? hfields .nil trivial

/-- So do those in the elements of a list. -/
theorem orderedItems_toPayloadList? : ∀ {items : List Datum} {js : List Json},
    toPayloadList? items = some js → Json.OrderedItems js
  | [], _, h => by
    cases h
    exact trivial
  | d :: ds, _, h => by
    unfold toPayloadList? at h
    obtain ⟨j, hj, h⟩ := Option.bind_eq_some_iff.mp h
    obtain ⟨js, hjs, h⟩ := Option.bind_eq_some_iff.mp h
    cases h
    exact ⟨ordered_toPayload? hj, orderedItems_toPayloadList? hjs⟩

/-- So do those of an object that entries are set in, and in its values. -/
theorem orderedFields_toPayloadFields? : ∀ {entries : List (Datum × Datum)}
    {fields res : List (String × Json)}, toPayloadFields? entries fields = some res →
    Json.Ascending fields → Json.OrderedFields fields → Json.Ascending res ∧ Json.OrderedFields res
  | [], _, _, h, hkeys, hvalues => by
    cases h
    exact ⟨hkeys, hvalues⟩
  | (k, d) :: rest, fields, res, h, hkeys, hvalues => by
    unfold toPayloadFields? at h
    obtain ⟨key, -, h⟩ := Option.bind_eq_some_iff.mp h
    obtain ⟨value, hvalue, h⟩ := Option.bind_eq_some_iff.mp h
    exact orderedFields_toPayloadFields? h (Json.ascending_setField hkeys)
      (Json.orderedFields_setField (ordered_toPayload? hvalue) hvalues)

end

/-- Under a key of the fields that entries are set in is the last value of the entries for it, or
what was there before. -/
theorem field?_toPayloadFields? {entries : List (Datum × Datum)} {fields res : List (String × Json)}
    (h : toPayloadFields? entries fields = some res) (key : String) :
    (Json.object res).field? key =
      (lastValue? key entries).elim ((Json.object fields).field? key) toPayload? := by
  induction entries generalizing fields with
  | nil =>
    cases h
    rfl
  | cons entry rest ih =>
    obtain ⟨k, d⟩ := entry
    unfold toPayloadFields? at h
    obtain ⟨first, hfirst, h⟩ := Option.bind_eq_some_iff.mp h
    obtain ⟨value, hvalue, h⟩ := Option.bind_eq_some_iff.mp h
    rw [ih h, Json.field?_setField]
    -- An entry counts for its key where no later one has it.
    have hlast : lastValue? key ((k, d) :: rest) =
        (lastValue? key rest).or (if first = key then some d else none) := by
      unfold lastValue?
      rw [List.reverse_cons, List.find?_append, Option.map_or]
      by_cases h : first = key <;> simp [hfirst, h]
    rw [hlast]
    cases lastValue? key rest with
    | some later => rfl
    | none => by_cases h : first = key <;> simp [hvalue, h]

/-- Under each key of an object that was read is the last value that the mapping has for it. -/
theorem field?_toPayload? {entries : List (Datum × Datum)} {j : Json}
    (h : (mapping entries).toPayload? = some j) (key : String) :
    j.field? key = (lastValue? key entries).bind toPayload? := by
  unfold toPayload? at h
  obtain ⟨fields, hfields, rfl⟩ := Option.map_eq_some_iff.mp h
  rw [field?_toPayloadFields? hfields]
  cases lastValue? key entries with
  | none => rfl
  | some d => rfl

end Datum

/-- The keys of every object in a payload that was read from a text ascend, and none occurs twice in
an object. -/
theorem Json.ordered_readPayload? {s : String} {j : Json} (h : readPayload? s = some j) :
    j.Ordered := by
  unfold readPayload? at h
  obtain ⟨d, -, h⟩ := Option.bind_eq_some_iff.mp h
  split at h
  · exact Datum.ordered_toPayload? h
  · cases h

end Workflow
