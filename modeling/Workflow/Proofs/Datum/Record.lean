import Mathlib.Data.List.Nodup
import Workflow.Activity.Codec
import Workflow.Proofs.Json.Reader

/-!
# Records are read as they were written

A record is written as the fields that have a value, in order.  To say what a reader finds there,
the record is taken as a list of *places*: each declared field with its value, if it has one
(`Fields.present`).  Fields hold some places when no field occurs twice and looking a field up gives
the value at its place (`Fields.Holds`).  What is written holds its places, and every way in which
readers narrow fields down keeps this: picking the declared ones, and leaving out those of someone
else.

A type has a faithful encoding when what is encoded decodes to the same value, null decodes to
nothing, and the values written are plain (`Json.Faithful`).  The second part is what tells an
absent field from one that is there, and the third is what readers ask who hold on to a value
before it is decoded.  Encodings of parts make up encodings of lists and of one or many.  For the
latter a list must never be taken for one value, and a record is not taken for a list, because the
first of its declared fields is a text (`Datum.decode_list`).
-/

namespace Workflow

/-! ## Faithful encodings -/

/-- Whether values are decoded as they were encoded, in any place with room for `levels` levels. -/
structure Json.Faithful {α : Type} (levels : Nat) (encode : α → Json)
    (decode : Datum → Option α) : Prop where
  /-- What is encoded decodes to the same value. -/
  decodes : ∀ a, decode (Datum.ofJson (encode a)) = some a
  /-- Null stands for no value. -/
  null : decode .null = none
  /-- What is encoded is plain where there is room for it. -/
  plain : ∀ a most, levels ≤ most → (encode a).plain most = true

namespace Json.Faithful

variable {α : Type} {levels : Nat} {encode : α → Json} {decode : Datum → Option α}

/-- A value is not encoded as null. -/
theorem ne_null (hf : Faithful levels encode decode) (a : α) :
    Datum.ofJson (encode a) ≠ .null := by
  intro h
  have hdecodes := hf.decodes a
  rw [h, hf.null] at hdecodes
  cases hdecodes

/-- A value that may be absent. -/
theorem optional? (hf : Faithful levels encode decode) (a : α) :
    Datum.optional? decode (Datum.ofJson (encode a)) = some (some a) := by
  have hnull := hf.ne_null a
  have hdecodes := hf.decodes a
  unfold Datum.optional?
  split
  · next heq => exact absurd heq hnull
  · rw [hdecodes]
    rfl

/-- What is written as text, on one line or over several, is read as the value it was written
from. -/
theorem roundTrip (hf : Faithful levels encode decode) (a : α) :
    (Json.read? (encode a).render).bind decode = some a ∧
      (Json.read? (encode a).renderPretty).bind decode = some a := by
  have hplain := hf.plain a levels (Nat.le_refl levels)
  constructor
  · rw [read?_render hplain]
    exact hf.decodes a
  · rw [read?_renderPretty hplain]
    exact hf.decodes a

/-- Texts. -/
theorem text : Faithful 0 Json.text Datum.text? := ⟨fun _ => rfl, rfl, fun _ _ _ => rfl⟩

/-- Truth values. -/
theorem bool : Faithful 0 Json.bool Datum.bool? := ⟨fun _ => rfl, rfl, fun _ _ _ => rfl⟩

/-- Named values, if the names tell them apart. -/
theorem named (emptyMapping : Bool) {all : List α} {name : α → String}
    (find : ∀ a, all.find? (name · == name a) = some a) :
    Faithful 0 (fun a => .text (name a)) (Datum.named? emptyMapping all name) :=
  ⟨find, rfl, fun _ _ _ => rfl⟩

/-- The elements of a list, one by one. -/
theorem mapM_decode (hf : Faithful levels encode decode) (as : List α) :
    (Datum.ofJsonList (as.map encode)).mapM decode = some as := by
  induction as with
  | nil => rfl
  | cons a as ih => simp [Datum.ofJsonList, hf.decodes, ih]

/-- The elements of a list are plain. -/
theorem plainList (hf : Faithful levels encode decode) {most : Nat} (hmost : levels ≤ most)
    (as : List α) : Json.plainList most (as.map encode) = true := by
  induction as with
  | nil => rfl
  | cons a as ih => simp [Json.plainList, hf.plain a most hmost, ih]

/-- Lists. -/
theorem list (hf : Faithful levels encode decode) :
    Faithful (levels + 1) (fun as => .list (as.map encode)) (Datum.list? decode) where
  decodes := hf.mapM_decode
  null := rfl
  plain := by
    intro as most hmost
    have hinner : levels ≤ most - 1 := by omega
    have hitems := hf.plainList hinner as
    have hroom : 0 < most := by omega
    simp [Json.plain, hroom, hitems]

end Json.Faithful

/-! ## Fields -/

namespace Fields

variable {α β : Type} {read : Json → α} {places : List (String × Option Json)}
  {entries : List (String × α)} {fields : Fields α}

/-- The fields of the places that have a value. -/
def present (places : List (String × Option Json)) : List (String × Json) :=
  places.flatMap fun p => Json.optional p.1 id p.2

@[simp] theorem present_nil : present [] = [] := rfl

@[simp]
theorem present_cons (p : String × Option Json) (places : List (String × Option Json)) :
    present (p :: places) = Json.optional p.1 id p.2 ++ present places := rfl

@[simp]
theorem present_append (places places' : List (String × Option Json)) :
    present (places ++ places') = present places ++ present places' :=
  List.flatMap_append

@[simp]
theorem optional_id_some (name : String) (j : Json) :
    Json.optional name id (some j) = [(name, j)] := rfl

@[simp]
theorem optional_id_map (name : String) (encode : β → Json) (o : Option β) :
    Json.optional name id (o.map encode) = Json.optional name encode o := by
  cases o <;> rfl

/-- A field is written for each place that has a value. -/
theorem mem_present {name : String} {j : Json} :
    (name, j) ∈ present places ↔ (name, some j) ∈ places := by
  constructor
  · intro h
    obtain ⟨⟨name', o⟩, hp, hmem⟩ := List.mem_flatMap.mp h
    cases o with
    | none => cases hmem
    | some j' =>
      obtain ⟨rfl, rfl⟩ : name = name' ∧ j = j' := by simpa using hmem
      exact hp
  · intro h
    exact List.mem_flatMap.mpr ⟨_, h, by simp⟩

/-- The written fields are named in the order of the places. -/
theorem names_present (places : List (String × Option Json)) :
    ((present places).map (·.1)).Sublist (places.map (·.1)) := by
  induction places with
  | nil => exact .slnil
  | cons p places ih =>
    cases hp : p.2 with
    | none => simpa [hp, Json.optional] using ih.cons p.1
    | some j => simpa [hp, Json.optional] using ih.cons_cons p.1

/-- Looking up a field gives its value. -/
theorem find?_eq_some_iff {name : String} {v : α} :
    fields.find? name = some v ↔ (name, v) ∈ fields.entries := by
  obtain ⟨entries, unique⟩ := fields
  unfold find?
  rw [List.lookup_eq_some_iff]
  constructor
  · rintro ⟨before, after, rfl, -⟩
    simp
  · intro h
    obtain ⟨before, after, rfl⟩ := List.append_of_mem h
    refine ⟨before, after, rfl, fun f hf => ?_⟩
    rw [List.map_append, List.map_cons] at unique
    have hnot := (List.nodup_append.mp unique).2.2 f.1 (List.mem_map_of_mem hf) name (by simp)
    simpa using fun heq : name = f.1 => hnot heq.symm

/-- A declared field that was picked is the first entry of its name. -/
theorem find?_of_pick? {names : List String} (h : pick? names entries = some fields)
    {name : String} (declared : name ∈ names) : fields.find? name = entries.lookup name := by
  induction entries generalizing fields with
  | nil =>
    cases h
    rfl
  | cons e entries ih =>
    obtain ⟨k, v⟩ := e
    obtain ⟨later, hlater, h⟩ := Option.bind_eq_some_iff.mp h
    have hfound := ih hlater
    split at h
    · -- The entry is not declared, so it is not the one that is looked for.
      next hother =>
      cases h
      have hne : (name == k) = false := by
        rw [beq_eq_false_iff_ne]
        rintro rfl
        simp [declared] at hother
      rw [hfound, List.lookup_cons, hne]
    · split at h
      · cases h
      · cases h
        unfold find? at hfound ⊢
        rw [List.lookup_cons, List.lookup_cons, hfound]

/-- Whether no name occurs twice among some entries, and those of some places have the values that
are read there. -/
structure Holds (read : Json → α) (places : List (String × Option Json))
    (entries : List (String × α)) : Prop where
  /-- No name occurs twice. -/
  unique : (entries.map (·.1)).Nodup
  /-- An entry for a place is there just with the value that is read at the place. -/
  value : ∀ p ∈ places, ∀ v, (p.1, v) ∈ entries ↔ p.2.map read = some v

/-- What is written holds its places, in whatever way the values are read. -/
theorem holds_present (read : Json → α) (unique : (places.map (·.1)).Nodup) :
    Holds read places ((present places).map fun f => (f.1, read f.2)) where
  unique := by
    simpa [Function.comp_def] using unique.sublist (names_present places)
  value := by
    rintro ⟨name, o⟩ hp v
    -- There is no other place of that name.
    have honly : ∀ j, (name, some j) ∈ places ↔ o = some j := by
      intro j
      constructor
      · intro hj
        exact (Prod.mk.inj (List.inj_on_of_nodup_map unique hp hj rfl)).2
      · rintro rfl
        exact hp
    calc (name, v) ∈ (present places).map (fun f => (f.1, read f.2))
        ↔ ∃ j, (name, some j) ∈ places ∧ read j = v := by simp [mem_present]
      _ ↔ o.map read = some v := by simp [honly]

/-- Some of the places are held too. -/
theorem Holds.subset (h : Holds read places entries) {part : List (String × Option Json)}
    (hpart : part ⊆ places) : Holds read part entries :=
  ⟨h.unique, fun p hp => h.value p (hpart hp)⟩

/-- Leaving out entries by their names leaves out their places. -/
theorem Holds.filter (h : Holds read places entries) (keep : String → Bool) :
    Holds read (places.filter fun p => keep p.1) (entries.filter fun e => keep e.1) where
  unique := h.unique.sublist (List.filter_sublist.map _)
  value := by
    intro p hp v
    obtain ⟨hplace, hkeep⟩ := List.mem_filter.mp hp
    rw [List.mem_filter, h.value p hplace v, hkeep]
    simp

/-- The declared fields are picked if none of them occurs twice. -/
theorem exists_pick?_filter (names : List String) (unique : (entries.map (·.1)).Nodup) :
    ∃ picked, pick? names entries = some picked ∧
      picked.entries = entries.filter fun e => names.contains e.1 := by
  induction entries with
  | nil => exact ⟨_, rfl, rfl⟩
  | cons e entries ih =>
    obtain ⟨hnot, htail⟩ := List.nodup_cons.mp unique
    obtain ⟨picked, hpick, hentries⟩ := ih htail
    have hfresh : e.1 ∉ picked.entries.map (·.1) := by
      rw [hentries]
      exact fun h => hnot ((List.filter_sublist.map _).subset h)
    by_cases hname : e.1 ∈ names
    · refine ⟨⟨e :: picked.entries, List.nodup_cons.mpr ⟨hfresh, picked.unique⟩⟩, ?_, ?_⟩
      · simp [pick?, hpick, hname, hfresh]
      · simp [hname, hentries]
    · exact ⟨picked, by simp [pick?, hpick, hname], by simp [hname, hentries]⟩

/-- Picking the declared fields keeps their places. -/
theorem Holds.pick? (h : Holds read places entries) (names : List String) :
    ∃ picked, Fields.pick? names entries = some picked ∧
      Holds read (places.filter fun p => names.contains p.1) picked.entries := by
  obtain ⟨picked, hpick, hentries⟩ := exists_pick?_filter names h.unique
  exact ⟨picked, hpick, hentries ▸ h.filter names.contains⟩

/-- Picking just the fields of the places keeps them all. -/
theorem Holds.pick?_all (h : Holds read places entries) {names : List String}
    (hnames : places.map (·.1) = names) :
    ∃ picked, Fields.pick? names entries = some picked ∧
      Holds read places picked.entries := by
  have hdeclared : places.filter (fun p => names.contains p.1) = places := by
    rw [List.filter_eq_self, ← hnames]
    intro p hp
    simpa using ⟨p.2, hp⟩
  obtain ⟨picked, hpick, hpicked⟩ := h.pick? names
  rw [hdeclared] at hpicked
  exact ⟨picked, hpick, hpicked⟩

/-- Looking up the field of a place. -/
theorem Holds.find? (h : Holds read places fields.entries) {name : String} {o : Option Json}
    (hp : (name, o) ∈ places) : fields.find? name = o.map read := by
  refine Option.ext fun v => ?_
  rw [find?_eq_some_iff, h.value _ hp v]

/-- A field that has to be there is decoded from what is read at its place. -/
theorem Holds.required_of_read (h : Holds read places fields.entries) {name : String} {j : Json}
    (hp : (name, some j) ∈ places) {b : β} {decode : α → Option β}
    (hread : decode (read j) = some b) : fields.required name decode = some b := by
  unfold Fields.required
  rw [h.find? hp]
  exact hread

/-- A field that has to be there is decoded. -/
theorem Holds.required {fields : Fields Datum} (h : Holds Datum.ofJson places fields.entries)
    {name : String} {b : β} {encode : β → Json} (hp : (name, some (encode b)) ∈ places)
    {levels : Nat} {decode : Datum → Option β} (hf : Json.Faithful levels encode decode) :
    fields.required name decode = some b :=
  h.required_of_read hp (hf.decodes b)

/-- A field that may be missing is decoded. -/
theorem Holds.orElse (h : Holds read places fields.entries) {name : String} {o : Option Json}
    (hp : (name, o) ∈ places) {default b : β} {decode : α → Option β}
    (hnone : o = none → default = b) (hsome : ∀ j, o = some j → decode (read j) = some b) :
    fields.orElse name default decode = some b := by
  unfold Fields.orElse
  rw [h.find? hp]
  cases o with
  | none => exact congrArg some (hnone rfl)
  | some j => exact hsome j rfl

/-- A field that may be missing but is there is decoded from what is read at its place. -/
theorem Holds.orElse_of_read (h : Holds read places fields.entries) {name : String} {j : Json}
    (hp : (name, some j) ∈ places) {default b : β} {decode : α → Option β}
    (hread : decode (read j) = some b) : fields.orElse name default decode = some b := by
  unfold Fields.orElse
  rw [h.find? hp]
  exact hread

/-- A field that may be missing or absent is decoded. -/
theorem Holds.optional {fields : Fields Datum} (h : Holds Datum.ofJson places fields.entries)
    {name : String} {o : Option β} {encode : β → Json} (hp : (name, o.map encode) ∈ places)
    {levels : Nat} {decode : Datum → Option β} (hf : Json.Faithful levels encode decode) :
    fields.optional name decode = some o := by
  refine h.orElse hp (fun hnone => ?_) fun j hsome => ?_
  · exact (Option.map_eq_none_iff.mp hnone).symm
  · obtain ⟨b, rfl, rfl⟩ := Option.map_eq_some_iff.mp hsome
    exact hf.optional? b

/-- The entries of an object, if its keys are taken for what they say. -/
theorem mapM_ofJsonFields {key : Datum → Option String} (hkey : ∀ s, key (.text s) = some s)
    (read : Datum → α) (fields : List (String × Json)) :
    (Datum.ofJsonFields fields).mapM (fun (k, v) => (key k).map (·, read v)) =
      some (fields.map fun f => (f.1, read (Datum.ofJson f.2))) := by
  induction fields with
  | nil => rfl
  | cons f fields ih => simp [Datum.ofJsonFields, hkey, ih]

/-- The entries of an object, by the fields that their keys stand for. -/
theorem keyed?_ofJsonFields (names : List String) (fields : List (String × Json)) :
    Datum.keyed? names (Datum.ofJsonFields fields) =
      some (fields.map fun f => (f.1, Datum.ofJson f.2)) :=
  mapM_ofJsonFields (fun _ => rfl) id fields

/-- The declared fields of an object of some places. -/
theorem holds_fields? (places : List (String × Option Json)) (names : List String)
    (hnames : places.map (·.1) = names) (unique : names.Nodup) :
    ∃ fields, (Datum.ofJson (.object (present places))).fields? names = some fields ∧
      Holds Datum.ofJson places fields.entries := by
  obtain ⟨picked, hpick, hpicked⟩ :=
    (holds_present Datum.ofJson (hnames ▸ unique)).pick?_all hnames
  refine ⟨picked, ?_, hpicked⟩
  rw [Datum.ofJson, Datum.fields?, keyed?_ofJsonFields]
  exact hpick

end Fields

/-! ## Plain records -/

namespace Json

variable {α : Type} {levels most : Nat}

/-- Fields are plain together. -/
@[simp]
theorem plainFields_append (fields fields' : List (String × Json)) :
    plainFields most (fields ++ fields') =
      (plainFields most fields && plainFields most fields') := by
  induction fields with
  | nil => rfl
  | cons f fields ih => simp [plainFields, ih, Bool.and_assoc]

/-- A field that is left out when absent is plain if its value is. -/
theorem Faithful.plainFields {encode : α → Json} {decode : Datum → Option α}
    (hf : Faithful levels encode decode) (hmost : levels ≤ most) (name : String)
    (o : Option α) : plainFields most (optional name encode o) = true := by
  cases o with
  | none => rfl
  | some a => simp [optional, Json.plainFields, hf.plain a most hmost]

/-- An object is plain where there is room for it and its fields. -/
theorem plain_object {fields : List (String × Json)}
    (h : ∀ most, levels ≤ most → plainFields most fields = true) (hmost : levels + 1 ≤ most) :
    (object fields).plain most = true := by
  have hfields := h (most - 1) (by omega)
  have hroom : 0 < most := by omega
  simp [plain, hroom, hfields]

/-- The value of a plain field is plain. -/
theorem plain_of_mem {fields : List (String × Json)} (h : plainFields most fields = true)
    {f : String × Json} (hf : f ∈ fields) : f.2.plain most = true := by
  induction fields with
  | nil => cases hf
  | cons f' fields ih =>
    simp only [plainFields, Bool.and_eq_true] at h
    rcases List.mem_cons.mp hf with rfl | hf
    · exact h.1
    · exact ih h.2 hf

end Json

/-! ## One or many -/

/-- A list is not decoded where the first declared field has to be a text, unless its first element
is one. -/
theorem Datum.decode_list {α : Type} {encode : α → Json} {decode : Datum → Option α}
    {name : String} {names : List String} {rest : Fields Datum → String → Option α}
    (hdecode : ∀ d, decode d = (d.fields? (name :: names)).bind fun fields =>
      (fields.required name text?).bind (rest fields))
    (hnot : ∀ a, (ofJson (encode a)).text? = none) (as : List α) :
    decode (ofJson (.list (as.map encode))) = none := by
  rw [hdecode]
  cases h : (ofJson (.list (as.map encode))).fields? (name :: names) with
  | none => rfl
  | some fields =>
    have hrequired : fields.required name text? = none := by
      obtain ⟨-, hpick⟩ : _ ∧ Fields.pick? (name :: names)
          ((name :: names).zip (ofJsonList (as.map encode))) = some fields := by
        simpa [ofJson, Datum.fields?, Fields.ofList?] using h
      unfold Fields.required
      rw [Fields.find?_of_pick? hpick (List.mem_cons_self ..)]
      cases as with
      | nil => rfl
      | cons a as => simp [ofJsonList, hnot]
    rw [Option.bind_some, hrequired]
    rfl

namespace Json.Faithful

variable {α : Type} {levels : Nat} {encode : α → Json} {decode : Datum → Option α}

/-- Values given bare or as a list, if a list is never taken for one of them. -/
theorem oneOrMany (hf : Faithful levels encode decode)
    (hlist : ∀ as : List α, decode (Datum.ofJson (.list (as.map encode))) = none) :
    Faithful (levels + 1) (Json.ofOneOrMany encode) (Datum.oneOrMany? decode) where
  decodes := by
    intro xs
    cases xs with
    | one a =>
      have hdecodes := hf.decodes a
      simp [Json.ofOneOrMany, Datum.oneOrMany?, hdecodes]
    | many as =>
      have hnone := hlist as
      have hdecodes := hf.list.decodes as
      simp [Json.ofOneOrMany, Datum.oneOrMany?, hnone, hdecodes]
  null := by simp [Datum.oneOrMany?, hf.null, Datum.list?]
  plain := by
    intro xs most hmost
    cases xs with
    | one a => exact hf.plain a most (by omega)
    | many as => exact hf.list.plain as most hmost

/-- Values that are held on to before they are decoded. -/
theorem held (hf : Faithful levels encode decode) {most : Nat} (hmost : levels ≤ most) :
    Faithful levels encode (Activity.held? most decode) where
  decodes := by
    intro a
    have hfits := fits_ofJson (Nat.le_refl most) (hf.plain a most hmost)
    have hdecodes := hf.decodes a
    simp [Activity.held?, hfits, hdecodes]
  null := by simp [Activity.held?, Datum.fits, hf.null]
  plain := hf.plain

/-- References to edges. -/
theorem refs : Faithful 1 Json.ofRefs Datum.refs? := text.oneOrMany fun _ => rfl

end Json.Faithful

end Workflow
