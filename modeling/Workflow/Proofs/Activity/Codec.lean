import Workflow.Proofs.Datum.Record
import Workflow.Proofs.Instant.Text

/-!
# Live activities are decoded as they were saved

The record of an activity is flat: its own fields, those of its lifecycle and those of its family
stand side by side, and so do the fields of a boundary event and of its lifecycle.  None of these
sets of fields has a name in common with another, so each reader finds the places of its own part
among all of them (`Lifecycle.ofEntries?_of_holds`, `Kind.ofEntries?_of_holds`).
-/

namespace Workflow

open Json (Faithful)

/-! ## Names and instants -/

/-- Statuses are told apart by their names. -/
theorem Status.faithful : Faithful 0 (fun s => .text s.name) (Datum.named? true all name) :=
  .named true fun s => by cases s <;> rfl

/-- Triggers are told apart by their names. -/
theorem Trigger.faithful (emptyMapping : Bool) :
    Faithful 0 (fun k => .text k.name) (Datum.named? emptyMapping all name) :=
  .named emptyMapping fun k => by cases k <;> rfl

/-- Kinds of tasks are told apart by their names. -/
theorem TaskKind.faithful : Faithful 0 (fun k => .text k.name) (Datum.named? true all name) :=
  .named true fun k => by cases k <;> rfl

/-- Kinds of gateways are told apart by their names. -/
theorem GatewayKind.faithful : Faithful 0 (fun k => .text k.name) (Datum.named? true all name) :=
  .named true fun k => by cases k <;> rfl

/-- Kinds of events are told apart by their names. -/
theorem EventKind.faithful : Faithful 0 (fun k => .text k.name) (Datum.named? true all name) :=
  .named true fun k => by cases k <;> rfl

/-- Families are told apart by their names. -/
theorem Category.faithful : Faithful 0 (fun c => .text c.name) ofDatum? where
  decodes := fun c => by cases c <;> rfl
  null := rfl
  plain := fun _ _ _ => rfl

/-- Instants are decoded as they were written. -/
theorem Instant.faithful : Faithful 0 Json.ofInstant Datum.instant? where
  decodes := by
    intro t
    simp only [Json.ofInstant, Datum.ofJson, Datum.instant?, Datum.text?, Option.bind_some,
      read?_render]
  null := rfl
  plain := fun _ _ _ => rfl

/-! ## Lifecycles -/

namespace Lifecycle

/-- The places of a lifecycle. -/
def places (l : Lifecycle) : List (String × Option Json) :=
  [("status", l.status.map fun s => .text s.name), ("entered_at", l.enteredAt.map Json.ofInstant),
    ("started_at", l.startedAt.map Json.ofInstant), ("paused_at", l.pausedAt.map Json.ofInstant),
    ("stopped_at", l.stoppedAt.map Json.ofInstant),
    ("finished_at", l.finishedAt.map Json.ofInstant),
    ("canceled_at", l.canceledAt.map Json.ofInstant)]

/-- The fields of a lifecycle are those of its places. -/
theorem toFields_eq (l : Lifecycle) : l.toFields = Fields.present l.places := by
  simp [toFields, places]

/-- A lifecycle is decoded among fields that hold its places. -/
theorem ofEntries?_of_holds {l : Lifecycle} {entries : List (String × Datum)}
    (h : Fields.Holds Datum.ofJson l.places entries) : ofEntries? entries = some l := by
  have hnames : l.places.map (·.1) = fieldNames := rfl
  obtain ⟨fields, hpick, hpicked⟩ := h.pick?_all hnames
  have hstatus : fields.optional "status" (Datum.named? true Status.all Status.name) =
      some l.status := hpicked.optional (by simp [places]) Status.faithful
  have hstamp : ∀ name o, (name, o.map Json.ofInstant) ∈ l.places →
      fields.optional name Datum.instant? = some o :=
    fun _ _ hp => hpicked.optional hp Instant.faithful
  simp only [ofEntries?, hpick, Option.bind_eq_bind, Option.bind_some, hstatus,
    hstamp "entered_at" l.enteredAt (by simp [places]),
    hstamp "started_at" l.startedAt (by simp [places]),
    hstamp "paused_at" l.pausedAt (by simp [places]),
    hstamp "stopped_at" l.stoppedAt (by simp [places]),
    hstamp "finished_at" l.finishedAt (by simp [places]),
    hstamp "canceled_at" l.canceledAt (by simp [places])]
  rfl

/-- The fields of a lifecycle are plain anywhere. -/
theorem plain_toFields (l : Lifecycle) (most : Nat) : Json.plainFields most l.toFields = true := by
  have hroom : 0 ≤ most := Nat.zero_le most
  simp [toFields, Status.faithful.plainFields hroom, Instant.faithful.plainFields hroom]

end Lifecycle

/-! ## Parts of activities -/

namespace Token

/-- The places of a token. -/
def places (t : Token) : List (String × Option Json) :=
  [("edgeId", some (.text t.edge)), ("isTaken", some (.bool t.taken))]

/-- Tokens are decoded as they were saved. -/
theorem faithful : Faithful 1 toJson ofDatum? where
  decodes := by
    intro t
    obtain ⟨fields, hfields, h⟩ :=
      Fields.holds_fields? t.places ["edgeId", "isTaken"] rfl (by decide)
    have hedge : fields.required "edgeId" Datum.text? = some t.edge :=
      h.required (by simp [places]) .text
    have htaken : fields.required "isTaken" Datum.bool? = some t.taken :=
      h.required (by simp [places]) .bool
    have hjson : t.toJson = .object (Fields.present t.places) := rfl
    rw [hjson, ofDatum?, hfields]
    simp [hedge, htaken]
  null := rfl
  plain := fun _ _ => Json.plain_object fun _ _ => rfl

/-- A list is no token. -/
theorem ofDatum?_list (ts : List Token) :
    ofDatum? (Datum.ofJson (.list (ts.map toJson))) = none :=
  Datum.decode_list (fun _ => rfl) (fun _ => rfl) ts

end Token

/-- The tokens of a side of a gateway are decoded in the spelling in which they were saved. -/
theorem Tokens.faithful :
    Faithful 2 (Json.ofOneOrMany Token.toJson) (Datum.oneOrMany? Token.ofDatum?) :=
  Token.faithful.oneOrMany Token.ofDatum?_list

namespace LaneTag

/-- The places of a lane tag. -/
def places (l : LaneTag) : List (String × Option Json) :=
  [("id", some (.text l.id)), ("name", l.name.map .text)]

/-- Lane tags are decoded as they were saved. -/
theorem faithful : Faithful 1 toJson ofDatum? where
  decodes := by
    intro l
    obtain ⟨fields, hfields, h⟩ :=
      Fields.holds_fields? l.places ["id", "name"] rfl (by decide)
    have hid : fields.required "id" Datum.text? = some l.id := h.required (by simp [places]) .text
    have hname : fields.optional "name" Datum.text? = some l.name :=
      h.optional (by simp [places]) .text
    have hjson : l.toJson = .object (Fields.present l.places) := by simp [toJson, places]
    rw [hjson, ofDatum?, hfields]
    simp [hid, hname]
  null := rfl
  plain := by
    refine fun l most => Json.plain_object fun most _ => ?_
    simp [Json.plainFields, Faithful.text.plainFields (Nat.zero_le most)]

end LaneTag

namespace BoundaryEvent

/-- The places of a boundary event without those of its lifecycle. -/
def places (b : BoundaryEvent) : List (String × Option Json) :=
  [("id", some (.text b.id)), ("attached_to_ref", some (.text b.attachedTo)),
    ("outgoing", some (.text b.outgoing)),
    ("intermediate_kind", b.trigger.map fun k => .text k.name)]

/-- The record of a boundary event has its own fields and those of its lifecycle. -/
theorem toJson_eq (b : BoundaryEvent) :
    b.toJson = .object (Fields.present (b.places ++ b.lifecycle.places)) := by
  simp [toJson, places, Lifecycle.toFields_eq]

/-- Boundary events are decoded as they were saved. -/
theorem faithful : Faithful 1 toJson ofDatum? where
  decodes := by
    intro b
    have hnames : (b.places ++ b.lifecycle.places).map (·.1) =
        fieldNames ++ Lifecycle.fieldNames := rfl
    have hown : b.places.map (·.1) = fieldNames := rfl
    have hall := Fields.holds_present Datum.ofJson
      (hnames ▸ (by decide : (fieldNames ++ Lifecycle.fieldNames).Nodup))
    have hlifecycle := Lifecycle.ofEntries?_of_holds (hall.subset (List.subset_append_right ..))
    obtain ⟨fields, hpick, h⟩ := (hall.subset (List.subset_append_left ..)).pick?_all hown
    have hid : fields.required "id" Datum.text? = some b.id := h.required (by simp [places]) .text
    have hattached : fields.required "attached_to_ref" Datum.text? = some b.attachedTo :=
      h.required (by simp [places]) .text
    have houtgoing : fields.required "outgoing" Datum.text? = some b.outgoing :=
      h.required (by simp [places]) .text
    have htrigger : fields.optional "intermediate_kind"
        (Datum.named? true Trigger.all Trigger.name) = some b.trigger :=
      h.optional (by simp [places]) (Trigger.faithful true)
    rw [toJson_eq, Datum.ofJson, ofDatum?, Fields.keyed?_ofJsonFields]
    simp only [Option.bind_eq_bind, Option.bind_some, hpick, hid, hattached, houtgoing, htrigger,
      hlifecycle]
    rfl
  null := rfl
  plain := by
    refine fun b most => Json.plain_object fun most _ => ?_
    have hroom : 0 ≤ most := Nat.zero_le most
    simp [Json.plainFields, (Trigger.faithful true).plainFields hroom,
      Lifecycle.plain_toFields]

end BoundaryEvent

/-! ## Families -/

namespace Kind

/-- The places of a family. -/
def places : Kind → List (String × Option Json)
  | task t =>
    [("category", some (.text "Task")), ("kind", some (.text t.kind.name)),
      ("boundary_event", t.boundary.map BoundaryEvent.toJson)]
  | gateway g =>
    [("category", some (.text "Gateway")), ("kind", some (.text g.kind.name)),
      ("io_incoming", g.incoming.map (Json.ofOneOrMany Token.toJson)),
      ("io_outgoing", g.outgoing.map (Json.ofOneOrMany Token.toJson))]
  | event e =>
    [("category", some (.text "Event")), ("kind", some (.text e.kind.name)),
      ("intermediate_kind", e.trigger.map fun k => .text k.name)]

/-- The fields of a family are those of its places. -/
theorem toFields_eq (k : Kind) : k.toFields = Fields.present k.places := by
  cases k <;> simp [toFields, places]

/-- A family is decoded among fields that hold its places. -/
theorem ofEntries?_of_holds {k : Kind} {entries : List (String × Datum)}
    (h : Fields.Holds Datum.ofJson k.places entries) : ofEntries? entries = some k := by
  obtain ⟨tag, htag, hcategory⟩ := h.pick? ["category"]
  have hfamily : tag.required "category" Category.ofDatum? = some k.category :=
    hcategory.required (by cases k <;> simp [places, category, Category.name]) Category.faithful
  simp only [ofEntries?, htag, Option.bind_eq_bind, Option.bind_some, hfamily]
  cases k with
  | task t =>
    obtain ⟨fields, hpick, hfields⟩ := h.pick? ["kind", "boundary_event"]
    have hkind : fields.required "kind" (Datum.named? true TaskKind.all TaskKind.name) =
        some t.kind := hfields.required (by simp [places]) TaskKind.faithful
    have hboundary : fields.optional "boundary_event" BoundaryEvent.ofDatum? = some t.boundary :=
      hfields.optional (by simp [places]) BoundaryEvent.faithful
    simp [category, hpick, hkind, hboundary]
  | gateway g =>
    obtain ⟨fields, hpick, hfields⟩ := h.pick? ["kind", "io_incoming", "io_outgoing"]
    have hkind : fields.required "kind" (Datum.named? true GatewayKind.all GatewayKind.name) =
        some g.kind := hfields.required (by simp [places]) GatewayKind.faithful
    have hincoming : fields.optional "io_incoming" (Datum.oneOrMany? Token.ofDatum?) =
        some g.incoming := hfields.optional (by simp [places]) Tokens.faithful
    have houtgoing : fields.optional "io_outgoing" (Datum.oneOrMany? Token.ofDatum?) =
        some g.outgoing := hfields.optional (by simp [places]) Tokens.faithful
    simp [category, hpick, hkind, hincoming, houtgoing]
  | event e =>
    obtain ⟨fields, hpick, hfields⟩ := h.pick? ["kind", "intermediate_kind"]
    have hkind : fields.required "kind" (Datum.named? true EventKind.all EventKind.name) =
        some e.kind := hfields.required (by simp [places]) EventKind.faithful
    have htrigger : fields.optional "intermediate_kind"
        (Datum.named? true Trigger.all Trigger.name) = some e.trigger :=
      hfields.optional (by simp [places]) (Trigger.faithful true)
    simp [category, hpick, hkind, htrigger]

/-- The fields of a family are plain where there is room for tokens. -/
theorem plain_toFields (k : Kind) {most : Nat} (hmost : 2 ≤ most) :
    Json.plainFields most k.toFields = true := by
  have hroom : 0 ≤ most := Nat.zero_le most
  have hevent : 1 ≤ most := by omega
  cases k with
  | task t =>
    simp [toFields, Json.plainFields, BoundaryEvent.faithful.plainFields hevent]
  | gateway g =>
    simp [toFields, Json.plainFields, Tokens.faithful.plainFields hmost]
  | event e =>
    simp [toFields, Json.plainFields, (Trigger.faithful true).plainFields hroom]

end Kind

/-! ## Activities -/

namespace Activity

/-- The places of an activity's own fields. -/
def ownPlaces (a : Activity) : List (String × Option Json) :=
  [("id", some (.text a.id)), ("name", a.name.map .text), ("incoming", a.incoming.map Json.ofRefs),
    ("outgoing", a.outgoing.map Json.ofRefs), ("lane", a.lane.map LaneTag.toJson)]

/-- The places of an activity: its own, those of its lifecycle and those of its family. -/
def places (a : Activity) : List (String × Option Json) :=
  a.ownPlaces ++ (a.lifecycle.places ++ a.kind.places)

/-- The record of an activity has the fields of its places. -/
theorem toJson_eq (a : Activity) : a.toJson = .object (Fields.present a.places) := by
  simp [toJson, places, ownPlaces, Lifecycle.toFields_eq, Kind.toFields_eq]

/-- No name is used twice in the record of an activity. -/
theorem names_nodup (a : Activity) : (a.places.map (·.1)).Nodup := by
  cases hk : a.kind <;> simp [places, ownPlaces, Lifecycle.places, Kind.places, hk]

/-- What an activity hands on are the fields of its lifecycle and its family. -/
theorem others_places (a : Activity) :
    a.places.filter (fun p => !fieldNames.contains p.1) = a.lifecycle.places ++ a.kind.places := by
  cases hk : a.kind <;>
    simp [places, ownPlaces, Lifecycle.places, Kind.places, fieldNames, hk]

/-- The fields of an activity are plain where there is room for tokens. -/
theorem plain_present_places (a : Activity) {most : Nat} (hmost : 2 ≤ most) :
    Json.plainFields most (Fields.present a.places) = true := by
  have hroom : 0 ≤ most := Nat.zero_le most
  have hlevel : 1 ≤ most := by omega
  simp [places, ownPlaces, ← Lifecycle.toFields_eq, ← Kind.toFields_eq, Json.plainFields,
    Lifecycle.plain_toFields, Kind.plain_toFields a.kind hmost,
    Faithful.text.plainFields hroom, Faithful.refs.plainFields hlevel,
    LaneTag.faithful.plainFields hlevel]

/-- What an activity hands on to its lifecycle and its family was written from plain values. -/
theorem others_fit (a : Activity) {levels : Nat} (hlevels : 2 ≤ levels) :
    (((Fields.present a.places).map fun f => (f.1, Datum.ofJson f.2)).filter
      fun (k, _) => !fieldNames.contains k).all (fun (_, v) => v.fits levels) = true := by
  refine List.all_eq_true.mpr fun e he => ?_
  obtain ⟨f, hf, rfl⟩ := List.mem_map.mp (List.mem_of_mem_filter he)
  exact Json.fits_ofJson (Nat.le_refl levels)
    (Json.plain_of_mem (a.plain_present_places hlevels) hf)

/-- Activities are decoded as they were saved, where there is room for their tokens. -/
theorem faithful {levels : Nat} (hlevels : 2 ≤ levels) : Faithful 3 toJson (ofDatum? levels) where
  decodes := by
    intro a
    have hall := Fields.holds_present Datum.ofJson a.names_nodup
    have hothers := hall.filter fun name => !fieldNames.contains name
    rw [others_places] at hothers
    have hlifecycle := Lifecycle.ofEntries?_of_holds
      (hothers.subset (List.subset_append_left ..))
    have hkind := Kind.ofEntries?_of_holds (hothers.subset (List.subset_append_right ..))
    obtain ⟨fields, hpick, h⟩ := hall.pick? fieldNames
    have hid : fields.required "id" Datum.text? = some a.id :=
      h.required (by simp [places, ownPlaces, fieldNames]) .text
    have hname : fields.optional "name" Datum.text? = some a.name :=
      h.optional (by simp [places, ownPlaces, fieldNames]) .text
    have hincoming : fields.optional "incoming" (held? levels Datum.refs?) = some a.incoming :=
      h.optional (by simp [places, ownPlaces, fieldNames]) (Faithful.refs.held (by omega))
    have houtgoing : fields.optional "outgoing" (held? levels Datum.refs?) = some a.outgoing :=
      h.optional (by simp [places, ownPlaces, fieldNames]) (Faithful.refs.held (by omega))
    have hlane : fields.optional "lane" LaneTag.ofDatum? = some a.lane :=
      h.optional (by simp [places, ownPlaces, fieldNames]) LaneTag.faithful
    have hkey : ∀ s, (Datum.text s).text? = some s := fun _ => rfl
    have hentries := Fields.mapM_ofJsonFields hkey (fun d => d) (Fields.present a.places)
    have hfits := a.others_fit hlevels
    rw [toJson_eq, Datum.ofJson, ofDatum?]
    simp only [hentries, hpick, hfits, Option.bind_eq_bind, Option.bind_some, if_true, hid, hname,
      hincoming, houtgoing, hlane, hlifecycle, hkind]
    rfl
  null := rfl
  plain := by
    intro a most hmost
    rw [toJson_eq]
    exact Json.plain_object (fun most hmost => a.plain_present_places hmost) hmost

end Activity

end Workflow
