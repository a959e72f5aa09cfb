import Workflow.Load
import Workflow.Proofs.Activity.Codec

/-!
# Process documents are read as they were written

A collection of a document is written in the spelling it has, bare or as a list, and the reader asks
first whether it can be taken for a bare record.  It never can when it is a list, whatever records
are in it and however many (`ActivityRecord.ofDatum?_list` and its like), so the spelling survives,
also that of lists of one and of none.
-/

namespace Workflow

open Json (Faithful)

/-! ## Records -/

namespace ActivityRecord

/-- The places of an activity's record. -/
def places (r : ActivityRecord) : List (String × Option Json) :=
  [("id", some (.text r.id)), ("name", r.name.map .text), ("incoming", r.incoming.map Json.ofRefs),
    ("outgoing", r.outgoing.map Json.ofRefs),
    ("intermediateKind", r.trigger.map fun k => .text k.name)]

/-- Records of activities are decoded as they were written. -/
theorem faithful : Faithful 2 toJson ofDatum? where
  decodes := by
    intro r
    obtain ⟨fields, hfields, h⟩ := Fields.holds_fields? r.places
      ["id", "name", "incoming", "outgoing", "intermediateKind"] rfl (by decide)
    have hid : fields.required "id" Datum.text? = some r.id := h.required (by simp [places]) .text
    have hname : fields.optional "name" Datum.text? = some r.name :=
      h.optional (by simp [places]) .text
    have hincoming : fields.optional "incoming" Datum.refs? = some r.incoming :=
      h.optional (by simp [places]) .refs
    have houtgoing : fields.optional "outgoing" Datum.refs? = some r.outgoing :=
      h.optional (by simp [places]) .refs
    have htrigger : fields.optional "intermediateKind"
        (Datum.named? false Trigger.all Trigger.name) = some r.trigger :=
      h.optional (by simp [places]) (Trigger.faithful false)
    have hjson : r.toJson = .object (Fields.present r.places) := by simp [toJson, places]
    rw [hjson]
    simp [ofDatum?, hfields, hid, hname, hincoming, houtgoing, htrigger]
  null := rfl
  plain := by
    refine fun r most => Json.plain_object fun most hmost => ?_
    have hroom : 0 ≤ most := Nat.zero_le most
    simp [Json.plainFields, Faithful.text.plainFields hroom,
      Faithful.refs.plainFields hmost, (Trigger.faithful false).plainFields hroom]

/-- A list is no record of an activity. -/
theorem ofDatum?_list (rs : List ActivityRecord) :
    ofDatum? (Datum.ofJson (.list (rs.map toJson))) = none :=
  Datum.decode_list (fun _ => rfl) (fun _ => rfl) rs

end ActivityRecord

namespace Flow

/-- The places of a flow. -/
def places (f : Flow) : List (String × Option Json) :=
  [("id", some (.text f.id)), ("sourceRef", some (.text f.source)),
    ("targetRef", some (.text f.target))]

/-- Flows are decoded as they were written. -/
theorem faithful : Faithful 1 toJson ofDatum? where
  decodes := by
    intro f
    obtain ⟨fields, hfields, h⟩ :=
      Fields.holds_fields? f.places ["id", "sourceRef", "targetRef"] rfl (by decide)
    have hid : fields.required "id" Datum.text? = some f.id := h.required (by simp [places]) .text
    have hsource : fields.required "sourceRef" Datum.text? = some f.source :=
      h.required (by simp [places]) .text
    have htarget : fields.required "targetRef" Datum.text? = some f.target :=
      h.required (by simp [places]) .text
    have hjson : f.toJson = .object (Fields.present f.places) := rfl
    rw [hjson]
    simp [ofDatum?, hfields, hid, hsource, htarget]
  null := rfl
  plain := fun _ _ => Json.plain_object fun _ _ => rfl

/-- A list is no flow. -/
theorem ofDatum?_list (fs : List Flow) :
    ofDatum? (Datum.ofJson (.list (fs.map toJson))) = none :=
  Datum.decode_list (fun _ => rfl) (fun _ => rfl) fs

end Flow

namespace Lane

/-- The places of a lane. -/
def places (l : Lane) : List (String × Option Json) :=
  [("id", some (.text l.id)), ("name", l.name.map .text),
    ("flowNodeRefs", some (.list (l.members.map .text)))]

/-- Lanes are decoded as they were written. -/
theorem faithful : Faithful 2 toJson ofDatum? where
  decodes := by
    intro l
    obtain ⟨fields, hfields, h⟩ :=
      Fields.holds_fields? l.places ["id", "name", "flowNodeRefs"] rfl (by decide)
    have hid : fields.required "id" Datum.text? = some l.id := h.required (by simp [places]) .text
    have hname : fields.optional "name" Datum.text? = some l.name :=
      h.optional (by simp [places]) .text
    have hmembers : fields.orElse "flowNodeRefs" [] (Datum.list? Datum.text?) =
        some l.members := h.orElse_of_read (by simp [places]) (Faithful.text.list.decodes l.members)
    have hjson : l.toJson = .object (Fields.present l.places) := by simp [toJson, places]
    rw [hjson]
    simp [ofDatum?, hfields, hid, hname, hmembers]
  null := rfl
  plain := by
    refine fun l most => Json.plain_object fun most hmost => ?_
    have hroom : 0 ≤ most := Nat.zero_le most
    simp [Json.plainFields, Faithful.text.plainFields hroom,
      Faithful.text.list.plain l.members most hmost]

/-- A list is no lane. -/
theorem ofDatum?_list (ls : List Lane) :
    ofDatum? (Datum.ofJson (.list (ls.map toJson))) = none :=
  Datum.decode_list (fun _ => rfl) (fun _ => rfl) ls

end Lane

namespace BoundaryRecord

/-- The places of a boundary event's record. -/
def places (b : BoundaryRecord) : List (String × Option Json) :=
  [("id", some (.text b.id)), ("attachedToRef", some (.text b.attachedTo)),
    ("outgoing", some (.text b.outgoing)),
    ("intermediateKind", b.trigger.map fun k => .text k.name)]

/-- Records of boundary events are decoded as they were written. -/
theorem faithful : Faithful 1 toJson ofDatum? where
  decodes := by
    intro b
    obtain ⟨fields, hfields, h⟩ := Fields.holds_fields? b.places
      ["id", "attachedToRef", "outgoing", "intermediateKind"] rfl (by decide)
    have hid : fields.required "id" Datum.text? = some b.id := h.required (by simp [places]) .text
    have hattached : fields.required "attachedToRef" Datum.text? = some b.attachedTo :=
      h.required (by simp [places]) .text
    have houtgoing : fields.required "outgoing" Datum.text? = some b.outgoing :=
      h.required (by simp [places]) .text
    have htrigger : fields.optional "intermediateKind"
        (Datum.named? false Trigger.all Trigger.name) = some b.trigger :=
      h.optional (by simp [places]) (Trigger.faithful false)
    have hjson : b.toJson = .object (Fields.present b.places) := by simp [toJson, places]
    rw [hjson]
    simp [ofDatum?, hfields, hid, hattached, houtgoing, htrigger]
  null := rfl
  plain := by
    refine fun b most => Json.plain_object fun most _ => ?_
    have hroom : 0 ≤ most := Nat.zero_le most
    simp [Json.plainFields, (Trigger.faithful false).plainFields hroom]

/-- A list is no record of a boundary event. -/
theorem ofDatum?_list (bs : List BoundaryRecord) :
    ofDatum? (Datum.ofJson (.list (bs.map toJson))) = none :=
  Datum.decode_list (fun _ => rfl) (fun _ => rfl) bs

end BoundaryRecord

/-! ## Documents -/

namespace Document

/-- A collection of activity records, at its place. -/
def activityPlace (name : String) (c : Option (OneOrMany ActivityRecord)) :
    String × Option Json :=
  (name, c.map (Json.ofOneOrMany ActivityRecord.toJson))

/-- The places of a document. -/
def places (p : Document) : List (String × Option Json) :=
  [("id", some (.text p.id)), ("isExecutable", some (.bool p.executable)),
    activityPlace "startEvent" p.startEvent, activityPlace "endEvent" p.endEvent,
    ("lanes", p.lanes.map (Json.ofOneOrMany Lane.toJson)),
    ("sequenceFlow", p.sequenceFlow.map (Json.ofOneOrMany Flow.toJson)),
    ("boundaryEvent", p.boundaryEvent.map (Json.ofOneOrMany BoundaryRecord.toJson)),
    activityPlace "task" p.task, activityPlace "userTask" p.userTask,
    activityPlace "manualTask" p.manualTask, activityPlace "serviceTask" p.serviceTask,
    activityPlace "scriptTask" p.scriptTask,
    activityPlace "exclusiveGateway" p.exclusiveGateway,
    activityPlace "inclusiveGateway" p.inclusiveGateway,
    activityPlace "parallelGateway" p.parallelGateway,
    activityPlace "complexGateway" p.complexGateway,
    activityPlace "intermediateThrowEvent" p.throwEvent,
    activityPlace "intermediateCatchEvent" p.catchEvent]

/-- The record of a document has the fields of its places. -/
theorem toJson_eq (p : Document) : p.toJson = .object (Fields.present p.places) := by
  simp [toJson, places, activityPlace, activityField]

/-- The collections of activity records. -/
theorem faithful_activities :
    Faithful 3 (Json.ofOneOrMany ActivityRecord.toJson)
      (Datum.oneOrMany? ActivityRecord.ofDatum?) :=
  ActivityRecord.faithful.oneOrMany ActivityRecord.ofDatum?_list

/-- The lanes. -/
theorem faithful_lanes :
    Faithful 3 (Json.ofOneOrMany Lane.toJson) (Datum.oneOrMany? Lane.ofDatum?) :=
  Lane.faithful.oneOrMany Lane.ofDatum?_list

/-- The flows. -/
theorem faithful_flows :
    Faithful 2 (Json.ofOneOrMany Flow.toJson) (Datum.oneOrMany? Flow.ofDatum?) :=
  Flow.faithful.oneOrMany Flow.ofDatum?_list

/-- The boundary events. -/
theorem faithful_boundaryEvents :
    Faithful 2 (Json.ofOneOrMany BoundaryRecord.toJson)
      (Datum.oneOrMany? BoundaryRecord.ofDatum?) :=
  BoundaryRecord.faithful.oneOrMany BoundaryRecord.ofDatum?_list

/-- A collection is decoded from what it answers as the value of a field. -/
theorem collection?_of_holds {α : Type} {levels : Nat} {encode : OneOrMany α → Json}
    {decode : Datum → Option α} (hf : Faithful levels encode (Datum.oneOrMany? decode))
    (hlevels : levels ≤ Json.depthLimit - 1) {places : List (String × Option Json)}
    {fields : Fields Reading}
    (h : Fields.Holds (fun j => jsonReading (Datum.ofJson j)) places fields.entries)
    {name : String} {c : Option (OneOrMany α)} (hp : (name, c.map encode) ∈ places) :
    collection? fields name decode = some c := by
  refine h.orElse hp (fun hnone => (Option.map_eq_none_iff.mp hnone).symm) fun j hsome => ?_
  obtain ⟨xs, rfl, rfl⟩ := Option.map_eq_some_iff.mp hsome
  have hnull := hf.ne_null xs
  have hfits := Json.fits_ofJson (Nat.le_refl _) (hf.plain xs _ hlevels)
  have hdecodes := hf.decodes xs
  have habsent : (jsonReading (Datum.ofJson (encode xs))).isAbsent = false := by
    unfold jsonReading
    dsimp only
    split
    · next heq => exact absurd heq hnull
    · rfl
  have hdatum : (jsonReading (Datum.ofJson (encode xs))).datum? =
      some (Datum.ofJson (encode xs)) := by
    simp [jsonReading, hfits]
  simp [habsent, hdatum, hdecodes]

/-- A document is decoded from fields that hold its places. -/
theorem ofFields?_of_holds {p : Document} {fields : Fields Reading}
    (h : Fields.Holds (fun j => jsonReading (Datum.ofJson j)) p.places fields.entries) :
    ofFields? fields = some p := by
  have hid : fields.required "id" Reading.text? = some p.id :=
    h.required_of_read (j := .text p.id) (by simp [places]) rfl
  have hexecutable : fields.orElse "isExecutable" false Reading.bool? = some p.executable :=
    h.orElse_of_read (j := .bool p.executable) (by simp [places]) rfl
  have hactivities : ∀ name c, activityPlace name c ∈ p.places →
      collection? fields name ActivityRecord.ofDatum? = some c :=
    fun _ _ hp => collection?_of_holds faithful_activities (by decide) h hp
  have hlanes : collection? fields "lanes" Lane.ofDatum? = some p.lanes :=
    collection?_of_holds faithful_lanes (by decide) h (by simp [places])
  have hflows : collection? fields "sequenceFlow" Flow.ofDatum? = some p.sequenceFlow :=
    collection?_of_holds faithful_flows (by decide) h (by simp [places])
  have hboundary : collection? fields "boundaryEvent" BoundaryRecord.ofDatum? =
      some p.boundaryEvent :=
    collection?_of_holds faithful_boundaryEvents (by decide) h (by simp [places])
  simp only [ofFields?, Option.bind_eq_bind, Option.bind_some, hid, hexecutable, hlanes, hflows,
    hboundary,
    hactivities "startEvent" p.startEvent (by simp [places]),
    hactivities "endEvent" p.endEvent (by simp [places]),
    hactivities "task" p.task (by simp [places]),
    hactivities "userTask" p.userTask (by simp [places]),
    hactivities "manualTask" p.manualTask (by simp [places]),
    hactivities "serviceTask" p.serviceTask (by simp [places]),
    hactivities "scriptTask" p.scriptTask (by simp [places]),
    hactivities "exclusiveGateway" p.exclusiveGateway (by simp [places]),
    hactivities "inclusiveGateway" p.inclusiveGateway (by simp [places]),
    hactivities "parallelGateway" p.parallelGateway (by simp [places]),
    hactivities "complexGateway" p.complexGateway (by simp [places]),
    hactivities "intermediateThrowEvent" p.throwEvent (by simp [places]),
    hactivities "intermediateCatchEvent" p.catchEvent (by simp [places])]
  rfl

/-- Documents are decoded as they were written. -/
theorem faithful : Faithful 4 toJson ofDatum? where
  decodes := by
    intro p
    have hnames : p.places.map (·.1) = fieldNames := rfl
    have hkey : ∀ s, (Datum.text s).text? = some s := fun _ => rfl
    have hentries := Fields.mapM_ofJsonFields hkey jsonReading (Fields.present p.places)
    have hall := Fields.holds_present (fun j => jsonReading (Datum.ofJson j))
      (hnames ▸ (by decide : fieldNames.Nodup))
    obtain ⟨fields, hpick, h⟩ := hall.pick?_all hnames
    rw [toJson_eq, Datum.ofJson, ofDatum?, hentries]
    simp only [Option.bind_eq_bind, Option.bind_some, hpick]
    exact ofFields?_of_holds h
  null := rfl
  plain := by
    refine fun p most => Json.plain_object fun most hmost => ?_
    have hroom : 2 ≤ most := by omega
    simp [activityField, Json.plainFields, faithful_activities.plainFields hmost,
      faithful_lanes.plainFields hmost, faithful_flows.plainFields hroom,
      faithful_boundaryEvents.plainFields hroom]

/-- A document that was written as text, on one line or over several, is read as that document. -/
theorem json_roundTrip (p : Document) :
    ofText? p.toText = some p ∧ ofText? p.toJson.renderPretty = some p :=
  faithful.roundTrip p

/-- A document that was written to a file is loaded from it, if the path says what is in it. -/
theorem load_written {path : String} (hpath : extension? path = some "json") (p : Document) :
    load path (some p.toJson.renderPretty.toUTF8) = .ok p := by
  have hutf8 : ∀ s : String, String.fromUTF8? s.toUTF8 = some s := fun s => dif_pos s.isValidUTF8
  have hread : ofText? p.toJson.renderPretty = some p := (faithful.roundTrip p).2
  unfold load
  rw [Option.bind_some, hutf8, hpath]
  simp only [if_true, hread]

end Document

end Workflow
