import Workflow.Activity.Codec
import Workflow.Json.Printer
import Workflow.Json.Reader
import Workflow.Document

/-!
# Process documents as data

A process document is a record whose fields are the collections.  Formats differ in how they tell a
text from a number and in what they can skip, but only for the fields of the document itself: the
collections are held on to as data, and what stands inside them is decoded alike in every format.
So a format answers, for each field, the few questions of a `Reading`.
-/

namespace Workflow

/-- What the value of a field answers to those who ask what it is. -/
structure Reading where
  /-- Whether it says that the field is absent. -/
  isAbsent : Bool
  /-- The text it can be taken for. -/
  text? : Option String
  /-- The truth value it can be taken for. -/
  bool? : Option Bool
  /-- The datum it is, if that can be held on to. -/
  datum? : Option Datum

namespace ActivityRecord

/-- The record as a JSON value. -/
def toJson (r : ActivityRecord) : Json :=
  .object <|
    ("id", .text r.id) :: Json.optional "name" .text r.name ++
      Json.optional "incoming" Json.ofRefs r.incoming ++
      Json.optional "outgoing" Json.ofRefs r.outgoing ++
      Json.optional "intermediateKind" (fun k => .text k.name) r.trigger

/-- The record of a datum. -/
def ofDatum? (d : Datum) : Option ActivityRecord := do
  let fields ← d.fields? ["id", "name", "incoming", "outgoing", "intermediateKind"]
  return {
    id := ← fields.required "id" Datum.text?
    name := ← fields.optional "name" Datum.text?
    incoming := ← fields.optional "incoming" Datum.refs?
    outgoing := ← fields.optional "outgoing" Datum.refs?
    trigger := ← fields.optional "intermediateKind" (Datum.named? false Trigger.all Trigger.name) }

end ActivityRecord

namespace Flow

/-- The flow as a JSON value. -/
def toJson (f : Flow) : Json :=
  .object [("id", .text f.id), ("sourceRef", .text f.source), ("targetRef", .text f.target)]

/-- The flow of a datum. -/
def ofDatum? (d : Datum) : Option Flow := do
  let fields ← d.fields? ["id", "sourceRef", "targetRef"]
  return {
    id := ← fields.required "id" Datum.text?
    source := ← fields.required "sourceRef" Datum.text?
    target := ← fields.required "targetRef" Datum.text? }

end Flow

namespace Lane

/-- The lane as a JSON value. -/
def toJson (l : Lane) : Json :=
  .object <|
    ("id", .text l.id) :: Json.optional "name" .text l.name ++
      [("flowNodeRefs", .list (l.members.map .text))]

/-- The lane of a datum. -/
def ofDatum? (d : Datum) : Option Lane := do
  let fields ← d.fields? ["id", "name", "flowNodeRefs"]
  return {
    id := ← fields.required "id" Datum.text?
    name := ← fields.optional "name" Datum.text?
    members := ← fields.orElse "flowNodeRefs" [] (Datum.list? Datum.text?) }

end Lane

namespace BoundaryRecord

/-- The boundary event as a JSON value. -/
def toJson (b : BoundaryRecord) : Json :=
  .object <|
    [("id", .text b.id), ("attachedToRef", .text b.attachedTo), ("outgoing", .text b.outgoing)] ++
      Json.optional "intermediateKind" (fun k => .text k.name) b.trigger

/-- The boundary event of a datum. -/
def ofDatum? (d : Datum) : Option BoundaryRecord := do
  let fields ← d.fields? ["id", "attachedToRef", "outgoing", "intermediateKind"]
  return {
    id := ← fields.required "id" Datum.text?
    attachedTo := ← fields.required "attachedToRef" Datum.text?
    outgoing := ← fields.required "outgoing" Datum.text?
    trigger := ← fields.optional "intermediateKind" (Datum.named? false Trigger.all Trigger.name) }

end BoundaryRecord

namespace Document

/-- The names of a document's fields, in declared order. -/
def fieldNames : List String :=
  ["id", "isExecutable", "startEvent", "endEvent", "lanes", "sequenceFlow", "boundaryEvent", "task",
    "userTask", "manualTask", "serviceTask", "scriptTask", "exclusiveGateway", "inclusiveGateway",
    "parallelGateway", "complexGateway", "intermediateThrowEvent", "intermediateCatchEvent"]

/-- A collection of activity records, left out when absent. -/
def activityField (name : String) (c : Option (OneOrMany ActivityRecord)) : List (String × Json) :=
  Json.optional name (Json.ofOneOrMany ActivityRecord.toJson) c

/-- A document as a JSON value. -/
def toJson (p : Document) : Json :=
  .object <|
    [("id", .text p.id), ("isExecutable", .bool p.executable)] ++
      activityField "startEvent" p.startEvent ++
      activityField "endEvent" p.endEvent ++
      Json.optional "lanes" (Json.ofOneOrMany Lane.toJson) p.lanes ++
      Json.optional "sequenceFlow" (Json.ofOneOrMany Flow.toJson) p.sequenceFlow ++
      Json.optional "boundaryEvent" (Json.ofOneOrMany BoundaryRecord.toJson) p.boundaryEvent ++
      activityField "task" p.task ++
      activityField "userTask" p.userTask ++
      activityField "manualTask" p.manualTask ++
      activityField "serviceTask" p.serviceTask ++
      activityField "scriptTask" p.scriptTask ++
      activityField "exclusiveGateway" p.exclusiveGateway ++
      activityField "inclusiveGateway" p.inclusiveGateway ++
      activityField "parallelGateway" p.parallelGateway ++
      activityField "complexGateway" p.complexGateway ++
      activityField "intermediateThrowEvent" p.throwEvent ++
      activityField "intermediateCatchEvent" p.catchEvent

/-- A collection among the fields of a document. -/
def collection? {α : Type} (fields : Fields Reading) (name : String) (decode : Datum → Option α) :
    Option (Option (OneOrMany α)) :=
  fields.orElse name none fun r =>
    if r.isAbsent then some none
    else (r.datum?.bind (Datum.oneOrMany? decode)).map some

/-- The document of its fields. -/
def ofFields? (fields : Fields Reading) : Option Document := do
  let activities (name : String) := collection? fields name ActivityRecord.ofDatum?
  return {
    id := ← fields.required "id" Reading.text?
    executable := ← fields.orElse "isExecutable" false Reading.bool?
    startEvent := ← activities "startEvent"
    endEvent := ← activities "endEvent"
    lanes := ← collection? fields "lanes" Lane.ofDatum?
    sequenceFlow := ← collection? fields "sequenceFlow" Flow.ofDatum?
    boundaryEvent := ← collection? fields "boundaryEvent" BoundaryRecord.ofDatum?
    task := ← activities "task"
    userTask := ← activities "userTask"
    manualTask := ← activities "manualTask"
    serviceTask := ← activities "serviceTask"
    scriptTask := ← activities "scriptTask"
    exclusiveGateway := ← activities "exclusiveGateway"
    inclusiveGateway := ← activities "inclusiveGateway"
    parallelGateway := ← activities "parallelGateway"
    complexGateway := ← activities "complexGateway"
    throwEvent := ← activities "intermediateThrowEvent"
    catchEvent := ← activities "intermediateCatchEvent" }

/-- What a datum of a JSON text answers as the value of a document's field; the document lies
around it. -/
def jsonReading (d : Datum) : Reading where
  isAbsent := match d with
    | .null => true
    | _ => false
  text? := d.text?
  bool? := d.bool?
  datum? := if d.fits (Json.depthLimit - 1) then some d else none

/-- The document of a datum of a JSON text: an object with the fields, or a list of their values in
declared order. -/
def ofDatum? : Datum → Option Document
  | .mapping entries => do
    let entries ← entries.mapM fun (k, v) => k.text?.map (·, jsonReading v)
    ofFields? (← Fields.pick? fieldNames entries)
  | .list values => do ofFields? (← Fields.ofList? fieldNames (values.map jsonReading))
  | _ => none

/-- A document as JSON text. -/
def toText (p : Document) : String := p.toJson.render

/-- The document of a JSON text. -/
def ofText? (text : String) : Option Document := (Json.read? text).bind ofDatum?

end Document

end Workflow
