import Workflow.Activity
import Workflow.Datum.Record
import Workflow.Instant.Text

/-!
# Records of live activities

A saved activity is one flat object: its own fields, those of its lifecycle, its family under
`category`, and the fields of that family.  Fields without a value are left out.

Reading holds on to every value whose key is not one of the activity's own, because it could belong
to the family; so all of these have to fit, also those that turn out to be unknown.
-/

namespace Workflow

namespace Json

/-- One value bare, several as a list. -/
def ofOneOrMany {α : Type} (encode : α → Json) : OneOrMany α → Json
  | .one a => encode a
  | .many as => list (as.map encode)

/-- References to edges. -/
def ofRefs : EdgeRefs → Json := ofOneOrMany text

/-- An instant. -/
def ofInstant (t : Instant) : Json := text t.render

end Json

namespace Datum

/-- The instant of a text. -/
def instant? (d : Datum) : Option Instant := d.text?.bind Instant.read?

/-- References to edges. -/
def refs? (d : Datum) : Option EdgeRefs := oneOrMany? text? d

end Datum

namespace Lifecycle

/-- The names of a lifecycle's fields, in declared order. -/
def fieldNames : List String :=
  ["status", "entered_at", "started_at", "paused_at", "stopped_at", "finished_at", "canceled_at"]

/-- The fields of a lifecycle. -/
def toFields (l : Lifecycle) : List (String × Json) :=
  Json.optional "status" (fun s => .text s.name) l.status ++
    Json.optional "entered_at" Json.ofInstant l.enteredAt ++
    Json.optional "started_at" Json.ofInstant l.startedAt ++
    Json.optional "paused_at" Json.ofInstant l.pausedAt ++
    Json.optional "stopped_at" Json.ofInstant l.stoppedAt ++
    Json.optional "finished_at" Json.ofInstant l.finishedAt ++
    Json.optional "canceled_at" Json.ofInstant l.canceledAt

/-- The lifecycle among the fields of a record. -/
def ofEntries? (entries : List (String × Datum)) : Option Lifecycle := do
  let fields ← Fields.pick? fieldNames entries
  return {
    status := ← fields.optional "status" (Datum.named? true Status.all Status.name)
    enteredAt := ← fields.optional "entered_at" Datum.instant?
    startedAt := ← fields.optional "started_at" Datum.instant?
    pausedAt := ← fields.optional "paused_at" Datum.instant?
    stoppedAt := ← fields.optional "stopped_at" Datum.instant?
    finishedAt := ← fields.optional "finished_at" Datum.instant?
    canceledAt := ← fields.optional "canceled_at" Datum.instant? }

end Lifecycle

namespace Token

/-- The record of a token. -/
def toJson (t : Token) : Json := .object [("edgeId", .text t.edge), ("isTaken", .bool t.taken)]

/-- The token of a record. -/
def ofDatum? (d : Datum) : Option Token := do
  let fields ← d.fields? ["edgeId", "isTaken"]
  return ⟨← fields.required "edgeId" Datum.text?, ← fields.required "isTaken" Datum.bool?⟩

end Token

namespace BoundaryEvent

/-- The names of a boundary event's own fields, in declared order. -/
def fieldNames : List String := ["id", "attached_to_ref", "outgoing", "intermediate_kind"]

/-- The record of a boundary event. -/
def toJson (b : BoundaryEvent) : Json :=
  .object <|
    [("id", .text b.id), ("attached_to_ref", .text b.attachedTo), ("outgoing", .text b.outgoing)] ++
      Json.optional "intermediate_kind" (fun k => .text k.name) b.trigger ++ b.lifecycle.toFields

/-- The boundary event of a record, which has to be a mapping. -/
def ofDatum? : Datum → Option BoundaryEvent
  | .mapping entries => do
    let entries ← Datum.keyed? fieldNames entries
    let fields ← Fields.pick? fieldNames entries
    return {
      id := ← fields.required "id" Datum.text?
      attachedTo := ← fields.required "attached_to_ref" Datum.text?
      outgoing := ← fields.required "outgoing" Datum.text?
      trigger := ← fields.optional "intermediate_kind" (Datum.named? true Trigger.all Trigger.name)
      lifecycle := ← Lifecycle.ofEntries? entries }
  | _ => none

end BoundaryEvent

namespace LaneTag

/-- The record of a lane tag. -/
def toJson (l : LaneTag) : Json :=
  .object (("id", .text l.id) :: Json.optional "name" .text l.name)

/-- The lane tag of a record. -/
def ofDatum? (d : Datum) : Option LaneTag := do
  let fields ← d.fields? ["id", "name"]
  return ⟨← fields.required "id" Datum.text?, ← fields.optional "name" Datum.text?⟩

end LaneTag

namespace Category

/-- The families, in declared order. -/
def all : List Category := [task, gateway, event]

/-- The family of a name, or of its place in the declared order. -/
def ofDatum? : Datum → Option Category
  | .text s => all.find? (·.name == s)
  | .number (.whole n) => if 0 ≤ n then all[n.toNat]? else none
  | _ => none

end Category

namespace Kind

/-- The fields of a family. -/
def toFields : Kind → List (String × Json)
  | task t =>
    ("category", .text "Task") :: ("kind", .text t.kind.name) ::
      Json.optional "boundary_event" BoundaryEvent.toJson t.boundary
  | gateway g =>
    ("category", .text "Gateway") :: ("kind", .text g.kind.name) ::
      Json.optional "io_incoming" (Json.ofOneOrMany Token.toJson) g.incoming ++
      Json.optional "io_outgoing" (Json.ofOneOrMany Token.toJson) g.outgoing
  | event e =>
    ("category", .text "Event") :: ("kind", .text e.kind.name) ::
      Json.optional "intermediate_kind" (fun k => .text k.name) e.trigger

/-- The family among the fields of a record. -/
def ofEntries? (entries : List (String × Datum)) : Option Kind := do
  let tag ← Fields.pick? ["category"] entries
  match ← tag.required "category" Category.ofDatum? with
  | .task =>
    let fields ← Fields.pick? ["kind", "boundary_event"] entries
    return task {
      kind := ← fields.required "kind" (Datum.named? true TaskKind.all TaskKind.name)
      boundary := ← fields.optional "boundary_event" BoundaryEvent.ofDatum? }
  | .gateway =>
    let fields ← Fields.pick? ["kind", "io_incoming", "io_outgoing"] entries
    return gateway {
      kind := ← fields.required "kind" (Datum.named? true GatewayKind.all GatewayKind.name)
      incoming := ← fields.optional "io_incoming" (Datum.oneOrMany? Token.ofDatum?)
      outgoing := ← fields.optional "io_outgoing" (Datum.oneOrMany? Token.ofDatum?) }
  | .event =>
    let fields ← Fields.pick? ["kind", "intermediate_kind"] entries
    return event {
      kind := ← fields.required "kind" (Datum.named? true EventKind.all EventKind.name)
      trigger :=
        ← fields.optional "intermediate_kind" (Datum.named? true Trigger.all Trigger.name) }

end Kind

namespace Activity

/-- The names of an activity's own fields, in declared order. -/
def fieldNames : List String := ["id", "name", "incoming", "outgoing", "lane"]

/-- The record of an activity. -/
def toJson (a : Activity) : Json :=
  .object <|
    ("id", .text a.id) :: Json.optional "name" .text a.name ++
      Json.optional "incoming" Json.ofRefs a.incoming ++
      Json.optional "outgoing" Json.ofRefs a.outgoing ++
      Json.optional "lane" LaneTag.toJson a.lane ++
      a.lifecycle.toFields ++ a.kind.toFields

/-- A value that is held on to, nested at most `levels` deep, and then decoded. -/
def held? {α : Type} (levels : Nat) (decode : Datum → Option α) (d : Datum) : Option α :=
  if d.fits levels then decode d else none

/-- The activity of a record, which has to be a mapping with texts as keys.  Its values may be
nested `levels` deep. -/
def ofDatum? (levels : Nat) : Datum → Option Activity
  | .mapping entries => do
    let entries ← entries.mapM fun (k, v) => k.text?.map (·, v)
    let fields ← Fields.pick? fieldNames entries
    let others := entries.filter fun (k, _) => !fieldNames.contains k
    if others.all fun (_, v) => v.fits levels then
      return {
        id := ← fields.required "id" Datum.text?
        name := ← fields.optional "name" Datum.text?
        incoming := ← fields.optional "incoming" (held? levels Datum.refs?)
        outgoing := ← fields.optional "outgoing" (held? levels Datum.refs?)
        lane := ← fields.optional "lane" LaneTag.ofDatum?
        lifecycle := ← Lifecycle.ofEntries? others
        kind := ← Kind.ofEntries? others }
    else none
  | _ => none

end Activity

end Workflow
