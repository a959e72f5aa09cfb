import Workflow.Activity.Codec
import Workflow.History
import Workflow.Json.Printer
import Workflow.Json.Reader

/-!
# Snapshots as JSON

A snapshot is an object of the engine's course and the two lists of activities.  Stamps that are not
set are left out.
-/

namespace Workflow

namespace Snapshot

/-- The names of a snapshot's fields, in declared order. -/
def fieldNames : List String :=
  ["state", "init_at", "pause_at", "start_at", "stop_at", "finish_at", "cancel_at", "head", "stack"]

/-- A snapshot as a JSON value. -/
def toJson (s : Snapshot) : Json :=
  .object <|
    ("state", .text s.course.state.name) ::
      Json.optional "init_at" Json.ofInstant s.course.initAt ++
      Json.optional "pause_at" Json.ofInstant s.course.pauseAt ++
      Json.optional "start_at" Json.ofInstant s.course.startAt ++
      Json.optional "stop_at" Json.ofInstant s.course.stopAt ++
      Json.optional "finish_at" Json.ofInstant s.course.finishAt ++
      Json.optional "cancel_at" Json.ofInstant s.course.cancelAt ++
      [("head", .list (s.head.map Activity.toJson)), ("stack", .list (s.stack.map Activity.toJson))]

/-- How deep the values of an activity of a snapshot may be nested: the activity, the list it stands
in and the snapshot lie around them. -/
def activityLevels : Nat := Json.depthLimit - 3

/-- The snapshot of a datum. -/
def ofDatum? (d : Datum) : Option Snapshot := do
  let fields ← d.fields? fieldNames
  let state ← fields.required "state" (Datum.named? false RunState.all RunState.name)
  let course : Course := {
    state
    initAt := ← fields.optional "init_at" Datum.instant?
    pauseAt := ← fields.optional "pause_at" Datum.instant?
    startAt := ← fields.optional "start_at" Datum.instant?
    stopAt := ← fields.optional "stop_at" Datum.instant?
    finishAt := ← fields.optional "finish_at" Datum.instant?
    cancelAt := ← fields.optional "cancel_at" Datum.instant? }
  let activities := Datum.list? (Activity.ofDatum? activityLevels)
  return {
    course
    head := ← fields.required "head" activities
    stack := ← fields.required "stack" activities }

/-- A snapshot as JSON text. -/
def toText (s : Snapshot) : String := s.toJson.render

/-- The snapshot of a JSON text. -/
def ofText? (text : String) : Option Snapshot := (Json.read? text).bind ofDatum?

end Snapshot

namespace Activity

/-- The activity of a JSON text. -/
def ofText? (text : String) : Option Activity :=
  (Json.read? text).bind (ofDatum? (Json.depthLimit - 1))

end Activity

end Workflow
