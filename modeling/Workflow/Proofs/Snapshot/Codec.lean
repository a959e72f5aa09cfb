import Workflow.Proofs.Activity.Codec
import Workflow.Snapshot.Codec

/-!
# Snapshots are read as they were written

A snapshot has fields of its own and two lists of activities, so it is decoded as it was saved
because activities are, and its text is read as the value that was written because that value is
plain.  Nothing is asked of the snapshot: its activities may be in any state and have edges and
tokens in any spelling, and its texts may hold any character.
-/

namespace Workflow

open Json (Faithful)

/-- States of an engine are told apart by their names. -/
theorem RunState.faithful : Faithful 0 (fun s => .text s.name) (Datum.named? false all name) :=
  .named false fun s => by cases s <;> rfl

namespace Snapshot

/-- The places of a snapshot. -/
def places (s : Snapshot) : List (String × Option Json) :=
  [("state", some (.text s.course.state.name)), ("init_at", s.course.initAt.map Json.ofInstant),
    ("pause_at", s.course.pauseAt.map Json.ofInstant),
    ("start_at", s.course.startAt.map Json.ofInstant),
    ("stop_at", s.course.stopAt.map Json.ofInstant),
    ("finish_at", s.course.finishAt.map Json.ofInstant),
    ("cancel_at", s.course.cancelAt.map Json.ofInstant),
    ("head", some (.list (s.head.map Activity.toJson))),
    ("stack", some (.list (s.stack.map Activity.toJson)))]

/-- The lists of activities in a snapshot. -/
theorem faithful_activities :
    Faithful 4 (fun as : List Activity => .list (as.map Activity.toJson))
      (Datum.list? (Activity.ofDatum? activityLevels)) :=
  (Activity.faithful (by decide)).list

/-- Snapshots are decoded as they were saved. -/
theorem faithful : Faithful 5 toJson ofDatum? where
  decodes := by
    intro s
    obtain ⟨fields, hfields, h⟩ := Fields.holds_fields? s.places fieldNames rfl (by decide)
    have hstate : fields.required "state" (Datum.named? false RunState.all RunState.name) =
        some s.course.state := h.required (by simp [places]) RunState.faithful
    have hstamp : ∀ name o, (name, o.map Json.ofInstant) ∈ s.places →
        fields.optional name Datum.instant? = some o :=
      fun _ _ hp => h.optional hp Instant.faithful
    have hhead : fields.required "head" (Datum.list? (Activity.ofDatum? activityLevels)) =
        some s.head := h.required (by simp [places]) faithful_activities
    have hstack : fields.required "stack" (Datum.list? (Activity.ofDatum? activityLevels)) =
        some s.stack := h.required (by simp [places]) faithful_activities
    have hjson : s.toJson = .object (Fields.present s.places) := by simp [toJson, places]
    rw [hjson]
    simp only [ofDatum?, hfields, Option.bind_eq_bind, Option.bind_some, hstate, hhead, hstack,
      hstamp "init_at" s.course.initAt (by simp [places]),
      hstamp "pause_at" s.course.pauseAt (by simp [places]),
      hstamp "start_at" s.course.startAt (by simp [places]),
      hstamp "stop_at" s.course.stopAt (by simp [places]),
      hstamp "finish_at" s.course.finishAt (by simp [places]),
      hstamp "cancel_at" s.course.cancelAt (by simp [places])]
    rfl
  null := rfl
  plain := by
    refine fun s most => Json.plain_object fun most hmost => ?_
    have hroom : 0 ≤ most := Nat.zero_le most
    simp [Json.plainFields, Instant.faithful.plainFields hroom,
      faithful_activities.plain _ most hmost]

/-- A snapshot that was written as text, on one line or over several, is read as that snapshot. -/
theorem text_roundTrip (s : Snapshot) :
    ofText? s.toText = some s ∧ ofText? s.toJson.renderPretty = some s :=
  faithful.roundTrip s

end Snapshot

end Workflow
