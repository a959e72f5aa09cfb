import Workflow.Activity

/-!
# Edits of an activity

What may be done to a single activity, by a handler to the one it runs and by a caller to a live
one: setting its status and that of its boundary event, and working with the tokens of a gateway.
An edit changes no id, name, edge or kind.  Edits of a part that an activity does not have leave it
alone.
-/

namespace Workflow

/-- An edit of an activity. -/
inductive Edit where
  /-- Set the status of the activity. -/
  | setStatus (s : Status)
  /-- Set the status of the boundary event. -/
  | setBoundary (s : Status)
  /-- Take the first incoming token that is accepted. -/
  | takeIncoming (accepts : Token → Bool)
  /-- Choose the outgoing edge into a target, which is given as in `Gateway.takeOutgoing`. -/
  | chooseOutgoing (operation : Operation) (key : String) (target : Option (Option EdgeRefs))
  /-- Split the gateway, whatever has arrived. -/
  | split
  /-- Split the gateway if its join holds. -/
  | routes
  /-- Take back every choice of an outgoing edge. -/
  | refreshOutgoing

namespace Activity

/-- The activity after an edit, or the refusal, after which it is as before. -/
def edit (a : Activity) (now : Instant) : Edit → Except Error Activity
  | .setStatus s => .ok (a.set s now)
  | .setBoundary s => .ok (a.mapBoundary (·.set s now))
  | .takeIncoming accepts => .ok (a.mapGateway (·.takeIncoming accepts))
  | .chooseOutgoing operation key target =>
    match a.kind with
    | .gateway g =>
      match g.takeOutgoing operation key target with
      | .ok g => .ok { a with kind := .gateway g }
      | .error e => .error e
    | _ => .ok a
  | .split => .ok (a.mapGateway Gateway.afterSplit)
  | .routes => .ok (a.mapGateway fun g => if g.joinSatisfied then g.afterSplit else g)
  | .refreshOutgoing => .ok (a.mapGateway Gateway.refreshOutgoing)

/-- An edit keeps the id. -/
theorem id_edit {a b : Activity} {now : Instant} {e : Edit} (h : a.edit now e = .ok b) :
    b.id = a.id := by
  cases e with
  | chooseOutgoing operation key target =>
    unfold edit at h
    dsimp only at h
    split at h
    · split at h
      · cases h; rfl
      · cases h
    · cases h; rfl
  | _ => cases h; simp

end Activity

end Workflow
