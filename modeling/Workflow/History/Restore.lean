import Workflow.Graph
import Workflow.History

/-!
# Restoring a history

Saved records carry what changes while a process runs: lifecycles, tokens, and the lifecycles of
boundary events.  Everything else is taken from the process again.  A record finds its definition by
id, or, if it is a start event, by the name of the start event; a record that finds none is dropped.
A record of another family than its definition, or with tokens that do not stand for the edges of
its definition, is refused.
-/

namespace Workflow

namespace Graph

/-- The definition that a saved record belongs to. -/
def counterpart? (g : Graph) (record : Activity) : Option Activity :=
  match g.activity? record.id with
  | some definition => some definition
  | none =>
    let isStart := record.event?.any (·.kind == .start)
    if isStart && record.name.isSome && record.name == g.start.name then some g.start else none

end Graph

namespace Activity

/-- The family part of a definition with the changing part of a record; the families are the same
where this is used. -/
def restoreKind (definition record : Kind) : Kind :=
  match definition, record with
  | .gateway g, .gateway recorded =>
    .gateway { g with incoming := recorded.incoming, outgoing := recorded.outgoing }
  | .task t, .task recorded =>
    match t.boundary, recorded.boundary with
    | some b, some recorded =>
      .task { t with boundary := some { b with lifecycle := recorded.lifecycle } }
    | _, _ => .task t
  | definition, _ => definition

/-- The live activity of a definition with the changing part of a record. -/
def reattach (definition record : Activity) : Except Error Activity :=
  if definition.category ≠ record.category then
    .error (.snapshotCategory record.id record.category definition.category)
  else
    let live := { definition with
      lifecycle := record.lifecycle, kind := restoreKind definition.kind record.kind }
    if live.tokensMatch then .ok live else .error (.snapshotTokens live.id)

end Activity

namespace History

/-- The activities of saved records, in order, without those that have no counterpart. -/
def restoreAll (g : Graph) : List Activity → Except Error (List Activity)
  | [] => .ok []
  | record :: records =>
    match g.counterpart? record with
    | none => restoreAll g records
    | some definition => do
      let a ← definition.reattach record
      return a :: (← restoreAll g records)

/-- The history of saved records, or the first refusal, live ones first. -/
def restore (g : Graph) (head stack : List Activity) : Except Error History := do
  return { head := ← restoreAll g head, stack := ← restoreAll g stack }

end History

end Workflow
