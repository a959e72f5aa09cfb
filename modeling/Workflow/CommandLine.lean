import Workflow.Engine.Run
import Workflow.Json.Printer
import Workflow.Load
import Workflow.Snapshot.Codec

/-!
# The command line

The command drives the process of a file with the default policy until it finishes or waits, and
shows the snapshot and the payload at the end.
-/

namespace Workflow.CommandLine

/-- What the command is asked for. -/
structure Options where
  /-- The file of the process. -/
  file : Option String := none
  /-- The payload to begin with, as JSON text. -/
  data : Option String := none
  /-- The file to write the snapshot to. -/
  snapshot : Option String := none
  deriving DecidableEq, Repr

namespace Options

/-- The options with one more, which must not be given twice. -/
def set? (o : Options) (name value : String) : Option Options :=
  match name with
  | "--file" => if o.file.isSome then none else some { o with file := some value }
  | "--data" => if o.data.isSome then none else some { o with data := some value }
  | "--snapshot" => if o.snapshot.isSome then none else some { o with snapshot := some value }
  | _ => none

/-- The options that arguments give, each as a name followed by a value. -/
def ofArguments? (o : Options) : List String → Option Options
  | [] => some o
  | name :: value :: rest => (o.set? name value).bind fun o => o.ofArguments? rest
  | [_] => none

end Options

/-- How the command is used. -/
def usage : String := "Usage: run --file <FILE> [--data <DATA>] [--snapshot <SNAPSHOT>]"

/-- What the command shows when it succeeds. -/
structure Report where
  /-- The snapshot, as JSON over several lines. -/
  snapshot : String
  /-- The payload, as JSON on one line. -/
  payload : String

/-- Runs the process of a file.  The payload is given as JSON text and is null without it. -/
def run (path : String) (content : Option ByteArray) (data : Option String) (now : Instant)
    (limit : Nat) : Except String Report :=
  match Document.load path content with
  | .error e => .error (e.message path)
  | .ok process =>
    match data.elim (some Json.null) Json.readPayload? with
    | none => .error "--data is not valid JSON"
    | some payload =>
      match Engine.withProcess process ({} : HandlerTable (Handler Unit)) now with
      | .error e => .error e.message
      | .ok engine =>
        let turn := engine.advance payload () ⟨now, limit⟩
        match turn.reply with
        | .error e => .error e.message
        | .unfinished => .error "The process did not come to rest"
        | .payload payload =>
          .ok { snapshot := turn.engine.save.toJson.renderPretty, payload := payload.render }

end Workflow.CommandLine
