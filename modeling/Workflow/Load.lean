import Workflow.Document.Codec
import Workflow.Yaml.Node.Datum

/-!
# Loading a process file

A process file holds JSON when its name ends in `.json`, and YAML otherwise.

The document of a YAML text is its outermost mapping.  An identifier may be any scalar and is taken
as the text that it was written as.  Fields that a document does not have are not looked into.
-/

namespace Workflow

namespace Document

open Yaml

/-- How deep the collections of a document may be nested; the document lies around them. -/
def yamlDepthLimit : Nat := 127

/-- What a node below `root` answers as the value of a document's field. -/
def yamlReading (root : Node) (n : Node) : Expansion Reading := do
  match ← n.follow root with
  | .scalar _ s => return ⟨s.isAbsent, some s.text, s.bool?, s.datum?⟩
  | n => return ⟨false, none, none, some (← Node.datum root yamlDepthLimit n)⟩

/-- What the entries of the outermost mapping answer, as far as they are fields of a document. -/
def yamlReadings (root : Node) : List (Node × Node) → Expansion (List (String × Reading))
  | [] => return []
  | (k, v) :: rest => do
    let name ← k.text root
    if fieldNames.contains name then
      let reading ← yamlReading root v
      return (name, reading) :: (← yamlReadings root rest)
    else yamlReadings root rest

/-- The document of a YAML text. -/
def ofYaml? (text : String) : Option Document := do
  let root ← Node.ofText? text
  match root with
  | .mapping _ _ entries =>
    let readings ← (yamlReadings root entries).run' (Node.aliasesPerPart * root.size)
    ofFields? (← Fields.pick? fieldNames readings)
  | _ => none

end Document

/-- Why a process file could not be loaded. -/
inductive LoadError where
  /-- There is no such file, or it does not hold text. -/
  | unreadable
  /-- It is no document in JSON. -/
  | invalidJson
  /-- It is no document in YAML. -/
  | invalidYaml
  deriving DecidableEq, Repr

/-- The words for why the file at a path could not be loaded. -/
def LoadError.message (path : String) : LoadError → String
  | unreadable => "Failed to read process file from " ++ path
  | invalidJson => "Failed to deserialize JSON content from " ++ path
  | invalidYaml => "Failed to deserialize YAML content from " ++ path

/-- What follows the last dot of a file name, if something stands before that dot. -/
def extension? (path : String) : Option String :=
  let name := ((path.toList.reverse.dropWhile (· == '/')).takeWhile (· != '/'))
  match name.dropWhile (· != '.') with
  | '.' :: _ :: _ => some (String.ofList (name.takeWhile (· != '.')).reverse)
  | _ => none

namespace Document

/-- The document of a file, given by its path and its bytes, which are absent when there is no such
file. -/
def load (path : String) (content : Option ByteArray) : Except LoadError Document :=
  match content.bind String.fromUTF8? with
  | none => .error .unreadable
  | some text =>
    if extension? path = some "json" then
      match ofText? text with
      | some p => .ok p
      | none => .error .invalidJson
    else
      match ofYaml? text with
      | some p => .ok p
      | none => .error .invalidYaml

end Document

end Workflow
