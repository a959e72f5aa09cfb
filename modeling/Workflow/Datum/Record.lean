import Workflow.Datum
import Workflow.OneOrMany

/-!
# Records in data

A record has named fields in a declared order.  A datum holds a record as a mapping from field
names, or as a list of field values in declared order, whose end may be missing.  A mapping may hold
other keys, which are skipped, but a field must not occur twice.  A whole number as a key means the
field at that place of the declared order.
-/

namespace Workflow

/-- Values by field name; no name occurs twice. -/
structure Fields (α : Type) where
  /-- The names with their values. -/
  entries : List (String × α)
  /-- No name occurs twice. -/
  unique : (entries.map (·.1)).Nodup

namespace Fields

variable {α β : Type}

/-- The entries whose key is among `names`, unless one of them occurs twice. -/
def pick? (names : List String) : List (String × α) → Option (Fields α)
  | [] => some ⟨[], .nil⟩
  | (k, v) :: rest => do
    let fields ← pick? names rest
    if !names.contains k then some fields
    else if repeated : k ∈ fields.entries.map (·.1) then none
    else some ⟨(k, v) :: fields.entries, List.nodup_cons.mpr ⟨repeated, fields.unique⟩⟩

/-- The fields of a list of values in declared order, unless there are too many. -/
def ofList? (names : List String) (values : List α) : Option (Fields α) :=
  if values.length ≤ names.length then pick? names (names.zip values) else none

/-- The value of a field. -/
def find? (fields : Fields α) (name : String) : Option α := fields.entries.lookup name

/-- A field that has to be there. -/
def required (fields : Fields α) (name : String) (decode : α → Option β) : Option β :=
  (fields.find? name).bind decode

/-- A field that has a value of its own when it is missing. -/
def orElse (fields : Fields α) (name : String) (default : β) (decode : α → Option β) : Option β :=
  match fields.find? name with
  | none => some default
  | some v => decode v

end Fields

namespace Datum

variable {α : Type}

/-- The field that a key stands for; a number out of range stands for none, and is no refusal. -/
def fieldKey? (names : List String) : Datum → Option String
  | text s => some s
  | number (.whole n) => if 0 ≤ n then some (names.getD n.toNat "") else none
  | _ => none

/-- The entries of a mapping by the fields that their keys stand for. -/
def keyed? (names : List String) (entries : List (Datum × Datum)) :
    Option (List (String × Datum)) :=
  entries.mapM fun (k, v) => (fieldKey? names k).map (·, v)

/-- The fields of a record. -/
def fields? (names : List String) : Datum → Option (Fields Datum)
  | mapping entries => (keyed? names entries).bind (Fields.pick? names)
  | list values => Fields.ofList? names values
  | _ => none

/-- A value that may be absent, which null says too. -/
def optional? (decode : Datum → Option α) : Datum → Option (Option α)
  | null => some none
  | d => (decode d).map some

/-- A value given bare or as a list.  A datum that can be read as a bare value is one. -/
def oneOrMany? (decode : Datum → Option α) (d : Datum) : Option (OneOrMany α) :=
  match decode d with
  | some a => some (.one a)
  | none => (d.list? decode).map .many

/-- One of several named values, given by its name, or by a mapping from its name to nothing.
`emptyMapping` says whether an empty mapping counts as nothing beside null. -/
def named? (emptyMapping : Bool) (all : List α) (name : α → String) : Datum → Option α
  | text s => all.find? (name · == s)
  | mapping [(k, v)] =>
    let isNothing := match v with
      | null => true
      | mapping [] => emptyMapping
      | _ => false
    if isNothing then
      (fieldKey? (all.map name) k).bind fun s => all.find? (name · == s)
    else none
  | _ => none

end Datum

/-- A field that may be missing or absent. -/
def Fields.optional {α : Type} (fields : Fields Datum) (name : String)
    (decode : Datum → Option α) : Option (Option α) :=
  fields.orElse name none (Datum.optional? decode)

end Workflow
