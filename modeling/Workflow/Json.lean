/-!
# JSON values

Payloads are JSON values, and records are written as JSON values.  A number is either whole and
within sixty-four bits, signed or unsigned, or a double, which is kept by its bits.  An object is a
list of fields in the order in which they are written; a payload that was read has its keys in
ascending order and each of them once.
-/

namespace Workflow

/-- A number of a JSON value. -/
inductive Number where
  | whole (n : Int)
  | double (bits : UInt64)
  deriving DecidableEq, Repr

/-- A JSON value. -/
inductive Json where
  | null
  | bool (b : Bool)
  | number (n : Number)
  | text (s : String)
  | list (items : List Json)
  | object (fields : List (String × Json))
  deriving BEq, Repr

namespace Json

/-- Fields in ascending order of their keys, with the value of one key set. -/
def setField (key : String) (value : Json) : List (String × Json) → List (String × Json)
  | [] => [(key, value)]
  | (k, v) :: rest =>
    if key < k then (key, value) :: (k, v) :: rest
    else if key = k then (k, value) :: rest
    else (k, v) :: setField key value rest

/-- The value of the first field with a key, absent for a value that is no object. -/
def field? (key : String) : Json → Option Json
  | object fields => (fields.find? (·.1 == key)).map (·.2)
  | _ => none

/-- A field that is left out when its value is absent. -/
def optional {α : Type} (key : String) (encode : α → Json) : Option α → List (String × Json)
  | none => []
  | some a => [(key, encode a)]

end Json

end Workflow
