import Workflow.Json

/-!
# Data

A datum is a value as it was read from a text in some format, before anyone asks what it is for.  It
is a little more than a JSON value: keys need not be texts, the same key may occur twice, and a
place of the text may hold something that is no value at all, a number beyond the doubles for
instance. Such a place does no harm as long as it is skipped; a reader of records that has to hold
on to a datum first asks whether it fits.
-/

namespace Workflow

/-- A value as it was read. -/
inductive Datum where
  | null
  | bool (b : Bool)
  | number (n : Number)
  | text (s : String)
  | list (items : List Datum)
  | mapping (entries : List (Datum × Datum))
  /-- Something that is no value. -/
  | unfit
  deriving Repr

namespace Datum

mutual

/-- Whether the datum holds nothing unfit and its lists and mappings are nested at most `levels`
deep. -/
def fits (levels : Nat) : Datum → Bool
  | null | bool _ | number _ | text _ => true
  | list items => decide (0 < levels) && fitsList (levels - 1) items
  | mapping entries => decide (0 < levels) && fitsEntries (levels - 1) entries
  | unfit => false

/-- Whether every element fits. -/
def fitsList (levels : Nat) : List Datum → Bool
  | [] => true
  | d :: ds => fits levels d && fitsList levels ds

/-- Whether every key and value fits. -/
def fitsEntries (levels : Nat) : List (Datum × Datum) → Bool
  | [] => true
  | (k, v) :: rest => fits levels k && fits levels v && fitsEntries levels rest

end

/-- The text of a datum that is one. -/
def text? : Datum → Option String
  | text s => some s
  | _ => none

/-- The truth value of a datum that is one. -/
def bool? : Datum → Option Bool
  | bool b => some b
  | _ => none

/-- The elements of a list, each decoded. -/
def list? {α : Type} (decode : Datum → Option α) : Datum → Option (List α)
  | list items => items.mapM decode
  | _ => none

mutual

/-- A JSON value as a datum. -/
def ofJson : Json → Datum
  | .null => null
  | .bool b => bool b
  | .number n => number n
  | .text s => text s
  | .list items => list (ofJsonList items)
  | .object fields => mapping (ofJsonFields fields)

/-- The elements of a list as data. -/
def ofJsonList : List Json → List Datum
  | [] => []
  | j :: js => ofJson j :: ofJsonList js

/-- The fields of an object as entries. -/
def ofJsonFields : List (String × Json) → List (Datum × Datum)
  | [] => []
  | (k, j) :: rest => (text k, ofJson j) :: ofJsonFields rest

end

mutual

/-- A datum as a payload: keys have to be texts, and of equal keys the last one counts. -/
def toPayload? : Datum → Option Json
  | null => some .null
  | bool b => some (.bool b)
  | number n => some (.number n)
  | text s => some (.text s)
  | list items => (toPayloadList? items).map .list
  | mapping entries => (toPayloadFields? entries []).map .object
  | unfit => none

/-- The elements of a list as payloads. -/
def toPayloadList? : List Datum → Option (List Json)
  | [] => some []
  | d :: ds => do
    let j ← toPayload? d
    return j :: (← toPayloadList? ds)

/-- The fields so far with the entries of a mapping. -/
def toPayloadFields? : List (Datum × Datum) → List (String × Json) → Option (List (String × Json))
  | [], fields => some fields
  | (k, d) :: rest, fields => do
    toPayloadFields? rest (Json.setField (← k.text?) (← toPayload? d) fields)

end

end Datum

end Workflow
