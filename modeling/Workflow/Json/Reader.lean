import Workflow.Datum
import Workflow.Number

/-!
# Reading JSON

A JSON text is read into a datum.  What the grammar of JSON forbids is refused; what it allows but
no value can hold, a number beyond the doubles or a text with half a surrogate pair, is read as
unfit.  Each reader takes the characters ahead and returns what it read with the characters after
it.

The nesting of lists and objects is followed by a fuel.  Each level and each element spends some of
it and has a character of its own in the text, so twice the length of the text is always enough.
-/

namespace Workflow.Json

/-- The characters after blanks. -/
def skipBlanks : List Char → List Char
  | ' ' :: cs => skipBlanks cs
  | '\n' :: cs => skipBlanks cs
  | '\r' :: cs => skipBlanks cs
  | '\t' :: cs => skipBlanks cs
  | cs => cs

/-- The number of four digits to base sixteen. -/
def hexFour? (a b c d : Char) : Option Nat := do
  let high := (← Text.hexValue? a) * 16 + (← Text.hexValue? b)
  let low := (← Text.hexValue? c) * 16 + (← Text.hexValue? d)
  return high * 256 + low

/-- The character of an escape by one letter. -/
def escape? : Char → Option Char
  | '"' => some '"'
  | '\\' => some '\\'
  | '/' => some '/'
  | 'b' => some '\x08'
  | 'f' => some '\x0c'
  | 'n' => some '\n'
  | 'r' => some '\r'
  | 't' => some '\t'
  | _ => none

/-- Whether a number is the first half of a surrogate pair. -/
def isHighSurrogate (n : Nat) : Bool := 0xd800 ≤ n && n ≤ 0xdbff

/-- Whether a number is the second half of a surrogate pair. -/
def isLowSurrogate (n : Nat) : Bool := 0xdc00 ≤ n && n ≤ 0xdfff

/-- The character of a surrogate pair. -/
def ofSurrogates (high low : Nat) : Char :=
  Char.ofNat (0x10000 + (high - 0xd800) * 0x400 + (low - 0xdc00))

/-- A piece of a text: a character, or a number that was given by an escape. -/
inductive TextUnit where
  | char (c : Char)
  | code (n : Nat)
  deriving DecidableEq, Repr

/-- The characters of pieces, where the two halves of a surrogate pair make one character; absent
when a half stands alone. -/
def joinUnits? : List TextUnit → Option (List Char)
  | [] => some []
  | .char c :: us => (joinUnits? us).map (c :: ·)
  | .code n :: .code m :: us =>
    if isHighSurrogate n then
      if isLowSurrogate m then (joinUnits? us).map (ofSurrogates n m :: ·) else none
    else if isLowSurrogate n then none
    else (joinUnits? (.code m :: us)).map (Char.ofNat n :: ·)
  | .code n :: us =>
    if isHighSurrogate n || isLowSurrogate n then none
    else (joinUnits? us).map (Char.ofNat n :: ·)

/-- Reads the pieces of a text after its opening quote, up to the closing one. -/
def readUnits? : List Char → Option (List TextUnit × List Char)
  | [] => none
  | '"' :: rest => some ([], rest)
  | '\\' :: 'u' :: a :: b :: c :: d :: rest => do
    let n ← hexFour? a b c d
    let (us, rest) ← readUnits? rest
    return (.code n :: us, rest)
  | '\\' :: c :: rest => do
    let c ← escape? c
    let (us, rest) ← readUnits? rest
    return (.char c :: us, rest)
  | c :: rest =>
    if c.toNat < 32 then none
    else do
      let (us, rest) ← readUnits? rest
      return (.char c :: us, rest)

/-- Reads a text after its opening quote: its characters, absent when it holds half a surrogate
pair, and the characters after it. -/
def readText (cs : List Char) : Option (Option (List Char) × List Char) :=
  (readUnits? cs).map fun (us, rest) => (joinUnits? us, rest)

/-- The datum of a text that was read. -/
def textDatum : Option (List Char) → Datum
  | none => .unfit
  | some cs => .text (String.ofList cs)

/-- The digits ahead, as numbers, and the characters after them. -/
def readDigits : List Char → List Nat × List Char
  | [] => ([], [])
  | c :: cs =>
    if c.isDigit then
      let (ds, rest) := readDigits cs
      ((c.toNat - 48) :: ds, rest)
    else ([], c :: cs)

/-- Reads the digits before a point: a zero stands alone. -/
def readWhole? (cs : List Char) : Option (List Nat × List Char) :=
  match readDigits cs with
  | ([], _) => none
  | (0 :: _ :: _, _) => none
  | r => some r

/-- Reads a point and the digits after it, if there is a point. -/
def readFraction? : List Char → Option (Option (List Nat) × List Char)
  | '.' :: cs =>
    match readDigits cs with
    | ([], _) => none
    | (ds, rest) => some (some ds, rest)
  | cs => some (none, cs)

/-- Reads the sign and digits of an exponent. -/
def readExponentDigits? (cs : List Char) : Option (Option (Bool × List Nat) × List Char) :=
  let (negative, cs) := match cs with
    | '+' :: cs => (false, cs)
    | '-' :: cs => (true, cs)
    | cs => (false, cs)
  match readDigits cs with
  | ([], _) => none
  | (ds, rest) => some (some (negative, ds), rest)

/-- Reads an exponent, if there is one. -/
def readExponent? : List Char → Option (Option (Bool × List Nat) × List Char)
  | 'e' :: cs => readExponentDigits? cs
  | 'E' :: cs => readExponentDigits? cs
  | cs => some (none, cs)

/-- Reads a number. -/
def readNumeral? (cs : List Char) : Option (Numeral × List Char) := do
  let (negative, cs) := match cs with
    | '-' :: cs => (true, cs)
    | cs => (false, cs)
  let (whole, cs) ← readWhole? cs
  let (fraction, cs) ← readFraction? cs
  let (exponent, cs) ← readExponent? cs
  return ({ negative, whole, fraction, exponent }, cs)

/-- The datum of a number that was read. -/
def numeralDatum (n : Numeral) : Datum :=
  match n.toNumber? with
  | some n => .number n
  | none => .unfit

mutual

/-- Reads a value, which begins at the first character ahead. -/
def readValue (fuel : Nat) (cs : List Char) : Option (Datum × List Char) :=
  match fuel with
  | 0 => none
  | fuel + 1 =>
    match cs with
    | '"' :: rest => (readText rest).map fun (t, rest) => (textDatum t, rest)
    | '[' :: rest =>
      match skipBlanks rest with
      | ']' :: rest => some (.list [], rest)
      | rest => (readItems fuel rest).map fun (items, rest) => (.list items, rest)
    | '\x7b' :: rest =>
      match skipBlanks rest with
      | '\x7d' :: rest => some (.mapping [], rest)
      | rest => (readMembers fuel rest).map fun (entries, rest) => (.mapping entries, rest)
    | 'n' :: 'u' :: 'l' :: 'l' :: rest => some (.null, rest)
    | 't' :: 'r' :: 'u' :: 'e' :: rest => some (.bool true, rest)
    | 'f' :: 'a' :: 'l' :: 's' :: 'e' :: rest => some (.bool false, rest)
    | cs => (readNumeral? cs).map fun (n, rest) => (numeralDatum n, rest)

/-- Reads the elements of a list and its end. -/
def readItems (fuel : Nat) (cs : List Char) : Option (List Datum × List Char) :=
  match fuel with
  | 0 => none
  | fuel + 1 => do
    let (item, rest) ← readValue fuel cs
    match skipBlanks rest with
    | ']' :: rest => return ([item], rest)
    | ',' :: rest =>
      let (items, rest) ← readItems fuel (skipBlanks rest)
      return (item :: items, rest)
    | _ => none

/-- Reads the members of an object and its end. -/
def readMembers (fuel : Nat) (cs : List Char) : Option (List (Datum × Datum) × List Char) :=
  match fuel, cs with
  | fuel + 1, '"' :: rest => do
    let (key, rest) ← readText rest
    match skipBlanks rest with
    | ':' :: rest =>
      let (value, rest) ← readValue fuel (skipBlanks rest)
      match skipBlanks rest with
      | '\x7d' :: rest => return ([(textDatum key, value)], rest)
      | ',' :: rest =>
        let (entries, rest) ← readMembers fuel (skipBlanks rest)
        return ((textDatum key, value) :: entries, rest)
      | _ => none
    | _ => none
  | _, _ => none

end

/-- The datum of a JSON text, which may have blanks around it and nothing else. -/
def readChars? (cs : List Char) : Option Datum :=
  match readValue (2 * cs.length + 2) (skipBlanks cs) with
  | some (d, rest) => if (skipBlanks rest).isEmpty then some d else none
  | none => none

/-- The datum of a JSON text. -/
def read? (s : String) : Option Datum := readChars? s.toList

/-- How deep the lists and objects of a JSON text may be nested where they are held on to. -/
def depthLimit : Nat := 127

/-- The payload of a JSON text. -/
def readPayload? (s : String) : Option Json := do
  let d ← read? s
  if d.fits depthLimit then d.toPayload? else none

end Workflow.Json
