import Workflow.Datum
import Workflow.Yaml.Tag

/-!
# Scalars

A scalar is a text together with how it was written and which tag it has.  A plain scalar without a
tag may be read as nothing, a truth value, a whole number or a double before it is read as a text;
one that is quoted or a block is a text.

Whole numbers are written to base ten, or with `0x`, `0o` or `0b` in front to base sixteen, eight or
two.  Digits to base ten that begin with a zero are a text.
-/

namespace Workflow.Yaml

/-- How a scalar is written. -/
inductive Style where
  | plain
  | quoted
  | literal
  | folded
  deriving DecidableEq, Repr

/-- A scalar as it was written. -/
structure Scalar where
  style : Style := .plain
  tag : Option Tag := none
  text : String := ""
  deriving DecidableEq, Repr

/-- Whether a text is a word for nothing. -/
def isNullWord (s : String) : Bool := s == "null" || s == "Null" || s == "NULL" || s == "~"

/-- The truth value that a text is a word for. -/
def boolWord? (s : String) : Option Bool :=
  if s == "true" || s == "True" || s == "TRUE" then some true
  else if s == "false" || s == "False" || s == "FALSE" then some false
  else none

namespace Numeric

/-- The number of a digit to a base. -/
def digit? (base : Nat) (c : Char) : Option Nat :=
  (Text.hexValue? c).filter (· < base)

/-- The number of digits to a base, of which there has to be one. -/
def natural? (base : Nat) (cs : List Char) : Option Nat :=
  if cs.isEmpty then none
  else (cs.mapM (digit? base)).map fun ds => ds.foldl (fun n d => n * base + d) 0

/-- A sign in front of a text, and the text after it. -/
def splitSign : List Char → Option Char × List Char
  | '+' :: cs => (some '+', cs)
  | '-' :: cs => (some '-', cs)
  | cs => (none, cs)

/-- Whether a text has only digits to base ten and begins with a zero that is not the last one. -/
def isPadded (cs : List Char) : Bool :=
  match (splitSign cs).2 with
  | '0' :: d :: ds => (d :: ds).all Char.isDigit
  | _ => false

/-- The magnitude that digits stand for, with the mark of a base in front or to base ten. -/
def magnitude? (cs : List Char) : Option Nat :=
  match cs with
  | '0' :: 'x' :: ds => natural? 16 ds
  | '0' :: 'o' :: ds => natural? 8 ds
  | '0' :: 'b' :: ds => natural? 2 ds
  | cs => if isPadded cs then none else natural? 10 cs

/-- Whether a whole number is negative, and its magnitude.  Beyond a hundred and twenty-eight bits
there are no whole numbers. -/
def whole? (cs : List Char) : Option (Bool × Nat) := do
  let (sign, ds) := splitSign cs
  let n ← magnitude? ds
  let negative := sign == some '-'
  if n ≤ (if negative then Nat.pow 2 127 else Nat.pow 2 128 - 1) then some (negative, n) else none

/-- A whole number that fits sixty-four bits.  Zero with a minus sign is a double. -/
def wholeNumber? (negative : Bool) (n : Nat) : Option Number :=
  if negative then
    if n = 0 then some (.double (-0.0 : Float).toBits)
    else if n ≤ Nat.pow 2 63 then some (.whole (-n))
    else none
  else if n ≤ Nat.pow 2 64 - 1 then some (.whole n)
  else none

/-- The digits of a decimal ahead and the characters after them. -/
def splitDigits (cs : List Char) : List Char × List Char :=
  (cs.takeWhile Char.isDigit, cs.dropWhile Char.isDigit)

/-- The exponent that a text consists of. -/
def exponent? : List Char → Option Int
  | [] => some 0
  | c :: cs =>
    if c = 'e' || c = 'E' then
      let (sign, ds) := splitSign cs
      (natural? 10 ds).map fun n => if sign == some '-' then -(n : Int) else n
    else none

/-- The double nearest to a decimal; absent when it is beyond the doubles.  A decimal of which the
first digit is far from the point is told apart by the place of that digit. -/
def double? (negative : Bool) (digits : List Char) (exponent : Int) : Option Float :=
  let ds := digits.dropWhile (· == '0')
  let place := ds.length + exponent
  let f : Float :=
    if ds.isEmpty || place < -400 then 0.0
    else if place > 400 then 1.0 / 0.0
    else Float.ofScientific ((natural? 10 ds).getD 0) (decide (exponent < 0)) exponent.natAbs
  if f.isInf then none else some (if negative then -f else f)

/-- The double of a decimal without a sign: digits with or without a point among them, and an
exponent. -/
def decimal? (negative : Bool) (cs : List Char) : Option Float := do
  let (whole, cs) := splitDigits cs
  let (fraction, cs) := match cs with
    | '.' :: cs => splitDigits cs
    | cs => ([], cs)
  let exponent ← exponent? cs
  if whole.isEmpty && fraction.isEmpty then none
  else double? negative (whole ++ fraction) (exponent - fraction.length)

/-- The double of a text; infinities and what is no number have words of their own. -/
def float? (cs : List Char) : Option Float :=
  let (sign, rest) := splitSign cs
  let word := String.ofList rest
  if word == ".inf" || word == ".Inf" || word == ".INF" then
    some (if sign == some '-' then -(1.0 / 0.0) else 1.0 / 0.0)
  else if sign.isNone && (word == ".nan" || word == ".NaN" || word == ".NAN") then some (0.0 / 0.0)
  else decimal? (sign == some '-') rest

end Numeric

namespace Scalar

/-- The datum of a whole number; absent beyond sixty-four bits. -/
def wholeDatum? : Bool × Nat → Option Datum
  | (negative, n) => (Numeric.wholeNumber? negative n).map .number

/-- The datum of a double. -/
def doubleDatum (f : Float) : Datum := .number (.double f.toBits)

/-- The datum of a plain scalar without a tag; absent for a whole number beyond sixty-four bits. -/
def plainDatum? (s : String) : Option Datum :=
  if s == "" || isNullWord s then some .null
  else
    match boolWord? s with
    | some b => some (.bool b)
    | none =>
      match Numeric.whole? s.toList with
      | some n => wholeDatum? n
      | none =>
        if Numeric.isPadded s.toList then some (.text s)
        else some (((Numeric.float? s.toList).map doubleDatum).getD (.text s))

/-- The datum of a scalar; absent when it does not fit its tag or no datum can hold it. -/
def datum? (s : Scalar) : Option Datum :=
  let untagged := if s.style = .plain then plainDatum? s.text else some (.text s.text)
  match s.tag with
  | none => untagged
  | some t =>
    if t.isPrivate then none
    else if t = Tag.bool then (boolWord? s.text).map .bool
    else if t = Tag.int then (Numeric.whole? s.text.toList).bind wholeDatum?
    else if t = Tag.float then (Numeric.float? s.text.toList).map doubleDatum
    else if t = Tag.null then if isNullWord s.text then some .null else none
    else if t.isMarked then untagged
    else some (.text s.text)

/-- Whether a scalar says that there is nothing. -/
def isAbsent (s : Scalar) : Bool :=
  s.style == .plain &&
    match s.tag with
    | none => s.text == "" || isNullWord s.text
    | some t => t == Tag.null && isNullWord s.text

/-- The truth value of a scalar that is plain, whatever its tag, or a literal block with the tag of
truth values. -/
def bool? (s : Scalar) : Option Bool :=
  if s.style = .plain || (s.style = .literal && s.tag == some Tag.bool) then boolWord? s.text
  else none

end Scalar

end Workflow.Yaml
