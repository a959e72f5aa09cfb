import Workflow.Instant

/-!
# Instants as text

An instant is written as in RFC 3339, in universal time with a `Z`, and with as many groups of three
digits after the second as it takes to be exact.  A year outside the four digits has a sign.

Reading is more liberal.  The parts may have fewer digits and blanks in front of them; date and time
may be parted by a blank; fractions may have any number of digits, of which nine count.  The time
may be that of another zone, but which zone has to be said.
-/

namespace Workflow.Text

/-- Whether a character is a blank, which separates words in any script. -/
def isBlank (c : Char) : Bool :=
  let n := c.toNat
  (9 ≤ n && n ≤ 13) || n == 0x20 || n == 0x85 || n == 0xa0 || n == 0x1680 ||
    (0x2000 ≤ n && n ≤ 0x200a) || n == 0x2028 || n == 0x2029 || n == 0x202f || n == 0x205f ||
    n == 0x3000

/-- The characters after blanks. -/
def trimStart (cs : List Char) : List Char := cs.dropWhile isBlank

end Workflow.Text

namespace Workflow.Instant

/-- The last `width` decimal digits of a number. -/
def digits (width n : Nat) : List Char :=
  match width with
  | 0 => []
  | width + 1 => digits width (n / 10) ++ [Nat.digitChar (n % 10)]

/-- The text of a year. -/
def yearChars (year : Int) : List Char :=
  if 0 ≤ year ∧ year ≤ 9999 then digits 4 year.toNat
  else
    let ds := Nat.toDigits 10 year.natAbs
    (if year < 0 then '-' else '+') :: List.replicate (4 - ds.length) '0' ++ ds

/-- The text of the fraction of a second. -/
def fractionChars (nano : Nat) : List Char :=
  if nano = 0 then []
  else if nano % 1000000 = 0 then '.' :: digits 3 (nano / 1000000)
  else if nano % 1000 = 0 then '.' :: digits 6 (nano / 1000)
  else '.' :: digits 9 nano

/-- The text of an instant, as characters. -/
def chars (t : Instant) : List Char :=
  yearChars t.year ++ '-' :: digits 2 t.month ++ '-' :: digits 2 t.day ++
    'T' :: digits 2 t.hour ++ ':' :: digits 2 t.minute ++ ':' :: digits 2 t.second ++
    fractionChars t.nano ++ ['Z']

/-- The text of an instant. -/
def render (t : Instant) : String := String.ofList t.chars

/-- At most `most` digits ahead, and the characters after them. -/
def spanDigits (most : Nat) (cs : List Char) : List Char × List Char :=
  match most, cs with
  | most + 1, c :: cs =>
    if c.isDigit then
      let (ds, rest) := spanDigits most cs
      (c :: ds, rest)
    else ([], c :: cs)
  | _, cs => ([], cs)

/-- The number of a list of digits. -/
def ofDigits (ds : List Char) : Nat := ds.foldl (fun n d => n * 10 + (d.toNat - 48)) 0

/-- Reads a number of one to `most` digits. -/
def readNat? (most : Nat) (cs : List Char) : Option (Nat × List Char) :=
  match spanDigits most cs with
  | ([], _) => none
  | (ds, rest) => some (ofDigits ds, rest)

/-- Reads a number of one or two digits after blanks. -/
def readPart? (cs : List Char) : Option (Nat × List Char) := readNat? 2 (Text.trimStart cs)

/-- Reads a year after blanks: of at most four digits, or with a sign of any number of them. -/
def readYear? (cs : List Char) : Option (Int × List Char) :=
  match Text.trimStart cs with
  | '-' :: cs => (readNat? cs.length cs).map fun (n, rest) => (-(n : Int), rest)
  | '+' :: cs => (readNat? cs.length cs).map fun (n, rest) => ((n : Int), rest)
  | cs => (readNat? 4 cs).map fun (n, rest) => ((n : Int), rest)

/-- Reads a separator after blanks. -/
def readMark? (mark : Char) (cs : List Char) : Option (List Char) :=
  match Text.trimStart cs with
  | c :: rest => if c = mark then some rest else none
  | [] => none

/-- Reads what parts the date from the time. -/
def readDateEnd? : List Char → Option (List Char)
  | 'T' :: cs => some cs
  | 't' :: cs => some cs
  | ' ' :: cs => some cs
  | _ => none

/-- Reads the fraction of a second, if there is one, as nanoseconds. -/
def readFraction? : List Char → Option (Nat × List Char)
  | '.' :: cs =>
    match spanDigits 9 cs with
    | ([], _) => none
    | (ds, rest) => some (ofDigits ds * Nat.pow 10 (9 - ds.length), rest.dropWhile Char.isDigit)
  | cs => some (0, cs)

/-- Reads hours and minutes of an offset, which are two digits each with colons or blanks
between. -/
def readOffsetDigits? (cs : List Char) : Option (Nat × List Char) :=
  match cs with
  | h :: h' :: cs =>
    match cs.dropWhile (fun c => c == ':' || Text.isBlank c) with
    | m :: m' :: rest =>
      if h.isDigit && h'.isDigit && m.isDigit && m'.isDigit && m.toNat < 54 then
        some (ofDigits [h, h'] * 60 + ofDigits [m, m'], rest)
      else none
    | _ => none
  | _ => none

/-- Reads the offset from universal time, in minutes. -/
def readOffset? : List Char → Option (Int × List Char)
  | 'Z' :: cs => some (0, cs)
  | 'z' :: cs => some (0, cs)
  | '+' :: cs => (readOffsetDigits? cs).map fun (n, rest) => ((n : Int), rest)
  | '-' :: cs => (readOffsetDigits? cs).map fun (n, rest) => (-(n : Int), rest)
  | '−' :: cs => (readOffsetDigits? cs).map fun (n, rest) => (-(n : Int), rest)
  | u :: t :: c :: cs =>
    if u.toUpper = 'U' ∧ t.toUpper = 'T' ∧ c.toUpper = 'C' then some (0, cs) else none
  | _ => none

/-- The instant of a text, given as characters. -/
def readChars? (cs : List Char) : Option Instant := do
  let (year, cs) ← readYear? cs
  let cs ← readMark? '-' cs
  let (month, cs) ← readPart? cs
  let cs ← readMark? '-' cs
  let (day, cs) ← readPart? cs
  let cs ← readDateEnd? cs
  let (hour, cs) ← readPart? cs
  let cs ← readMark? ':' cs
  let (minute, cs) ← readPart? cs
  let cs ← readMark? ':' cs
  let (second, cs) ← readPart? cs
  let (nano, cs) ← readFraction? cs
  let (offset, cs) ← readOffset? (Text.trimStart cs)
  if (Text.trimStart cs).isEmpty && decide (offset.natAbs < 1440) then
    let t ← of? year month day hour minute second nano
    ofLocal? t offset
  else none

/-- The instant of a text. -/
def read? (s : String) : Option Instant := readChars? s.toList

end Workflow.Instant
