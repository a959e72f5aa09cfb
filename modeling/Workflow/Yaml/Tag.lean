import Workflow.Number
import Workflow.Yaml.Glyph

/-!
# Tags

A tag says of what kind a node is.  It is an identifier in octets: most characters of a text stand
for themselves, and a percent sign with two digits stands for one octet of a character.  In the text
a tag is written in full between angle brackets, or by a handle and a suffix; the handle stands for
the beginning of the identifier.
-/

namespace Workflow.Yaml

/-- The identifier of a kind of nodes. -/
structure Tag where
  octets : List UInt8
  deriving DecidableEq, Repr

namespace Tag

/-- The octets of characters. -/
def octetsOf (s : String) : List UInt8 := s.toUTF8.toList

/-- The beginning of the tags that YAML itself defines. -/
def commonOctets : List UInt8 := octetsOf "tag:yaml.org,2002:"

/-- A tag that YAML itself defines. -/
def common (name : String) : Tag := ⟨commonOctets ++ octetsOf name⟩

/-- The tag of a truth value. -/
def bool : Tag := common "bool"

/-- The tag of a whole number. -/
def int : Tag := common "int"

/-- The tag of a number. -/
def float : Tag := common "float"

/-- The tag of nothing. -/
def null : Tag := common "null"

/-- The octet of the exclamation mark. -/
def mark : UInt8 := 0x21

/-- The tag that asks for no kind in particular. -/
def nonSpecific : Tag := ⟨[mark]⟩

/-- Whether a tag begins with an exclamation mark. -/
def isMarked (t : Tag) : Bool := t.octets.head? == some mark

/-- Whether a tag is one of the application: it is marked, and what follows the mark is text. -/
def isPrivate (t : Tag) : Bool :=
  t.isMarked && (String.fromUTF8? ⟨t.octets.tail.toArray⟩).isSome

/-- Whether a character stands for itself in a tag.  A comma and square brackets do so only where
they cannot end the tag. -/
def isPlain (bracketed : Bool) (c : Char) : Bool :=
  isWord c || ";/?:@&=+$.!~*'()".toList.contains c ||
    (bracketed && (c == ',' || c == '[' || c == ']'))

/-- The octet of two digits to base sixteen. -/
def octet? (a b : Char) : Option UInt8 := do
  return UInt8.ofNat ((← Text.hexValue? a) * 16 + (← Text.hexValue? b))

/-- How many octets follow the first octet of a character. -/
def following? (octet : UInt8) : Option Nat :=
  let n := octet.toNat
  if n < 0x80 then some 0
  else if 0xc0 ≤ n && n < 0xe0 then some 1
  else if 0xe0 ≤ n && n < 0xf0 then some 2
  else if 0xf0 ≤ n && n < 0xf8 then some 3
  else none

/-- How many octets are left of a character after one more octet of it. -/
def left? (left : Nat) (octet : UInt8) : Option Nat :=
  match left with
  | 0 => following? octet
  | left + 1 => if octet.toNat / 64 = 2 then some left else none

/-- Reads the octets ahead, of which the first `left` complete a character. -/
def readOctets? (bracketed : Bool) (left : Nat) : List Glyph → Option (List UInt8 × List Glyph)
  | [] => if left = 0 then some ([], []) else none
  | g :: gs =>
    if g.char = '%' then
      match gs with
      | a :: b :: rest => do
        let octet ← octet? a.char b.char
        let (os, rest) ← readOctets? bracketed (← left? left octet) rest
        return (octet :: os, rest)
      | _ => none
    else if left ≠ 0 then none
    else if isPlain bracketed g.char then do
      let (os, rest) ← readOctets? bracketed 0 gs
      return (UInt8.ofNat g.char.toNat :: os, rest)
    else some ([], g :: gs)

/-- Octets up to the first zero, which ends a tag. -/
def untilZero (os : List UInt8) : List UInt8 := os.takeWhile (· != 0)

/-- Reads octets, at least one. -/
def readSome? (bracketed : Bool) (gs : List Glyph) : Option (List UInt8 × List Glyph) :=
  match readOctets? bracketed 0 gs with
  | some (o :: os, rest) => some (untilZero (o :: os), rest)
  | _ => none

/-- Reads the handle and the suffix of a tag after its exclamation mark.  The handle is empty for a
tag that was written in full. -/
def readParts? (gs : List Glyph) : Option ((String × List UInt8) × List Glyph) :=
  match gs with
  | ⟨'<', _, _, _⟩ :: rest => do
    let (suffix, rest) ← readSome? true rest
    match rest with
    | ⟨'>', _, _, _⟩ :: rest => return (("", suffix), rest)
    | _ => none
  | gs => do
    let (word, rest) := Glyph.readWord gs
    match rest with
    | ⟨'!', _, _, _⟩ :: rest =>
      let (suffix, rest) ← readSome? false rest
      return ((String.ofList ('!' :: word ++ ['!']), suffix), rest)
    | rest =>
      let (os, rest) ← readOctets? false 0 rest
      let suffix := untilZero (octetsOf (String.ofList word) ++ os)
      return (if suffix.isEmpty then ("", [mark]) else ("!", suffix), rest)

/-- Reads a tag after its exclamation mark.  A gap has to follow, or a comma inside brackets. -/
def read? (inFlow : Bool) (gs : List Glyph) : Option ((String × List UInt8) × List Glyph) := do
  let (parts, rest) ← readParts? gs
  let ended := Glyph.atGap rest || (inFlow && (rest.head?.map Glyph.char) == some ',')
  if ended then some (parts, rest) else none

/-- What the handles stand for that every document has. -/
def commonHandles : List (String × List UInt8) := [("!", [mark]), ("!!", commonOctets)]

/-- The tag of a handle and a suffix, given what handles stand for. -/
def resolve? (handles : List (String × List UInt8)) (handle : String) (suffix : List UInt8) :
    Option Tag :=
  if handle = "" then some ⟨suffix⟩
  else ((handles ++ commonHandles).lookup handle).map fun start => ⟨start ++ suffix⟩

end Tag

end Workflow.Yaml
