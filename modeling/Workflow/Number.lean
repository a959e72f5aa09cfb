import Workflow.Decimal.Shortest
import Workflow.Json

/-!
# Number texts

How a number is read from the digits of a JSON text and how it is written.

A numeral without fraction and exponent is whole when it fits sixty-four bits, signed if it is
negative.  Every other numeral is a double: its leading digits are gathered into a number of
sixty-four bits, the digits beyond only count towards the exponent, and the result is multiplied or
divided by a power of ten in double arithmetic.  A numeral beyond the doubles is no number.

A double is written with the fewest digits that read back, with a point for magnitudes from `1e-5`
up to `1e16` and with an exponent otherwise.

Escapes give a character by its number to base sixteen.  The digits are written in lower case and
read in either.
-/

namespace Workflow.Text

/-- The digit of a number below sixteen, in lower case. -/
def hexDigit (n : Nat) : Char := "0123456789abcdef".toList.getD n '0'

/-- The number of a digit to base sixteen. -/
def hexValue? (c : Char) : Option Nat :=
  let n := c.toNat
  if 48 ≤ n && n ≤ 57 then some (n - 48)
  else if 65 ≤ n && n ≤ 70 then some (n - 55)
  else if 97 ≤ n && n ≤ 102 then some (n - 87)
  else none

end Workflow.Text

namespace Workflow

/-- The parts of a number text. -/
structure Numeral where
  /-- Whether it begins with a minus sign. -/
  negative : Bool
  /-- The digits before the point. -/
  whole : List Nat
  /-- The digits after the point, if there is one. -/
  fraction : Option (List Nat) := none
  /-- The exponent, if there is one: whether it is negative, and its digits. -/
  exponent : Option (Bool × List Nat) := none
  deriving DecidableEq, Repr

namespace Numeral

/-- The largest number of sixty-four bits. -/
def wordMax : Nat := Nat.pow 2 64 - 1

/-- Digits gathered onto a significand while it fits a word: the significand, and the digits left
over from the first that does not fit. -/
def gather : Nat → List Nat → Nat × List Nat
  | n, [] => (n, [])
  | n, d :: ds => if n * 10 + d ≤ wordMax then gather (n * 10 + d) ds else (n, d :: ds)

/-- The number of a list of digits. -/
def ofDigits (ds : List Nat) : Nat := ds.foldl (fun n d => n * 10 + d) 0

/-- A power of ten as a double. -/
def powerOfTen (n : Nat) : Float := Float.ofScientific 1 false n

/-- A double scaled by a power of ten whose exponent is not below the range of the doubles. -/
def scaleWithin (f : Float) (exponent : Int) : Float :=
  if 0 ≤ exponent then f * powerOfTen exponent.toNat else f / powerOfTen (-exponent).toNat

/-- A double scaled by a power of ten; absent when the result is beyond the doubles.  Three steps of
`1e-308` bring every significand to zero. -/
def scale? (f : Float) (exponent : Int) : Option Float :=
  if exponent > 308 then if f == 0 then some f else none
  else
    let down (p : Float × Int) : Float × Int :=
      if p.2 < -308 then if p.1 == 0 then (p.1, 0) else (p.1 / powerOfTen 308, p.2 + 308) else p
    let (f, exponent) := down (down (down (f, exponent)))
    let r := if f == 0 then f else scaleWithin f exponent
    if r.isInf then none else some r

/-- The double of a numeral; absent when it is beyond the doubles. -/
def toDouble? (n : Numeral) : Option Float :=
  let (significand, dropped) := gather 0 n.whole
  let (significand, exponent) := match n.fraction with
    | none => (significand, (dropped.length : Int))
    | some ds =>
      let (s, rest) := gather significand ds
      (s, (dropped.length : Int) - ((ds.length - rest.length : Nat) : Int))
  let f := (UInt64.ofNat significand).toFloat
  let result := match n.exponent with
    | none => scale? f exponent
    | some (negative, ds) =>
      let e := ofDigits ds
      if e > Nat.pow 2 31 - 1 then
        if significand ≠ 0 && !negative then none else some 0
      else scale? f (if negative then exponent - e else exponent + e)
  result.map fun r => if n.negative then -r else r

/-- The number of a numeral; absent when it is beyond the doubles. -/
def toNumber? (n : Numeral) : Option Number :=
  let double := n.toDouble?.map fun f => Number.double f.toBits
  match n.fraction, n.exponent with
  | none, none =>
    let w := ofDigits n.whole
    if n.negative then
      if 1 ≤ w && w ≤ Nat.pow 2 63 then some (.whole (-w)) else double
    else if w ≤ wordMax then some (.whole w) else double
  | _, _ => double

end Numeral

namespace Number

/-- The digits of a decimal `n * 10 ^ k` with a point. -/
def positional (n : Nat) (k : Int) : List Char :=
  let ds := Nat.toDigits 10 n
  let point := ds.length + k
  if 0 ≤ k then ds ++ List.replicate k.toNat '0' ++ ['.', '0']
  else if 0 < point then ds.take point.toNat ++ '.' :: ds.drop point.toNat
  else '0' :: '.' :: List.replicate (-point).toNat '0' ++ ds

/-- The digits of a decimal `n * 10 ^ k` with an exponent. -/
def scientific (n : Nat) (k : Int) : List Char :=
  let ds := Nat.toDigits 10 n
  let e := ds.length + k - 1
  let mantissa := match ds with
    | d :: d' :: rest => d :: '.' :: d' :: rest
    | ds => ds
  mantissa ++ 'e' :: (if e < 0 then '-' else '+') :: Nat.toDigits 10 e.natAbs

/-- The text of a double that is not negative, given by its exponent and fraction bits. -/
def doubleChars (exponent fraction : Nat) : List Char :=
  if exponent = 0 && fraction = 0 then ['0', '.', '0']
  else
    let (n, k) := Decimal.shortest exponent fraction
    let point := (Nat.toDigits 10 n).length + k
    if -5 < point && point ≤ 16 then positional n k else scientific n k

/-- The text of a number.  A double that is not finite is not a JSON number and is written as
null. -/
def chars : Number → List Char
  | whole n => (if n < 0 then ['-'] else []) ++ Nat.toDigits 10 n.natAbs
  | double bits =>
    let exponent := (bits.toNat / Nat.pow 2 52) % Nat.pow 2 11
    let fraction := bits.toNat % Nat.pow 2 52
    if exponent = 2047 then ['n', 'u', 'l', 'l']
    else (if bits.toNat / Nat.pow 2 63 = 1 then ['-'] else []) ++ doubleChars exponent fraction

end Number

end Workflow
