/-!
# The shortest decimal of a double

Every finite double is `m * 2 ^ q` for whole numbers `m` and `q`.  The reals that round to it form
an interval, whose ends belong to it when `m` is even.  Among the decimal grids of step `10 ^ k` the
coarsest that meets the interval gives the fewest digits, and of its points in the interval the one
nearest to the double is taken, an even one if two are as near.
-/

namespace Workflow.Decimal

/-- A positive finite double and what rounds to it, over a common denominator: the double is
`value / scale`, and the reals between `low / scale` and `high / scale` round to it. -/
structure Rounding where
  /-- The numerator of the double. -/
  value : Nat
  /-- The numerator of the lower end. -/
  low : Nat
  /-- The numerator of the upper end. -/
  high : Nat
  /-- The denominator. -/
  scale : Nat
  /-- Whether the ends round to the double too. -/
  closed : Bool

/-- The double with these exponent and fraction bits. -/
def Rounding.ofBits (exponent fraction : Nat) : Rounding :=
  let m := if exponent = 0 then fraction else fraction + Nat.pow 2 52
  -- The double is `4 * m` units of `2 ^ (e - 1077)`; below a power of two the doubles lie closer.
  let e := if exponent = 0 then 1 else exponent
  let below := if fraction = 0 && exponent > 1 then 1 else 2
  let unit := Nat.pow 2 (e - 1077)
  { value := 4 * m * unit, low := (4 * m - below) * unit, high := (4 * m + 2) * unit,
    scale := Nat.pow 2 (1077 - e), closed := m % 2 == 0 }

/-- Whether the real `n / scale` rounds to the double. -/
def Rounding.holds (r : Rounding) (n : Nat) : Bool :=
  if r.closed then r.low ≤ n && n ≤ r.high else r.low < n && n < r.high

/-- The interval in units of `10 ^ k`, on whose grid the whole multiples of the new denominator
lie. -/
def Rounding.inUnits (r : Rounding) (k : Int) : Rounding :=
  let up := Nat.pow 10 (-k).toNat
  { value := r.value * up, low := r.low * up, high := r.high * up,
    scale := r.scale * Nat.pow 10 k.toNat, closed := r.closed }

/-- The whole number nearest to the double among those that round to it. -/
def Rounding.nearest? (r : Rounding) : Option Nat :=
  let below := r.value / r.scale
  let above := below + 1
  match r.holds (below * r.scale), r.holds (above * r.scale) with
  | false, false => none
  | true, false => some below
  | false, true => some above
  | true, true =>
    let toBelow := r.value - below * r.scale
    let toAbove := above * r.scale - r.value
    if toBelow < toAbove || (toBelow == toAbove && below % 2 == 0) then some below else some above

/-- The digits `n` and the exponent `k` of the coarsest grid from `10 ^ k` on that meets the
interval, trying `steps` grids. -/
def Rounding.coarsest (r : Rounding) : Nat → Int → Nat × Int
  | 0, k => (r.value / r.scale, k)
  | steps + 1, k =>
    match (r.inUnits k).nearest? with
    | some n => if n = 0 then r.coarsest steps (k - 1) else (n, k)
    | none => r.coarsest steps (k - 1)

/-- The shortest decimal `n * 10 ^ k` of a positive finite double. -/
def shortest (exponent fraction : Nat) : Nat × Int :=
  (Rounding.ofBits exponent fraction).coarsest 660 309

end Workflow.Decimal
