import Switchboard.Numeric.Double

/-!
# `Switchboard.Numeric.Shortest`: the fewest digits that name a double

The reals that round to a double form an interval around it, whose ends belong to it exactly when
the mantissa is even. For one, two, … seventeen digits the two neighbours of the double among the
decimals of that many digits are tried. The first count with a neighbour inside the interval is the
least one, because if any decimal of that length lies inside so does a neighbour. Of two neighbours
inside, the nearer one is taken, and the even one in a tie.
-/

set_option autoImplicit false

namespace Switchboard.Numeric

/-- The decimal `digits · 10 ^ exponent`. -/
structure Decimal where
  digits : Nat
  exponent : Int
deriving DecidableEq, Repr

namespace Decimal

/-- The decimal without zeros at the end of its digits; `fuel` bounds their number. -/
def trimZeros (fuel : Nat) (d : Decimal) : Decimal :=
  match fuel with
  | 0 => d
  | fuel + 1 =>
    if d.digits ≠ 0 && d.digits % 10 == 0 then trimZeros fuel ⟨d.digits / 10, d.exponent + 1⟩
    else d

/-- The decimal over a common denominator: `digits · 10 ^ exponent · den` as a fraction. -/
def scaled (d : Decimal) (den : Nat) : Nat × Nat :=
  if 0 ≤ d.exponent then (d.digits * Nat.pow 10 d.exponent.toNat * den, 1)
  else (d.digits * den, Nat.pow 10 (-d.exponent).toNat)

end Decimal

/-- The reals that round to a positive double, over the denominator `den`. -/
structure Interval where
  low : Nat
  middle : Nat
  high : Nat
  den : Nat
  closed : Bool
deriving Repr

namespace Interval

/-- The interval of a positive double. Below a power of two the gap is half as wide. -/
def of (d : Double) : Interval :=
  let m := d.mantissa
  -- Mantissas are counted in quarters, so that both half gaps are whole numbers.
  let atPower := m = Double.mantissaBound / 2 && d.exponent > Double.minExponent
  let below := if atPower then 4 * m - 1 else 4 * m - 2
  let (low, den) := scaleByPow2 below 1 (d.exponent - 2)
  let (middle, _) := scaleByPow2 (4 * m) 1 (d.exponent - 2)
  let (high, _) := scaleByPow2 (4 * m + 2) 1 (d.exponent - 2)
  ⟨low, middle, high, den, m % 2 == 0⟩

/-- Whether a decimal rounds to the double. -/
def holds (i : Interval) (x : Decimal) : Bool :=
  let (n, d) := x.scaled i.den
  if i.closed then i.low * d ≤ n && n ≤ i.high * d else i.low * d < n && n < i.high * d

/-- The distance of a decimal from the double, over a denominator that decimals of one grid
share. -/
def distance (i : Interval) (x : Decimal) : Nat × Nat :=
  let (n, d) := x.scaled i.den
  (max n (i.middle * d) - min n (i.middle * d), d)

/-- The number of digits before the point: the least `k` with the double below `10 ^ k`. The
logarithm of two serves as a first guess, `fuel` bounds the steps from there. -/
def magnitude (i : Interval) : Nat → Int → Int
  | 0, k => k
  | fuel + 1, k =>
    let (n, d) := Decimal.scaled ⟨1, k⟩ i.den
    if i.middle * d < n then
      let (n', d') := Decimal.scaled ⟨1, k - 1⟩ i.den
      if i.middle * d' < n' then magnitude i fuel (k - 1) else k
    else magnitude i fuel (k + 1)

/-- The neighbour of the double on the grid of multiples of `10 ^ exponent` that rounds to it, if
one does. -/
def onGrid? (i : Interval) (exponent : Int) : Option Decimal :=
  let q :=
    if 0 ≤ exponent then i.middle / (i.den * Nat.pow 10 exponent.toNat)
    else i.middle * Nat.pow 10 (-exponent).toNat / i.den
  let floor : Decimal := ⟨q, exponent⟩
  let ceiling : Decimal := ⟨q + 1, exponent⟩
  match i.holds floor, i.holds ceiling with
  | true, false => some floor
  | false, true => some ceiling
  | false, false => none
  | true, true =>
    let (n, _) := i.distance floor
    let (n', _) := i.distance ceiling
    if n < n' then some floor
    else if n' < n then some ceiling
    else some (if q % 2 == 0 then floor else ceiling)

/-- The shortest decimal in the interval, with at most `count` digits tried from `17 - count`
on. -/
def search (i : Interval) (k : Int) : Nat → Decimal
  | 0 => ⟨0, 0⟩
  | count + 1 =>
    match i.onGrid? (k - (17 - count)) with
    | some x => x
    | none => search i k count

end Interval

/-- The decimal of fewest digits that rounds to a double, without sign; of several the nearest. -/
def Double.shortest (d : Double) : Decimal :=
  if d.isZero then ⟨0, 0⟩
  else
    let i := Interval.of d
    let guess : Int := (d.mantissa.log2 + d.exponent) * 3 / 10
    let k := i.magnitude 40 guess
    (i.search k 17).trimZeros 20

end Switchboard.Numeric
