/-!
# `Switchboard.Numeric.Double`: binary floating point in exact arithmetic

A finite double is a sign, a mantissa below `2 ^ 53` and a power of two. Every operation computes
its exact result as a fraction of natural numbers and rounds it once, to the nearest double and in
a tie to the even mantissa. A result beyond the largest double is `none`.
-/

set_option autoImplicit false

namespace Switchboard.Numeric

/-- The finite double `±mantissa · 2 ^ exponent`. -/
structure Double where
  negative : Bool
  mantissa : Nat
  exponent : Int
deriving DecidableEq, Repr, Inhabited

/-- The quotient rounded to the nearest natural number, a tie to the even one. -/
def roundHalfEven (num den : Nat) : Nat :=
  let q := num / den
  let twice := 2 * (num % den)
  if twice > den || (twice == den && q % 2 == 1) then q + 1 else q

/-- The fraction times a power of two. -/
def scaleByPow2 (num den : Nat) (k : Int) : Nat × Nat :=
  if 0 ≤ k then (num * Nat.pow 2 k.toNat, den) else (num, den * Nat.pow 2 (-k).toNat)

namespace Double

/-- Least exponent of a double. -/
def minExponent : Int := -1074

/-- Greatest exponent of a double. -/
def maxExponent : Int := 971

/-- Mantissas stay below this bound, which is `2 ^ 53`. -/
def mantissaBound : Nat := 9007199254740992

/-- Zero with a sign. -/
def zero (negative : Bool) : Double := ⟨negative, 0, minExponent⟩

/-- Whether the double is a zero of either sign. -/
def isZero (d : Double) : Bool := d.mantissa == 0

/-- The double with the other sign. -/
def negate (d : Double) : Double := { d with negative := !d.negative }

/-- The exponent at which the fraction has an integral part of fifty-three bits, or the least one
if the fraction is smaller than that. -/
def exponentFor (num den : Nat) : Int :=
  let guess : Int := max minExponent (num.log2 - den.log2 - 53)
  let (n, d) := scaleByPow2 num den (-guess)
  if n / d < mantissaBound then guess else guess + 1

/-- The double nearest to a fraction; `none` beyond the largest one. -/
def ofFraction? (negative : Bool) (num den : Nat) : Option Double :=
  let e := exponentFor num den
  let (n, d) := scaleByPow2 num den (-e)
  let m := roundHalfEven n d
  let rounded : Double :=
    if m = mantissaBound then ⟨negative, mantissaBound / 2, e + 1⟩ else ⟨negative, m, e⟩
  if rounded.exponent ≤ maxExponent then some rounded else none

/-- The absolute value as a fraction. -/
def toFraction (d : Double) : Nat × Nat := scaleByPow2 d.mantissa 1 d.exponent

/-- The product, rounded. -/
def mul? (a b : Double) : Option Double :=
  let (n, d) := a.toFraction
  let (n', d') := b.toFraction
  ofFraction? (a.negative != b.negative) (n * n') (d * d')

/-- The quotient by a double other than zero, rounded. -/
def div? (a b : Double) : Option Double :=
  let (n, d) := a.toFraction
  let (n', d') := b.toFraction
  ofFraction? (a.negative != b.negative) (n * d') (d * n')

/-- The double nearest to a natural number below `2 ^ 1024`, and the greatest beyond. -/
def ofNat (n : Nat) : Double :=
  (ofFraction? false n 1).getD ⟨false, mantissaBound - 1, maxExponent⟩

end Double

end Switchboard.Numeric
