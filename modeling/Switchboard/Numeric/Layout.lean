import Switchboard.Numeric.Shortest

/-!
# `Switchboard.Numeric.Layout`: decimals as text

A decimal `d.ddd · 10 ^ e` is written out with a point if `e` lies in a range, and with a point and
an exponent otherwise. A `Layout` holds the range and the spellings.
-/

set_option autoImplicit false

namespace Switchboard.Numeric

/-- The decisions of a number format. -/
structure Layout where
  /-- Least exponent written out. -/
  leastPlain : Int
  /-- First exponent no longer written out. -/
  plainEnd : Int
  /-- What introduces an exponent that is not negative. -/
  positiveMark : List Char
  /-- What introduces a negative exponent. -/
  negativeMark : List Char
deriving Repr

/-- The digits of a natural number in base ten. -/
def decimalDigits (n : Nat) : List Char := Nat.toDigits 10 n

/-- Digits with a point behind the first `whole` of them, zeros filled in on either side and at
least one digit on both. -/
def withPoint (digits : List Char) (whole : Int) : List Char :=
  if whole ≤ 0 then ['0', '.'] ++ List.replicate (-whole).toNat '0' ++ digits
  else
    let n := whole.toNat
    let head := digits.take n ++ List.replicate (n - digits.length) '0'
    let tail := digits.drop n
    head ++ ['.'] ++ if tail.isEmpty then ['0'] else tail

/-- The scientific form: one digit, the others behind a point, and the exponent. -/
def Layout.scientific (layout : Layout) (digits : List Char) (e : Int) : List Char :=
  let mantissa :=
    match digits with
    | [] => []
    | [d] => [d]
    | d :: rest => d :: '.' :: rest
  mantissa ++ (if e < 0 then layout.negativeMark else layout.positiveMark) ++
    decimalDigits e.natAbs

/-- A decimal in a layout. -/
def Layout.write (layout : Layout) (x : Decimal) : List Char :=
  let digits := decimalDigits x.digits
  let e : Int := if x.digits = 0 then 0 else x.exponent + digits.length - 1
  if layout.leastPlain ≤ e && e < layout.plainEnd then withPoint digits (e + 1)
  else layout.scientific digits e

/-- A double in a layout, with the fewest digits and a sign also before zero. -/
def Layout.writeDouble (layout : Layout) (d : Double) : List Char :=
  (if d.negative then ['-'] else []) ++ layout.write d.shortest

end Switchboard.Numeric
