import Switchboard.Json.Lexeme
import Switchboard.Numeric.Layout

/-!
# `Switchboard.Json.Number`: the numbers of a JSON text

An integer that fits sixty-four bits, with or without a sign, is exact. Every other number is a
double: one written with a fraction or an exponent, a longer integer, and the negative zero.

A double is read in two steps. The digits are gathered into a significand for as long as it stays
below `2 ^ 64`; the first digit that does not fit ends the gathering, and from there on digits
before the point only raise the power of ten and digits behind it are dropped. The significand is
then rounded to a double and multiplied or divided by the power of ten, each step rounding again,
so the result may differ from the nearest double in the last place. A result beyond the largest
double is refused.
-/

set_option autoImplicit false

namespace Switchboard.Json

open Numeric

/-- The least integer of sixty-four bits with a sign. -/
def leastInteger : Int := -9223372036854775808

/-- The greatest integer of sixty-four bits without a sign. -/
def greatestInteger : Int := 18446744073709551615

/-- A number of a JSON value. -/
inductive Number
  | integer (value : Int) (inRange : leastInteger ≤ value ∧ value ≤ greatestInteger)
  | float (value : Double)
deriving DecidableEq, Repr

namespace Number

/-- Doubles are written with the fewest digits, plainly from `10 ^ -5` up to below `10 ^ 16`. -/
def layout : Layout := ⟨-5, 16, ['e', '+'], ['e', '-']⟩

/-- The text of an integer. -/
def integerText (value : Int) : List Char :=
  (if value < 0 then ['-'] else []) ++ decimalDigits value.natAbs

/-- The text of a number. -/
def text : Number → List Char
  | integer value _ => integerText value
  | float value => layout.writeDouble value

/-- The number that is an integer, if it fits. -/
def ofInt? (value : Int) : Option Number :=
  if h : leastInteger ≤ value ∧ value ≤ greatestInteger then some (integer value h) else none

/-- The number that is a natural number below `2 ^ 64`. -/
def ofUInt64 (value : UInt64) : Number :=
  integer value.toNat (by
    have := value.toNat_lt
    unfold leastInteger greatestInteger
    omega)

/-- The number that counts something; counts stay below `2 ^ 64`. -/
def ofNat (value : Nat) : Number := ofUInt64 value.toUInt64

/-- The value of a digit. -/
def digitValue (c : Char) : Nat := c.toNat - '0'.toNat

/-- The natural number that digits spell. -/
def natOfDigits (digits : List Char) : Nat :=
  digits.foldl (fun n c => n * 10 + digitValue c) 0

/-- Digits gathered into a significand. -/
structure Gathered where
  significand : Nat
  /-- How many digits were taken in. -/
  taken : Nat
  /-- Whether a digit was refused because the significand would have left sixty-four bits. -/
  full : Bool
deriving Repr

/-- Gathers digits for as long as the significand stays below `2 ^ 64`. -/
def gather (significand : Nat) : List Char → Gathered
  | [] => ⟨significand, 0, false⟩
  | c :: rest =>
    let next := significand * 10 + digitValue c
    if next < UInt64.size then
      let gathered := gather next rest
      { gathered with taken := gathered.taken + 1 }
    else ⟨significand, 0, true⟩

/-- The powers of ten up to this one are doubles of their own. -/
def greatestPower : Nat := 308

/-- A power of ten as a double. -/
def powerOfTen (n : Nat) : Double := Double.ofNat (Nat.pow 10 n)

/-- A double divided by `10 ^ n`: by the greatest power as often as it fits, then by the rest.
Once zero is reached it stays. -/
def shrink (d : Double) (n : Nat) : Option Double :=
  let rec steps (d : Double) : Nat → Option Double
    | 0 => d.div? (powerOfTen (n - greatestPower * ((n - 1) / greatestPower)))
    | k + 1 => if d.isZero then some d else (d.div? (powerOfTen greatestPower)).bind (steps · k)
  steps d ((n - 1) / greatestPower)

/-- The double `significand · 10 ^ exponent` in the two steps that the module describes. -/
def scale? (significand : Nat) (exponent : Int) : Option Double :=
  let d := Double.ofNat significand
  if exponent < 0 then shrink d (-exponent).toNat
  else if exponent.toNat ≤ greatestPower then d.mul? (powerOfTen exponent.toNat)
  else if d.isZero then some d
  else none

/-- The digits of a number as written. -/
structure Parts where
  negative : Bool
  whole : List Char
  fraction? : Option (List Char)
  exponent? : Option Int
deriving Repr

/-- Takes apart a number as it is written. -/
def parts (written : List Char) : Parts :=
  let negative := written.head? == some '-'
  let text := if negative then written.tail else written
  let whole := text.takeWhile Char.isDigit
  let (fraction?, text) :=
    match text.dropWhile Char.isDigit with
    | '.' :: rest => (some (rest.takeWhile Char.isDigit), rest.dropWhile Char.isDigit)
    | rest => (none, rest)
  let exponent? : Option Int :=
    match text with
    | _ :: '-' :: digits => some (-(natOfDigits digits : Int))
    | _ :: '+' :: digits => some (natOfDigits digits)
    | _ :: digits => some (natOfDigits digits)
    | [] => none
  ⟨negative, whole, fraction?, exponent?⟩

/-- The double that the parts of a number spell. -/
def float? (parts : Parts) : Option Double :=
  let whole := gather 0 parts.whole
  let dropped : Int := parts.whole.length - whole.taken
  let fraction := gather whole.significand (parts.fraction?.getD [])
  let exponent := dropped - fraction.taken + parts.exponent?.getD 0
  (scale? fraction.significand exponent).map fun d => if parts.negative then d.negate else d

/-- The number that a lexeme spells; `none` if it lies beyond the largest double. -/
def ofWritten? (written : List Char) : Option Number :=
  let parts := parts written
  let size := natOfDigits parts.whole
  let value : Int := if parts.negative then -size else size
  -- The negative zero has no place among the integers.
  if parts.fraction?.isSome || parts.exponent?.isSome || (parts.negative && size == 0) then
    (float? parts).map float
  else
    match ofInt? value with
    | some number => some number
    | none => (float? parts).map float

end Number

end Switchboard.Json
