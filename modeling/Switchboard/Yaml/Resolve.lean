import Switchboard.Json.Reader
import Switchboard.Text.Utf8
import Switchboard.Yaml.Tree

/-!
# `Switchboard.Yaml.Resolve`: what scalars stand for

A plain scalar without a tag stands for null, a truth value, a number or, where it looks like none
of these, for its text. The tags of the core schema ask for one kind; all other scalars are texts.

Integers are decimal, or hexadecimal, octal or binary behind `0x`, `0o` and `0b`, with a sign or
without. Digits behind a leading zero are no number. Integers that need more than sixty-four but no
more than 128 bits stand for nothing at all; beyond that, decimal ones are read as doubles. A double
that is not finite stands for null where it is written by name, and is no number otherwise.

A mapping that starts with the name `Json.embeddedName` has no other pair and stands for the value
that the scalar in it spells as a JSON text.
-/

set_option autoImplicit false

namespace Switchboard.Yaml

open Numeric Json

/-- Whether a text is one of some words. -/
def isOneOf (words : List String) (text : List Char) : Bool := words.any (·.toList == text)

/-- The words for null. -/
def isNull : List Char → Bool := isOneOf ["null", "Null", "NULL", "~"]

/-- The words for a truth value. -/
def bool? (text : List Char) : Option Bool :=
  if isOneOf ["true", "True", "TRUE"] text then some true
  else if isOneOf ["false", "False", "FALSE"] text then some false
  else none

/-- The text behind a beginning. -/
def behind? (beginning : String) (text : List Char) : Option (List Char) :=
  if beginning.toList.isPrefixOf text then some (text.drop beginning.length) else none

/-- The value of a digit in a base. -/
def digit? (base : Nat) (c : Char) : Option Nat :=
  match hexValue? c with
  | some n => if n < base then some n else none
  | none => none

/-- The number that one or more digits spell. -/
def number? (base : Nat) (digits : List Char) : Option Nat :=
  if digits.isEmpty then none
  else digits.foldlM (fun n c => (digit? base c).map (n * base + ·)) 0

/-- The text without a plus sign before it. -/
def withoutPlus (text : List Char) : List Char := (behind? "+" text).getD text

/-- Whether a sign stands first. -/
def startsWithSign (text : List Char) : Bool := text.head?.any fun c => c == '+' || c == '-'

/-- Whether a text is a zero with further digits behind it, with a sign or without. -/
def hasLeadingZero (text : List Char) : Bool :=
  let digits := if startsWithSign text then text.tail else text
  1 < digits.length && digits.head? == some '0' && digits.all Char.isDigit

/-- The bases that are named by a beginning. -/
def bases : List (String × Nat) := [("0x", 16), ("0o", 8), ("0b", 2)]

/-- A number at most as large as a bound. -/
def atMost (bound : Nat) (n : Nat) : Option Nat := if n ≤ bound then some n else none

/-- The natural number up to a bound that a text spells. -/
def unsigned? (bound : Nat) (text : List Char) : Option Nat :=
  let positive := withoutPlus text
  let based := bases.findSome? fun (beginning, base) =>
    (behind? beginning positive).bind fun digits => (number? base digits).bind (atMost bound)
  match based with
  | some n => some n
  | none =>
    if startsWithSign positive || hasLeadingZero text then none
    else (number? 10 positive).bind (atMost bound)

/-- The absolute value up to a bound of the negative number that a text spells. -/
def negative? (bound : Nat) (text : List Char) : Option Nat :=
  let based := bases.findSome? fun (beginning, base) =>
    (behind? ("-" ++ beginning) text).bind fun digits =>
      (number? base digits).bind (atMost bound)
  match based with
  | some n => some n
  | none =>
    if hasLeadingZero text then none
    else (behind? "-" text).bind fun digits => (number? 10 digits).bind (atMost bound)

/-- What a text is as an integer. -/
inductive IntegerReading
  | fits (value : Int)
  | tooWide
  | none
deriving DecidableEq, Repr

/-- How many integers 128 bits can tell apart. -/
def doubleWord : Nat := UInt64.size * UInt64.size

/-- Reads a text as an integer. -/
def integer (text : List Char) : IntegerReading :=
  match unsigned? (UInt64.size - 1) text, negative? (UInt64.size / 2) text with
  | some n, _ => .fits n
  | _, some n => .fits (-n)
  | _, _ =>
    if (unsigned? (doubleWord - 1) text).isSome || (negative? (doubleWord / 2) text).isSome then
      .tooWide
    else .none

/-- What a text is as a double. -/
inductive DoubleReading
  | finite (value : Double)
  /-- One of the names of infinity and of what is not a number. -/
  | named
  | none
deriving DecidableEq, Repr

/-- The digits of a decimal number with an exponent. -/
structure DecimalText where
  digits : List Char
  exponent : Int
deriving Repr

/-- Takes apart a decimal number without its sign: digits with or without a point, at least one of
them, and perhaps an exponent. -/
def decimalText? (text : List Char) : Option DecimalText :=
  let whole := text.takeWhile Char.isDigit
  let rest := text.dropWhile Char.isDigit
  let (fraction, rest) :=
    match rest with
    | '.' :: rest => (rest.takeWhile Char.isDigit, rest.dropWhile Char.isDigit)
    | _ => ([], rest)
  let digits := whole ++ fraction
  if digits.isEmpty then none
  else
    match rest with
    | [] => some ⟨digits, -fraction.length⟩
    | mark :: exponent =>
      if mark != 'e' && mark != 'E' then none
      else
        let unsigned := if startsWithSign exponent then exponent.tail else exponent
        (number? 10 unsigned).map fun n =>
          let e : Int := if exponent.head? == some '-' then -n else n
          ⟨digits, e - fraction.length⟩

/-- The double nearest to a decimal number; `none` beyond the largest one. Numbers far outside the
range of doubles are settled by their magnitude. -/
def DecimalText.nearest? (text : DecimalText) (negative : Bool) : Option Double :=
  let digits := text.digits.dropWhile (· == '0')
  let magnitude : Int := digits.length + text.exponent
  if digits.isEmpty || magnitude < -400 then some (.zero negative)
  else if 400 < magnitude then none
  else
    let n := (number? 10 digits).getD 0
    if 0 ≤ text.exponent then Double.ofFraction? negative (n * Nat.pow 10 text.exponent.toNat) 1
    else Double.ofFraction? negative n (Nat.pow 10 (-text.exponent).toNat)

/-- Reads a text as a double. -/
def double (text : List Char) : DoubleReading :=
  let positive := withoutPlus text
  if text.head? == some '+' && startsWithSign positive then .none
  else if isOneOf [".inf", ".Inf", ".INF"] positive then .named
  else if isOneOf ["-.inf", "-.Inf", "-.INF", ".nan", ".NaN", ".NAN"] text then .named
  else
    let negative := positive.head? == some '-'
    let unsigned := if negative then positive.tail else positive
    match (decimalText? unsigned).bind fun decimal => decimal.nearest? negative with
    | some value => .finite value
    | none => .none

/-- The value of an integer that fits. -/
def IntegerReading.value? : IntegerReading → Option Value
  | .fits n => (Number.ofInt? n).map .number
  | .tooWide | .none => Option.none

/-- The value of a double: one without a finite value is null. -/
def DoubleReading.value? : DoubleReading → Option Value
  | .finite value => some (.number (.float value))
  | .named => some .null
  | .none => Option.none

/-- A text as a value. -/
def textValue (text : List Char) : Value := .string (String.ofList text)

/-- The value of a plain scalar without a tag. -/
def plainValue? (text : List Char) : Option Value :=
  if text.isEmpty || isNull text then some .null
  else
    match bool? text with
    | some value => some (.bool value)
    | none =>
      match integer text with
      | .fits n => (Number.ofInt? n).map .number
      | .tooWide => none
      | .none =>
        let reading := if hasLeadingZero text then .none else double text
        some (reading.value?.getD (textValue text))

/-- A tag of the core schema in full. -/
def coreTag (name : String) : TagBytes := coreTagStart ++ Scan.asciiBytes name.toList

/-- Whether a tag starts with an exclamation mark. -/
def isMarkedTag (tag : TagBytes) : Bool := tag.head? == some 0x21

/-- The name of a tag of the document's own making. One whose bytes are no text has none. -/
def localName? (tag : TagBytes) : Option (List Char) :=
  if isMarkedTag tag then (Text.Utf8.decode tag.tail).toOption else none

/-- Whether a tag is of the document's own making. -/
def isLocalTag (tag : TagBytes) : Bool := (localName? tag).isSome

/-- The value of a scalar; tags of the document's own making stand for nothing. -/
def Scalar.value? (scalar : Scalar) : Option Value :=
  let text := scalar.text
  let untagged := if scalar.style = .plain then plainValue? text else some (textValue text)
  match scalar.properties.tag with
  | none => untagged
  | some tag =>
    if isLocalTag tag then none
    else if isMarkedTag tag then untagged
    else if tag == coreTag "bool" then (bool? text).map .bool
    else if tag == coreTag "int" then (integer text).value?
    else if tag == coreTag "float" then (double text).value?
    else if tag == coreTag "null" then if isNull text then some .null else none
    else some (textValue text)

/-- Whether a scalar reads as nothing at all. -/
def Scalar.isAbsent (scalar : Scalar) : Bool := scalar.text.isEmpty && scalar.style == .plain

/-- Whether the pairs of a mapping embed a JSON text. -/
def embedsText : List (Tree × Tree) → Bool
  | (.scalar name, _) :: _ => name.text == embeddedName.toList
  | _ => false

/-- The value of an embedded JSON text, given the pairs of its mapping. -/
def embedded? : List (Tree × Tree) → Option Value
  | [(_, .scalar written)] => (Value.parse written.text).toOption
  | _ => none

mutual

/-- The value of a document. Keys are texts, and of two equal ones the later counts. -/
def value? : Tree → Option Value
  | .scalar scalar => scalar.value?
  | .sequence properties items =>
    if properties.tag.any isLocalTag then none else (values? items).map .array
  | .mapping properties pairs =>
    if properties.tag.any isLocalTag then none
    else if embedsText pairs then embedded? pairs
    else (members? pairs).map Value.ofMembers

/-- The values of the items of a sequence. -/
def values? : List Tree → Option (List Value)
  | [] => some []
  | item :: rest => do
    let value ← value? item
    let values ← values? rest
    some (value :: values)

/-- The members that the pairs of a mapping stand for. -/
def members? : List (Tree × Tree) → Option (List (String × Value))
  | [] => some []
  | (.scalar name, value) :: rest => do
    let value ← value? value
    let members ← members? rest
    some ((String.ofList name.text, value) :: members)
  | (_, _) :: _ => none

end

end Switchboard.Yaml
