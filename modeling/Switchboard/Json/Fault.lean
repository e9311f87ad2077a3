import Switchboard.Json.Value
import Switchboard.Text.Quoted

/-!
# `Switchboard.Json.Fault`: why a JSON text cannot be read as what was asked for

A text that breaks the grammar, nests too deeply or holds a number or string that stands for
nothing is `malformed`. The other faults are about the data: a well-formed part that is not what a
record has in its place.
-/

set_option autoImplicit false

namespace Switchboard.Json

open Numeric

/-- What was found in place of something else. Containers are named by their kind alone, since the
fault is noticed at their opening bracket. -/
inductive Found
  | null
  | bool (value : Bool)
  | number (value : Number)
  | string (text : String)
  | array
  | object
deriving DecidableEq, Repr

/-- A fault of a text, the first one in it. -/
inductive Fault
  | malformed
  | missingField (name : String)
  | unknownField (name : String) (known : List String)
  | duplicateField (name : String)
  | wrongType (found : Found) (expected : String)
  | outOfRange (value : Int) (expected : String)
  | wrongLength (length : Nat) (expected : String)
deriving DecidableEq, Repr

/-- A piece of text between grave accents. -/
def marked (text : String) : String := "\x60" ++ text ++ "\x60"

/-- What was found, in words. -/
def Found.message : Found → String
  | .null => "null"
  | .bool true => "boolean " ++ marked "true"
  | .bool false => "boolean " ++ marked "false"
  | .number (.integer value _) => "integer " ++ marked (String.ofList (Number.integerText value))
  | .number (.float value) =>
    "floating point " ++ marked (String.ofList (Number.layout.writeDouble value))
  | .string text => "string " ++ Text.quoted text
  | .array => "sequence"
  | .object => "map"

/-- The known fields, in words. -/
def knownMessage (known : List String) : String :=
  match known with
  | [] => "there are no fields"
  | [one] => "expected " ++ marked one
  | [one, other] => "expected " ++ marked one ++ " or " ++ marked other
  | many => "expected one of " ++ ", ".intercalate (many.map marked)

/-- The fault in words. -/
def Fault.message : Fault → String
  | .malformed => "syntax error"
  | .missingField name => "missing field " ++ marked name
  | .unknownField name known => "unknown field " ++ marked name ++ ", " ++ knownMessage known
  | .duplicateField name => "duplicate field " ++ marked name
  | .wrongType found expected => "invalid type: " ++ found.message ++ ", expected " ++ expected
  | .outOfRange value expected =>
    "invalid value: integer " ++ marked (String.ofList (Number.integerText value)) ++
      ", expected " ++ expected
  | .wrongLength length expected => s!"invalid length {length}, expected " ++ expected

end Switchboard.Json
