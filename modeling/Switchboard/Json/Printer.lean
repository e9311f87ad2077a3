import Switchboard.Json.Quoted
import Switchboard.Json.Value

/-!
# `Switchboard.Json.Printer`: values as compact text

No blanks are written. `Value.text` writes a value, and `memberText` is shared with the records
that write their members in an order of their own.
-/

set_option autoImplicit false

namespace Switchboard.Json

/-- A member of an object, given the text of its value. -/
def memberText (name : String) (value : List Char) : List Char :=
  quote name.toList ++ ':' :: value

/-- An object, given the texts of its members. -/
def objectText (members : List (List Char)) : List Char :=
  '\x7b' :: (List.intercalate [','] members ++ ['\x7d'])

mutual

/-- The compact text of a value. -/
def Value.text : Value → List Char
  | .null => ['n', 'u', 'l', 'l']
  | .bool true => ['t', 'r', 'u', 'e']
  | .bool false => ['f', 'a', 'l', 's', 'e']
  | .number value => value.text
  | .string text => quote text.toList
  | .array items => '[' :: (List.intercalate [','] (itemTexts items) ++ [']'])
  | .object members => objectText (memberTexts members)

/-- The texts of the items of an array. -/
def itemTexts : List Value → List (List Char)
  | [] => []
  | item :: rest => item.text :: itemTexts rest

/-- The texts of the members of an object. -/
def memberTexts : List (String × Value) → List (List Char)
  | [] => []
  | (name, value) :: rest => memberText name value.text :: memberTexts rest

end

/-- The compact text of a value as a string. -/
def Value.compact (value : Value) : String := String.ofList value.text

end Switchboard.Json
