import Switchboard.Yaml.Resolve

/-!
# `Switchboard.Yaml.Record`: typed parts of a document

Readers for what a configuration is made of: texts, lists, tables and records with named fields. A
node that is left out reads as an empty list, table or record; `null` written out does not. Tags on
these are not looked at. A field that is not known, or that comes twice, is refused.
-/

set_option autoImplicit false

namespace Switchboard.Yaml

/-- How to read a part of a document. -/
abbrev Reader (α : Type) := Tree → Option α

namespace Reader

variable {α : Type}

/-- A text: that of any scalar as written. -/
def text : Reader String
  | .scalar scalar => some (String.ofList scalar.text)
  | _ => none

/-- A natural number up to a bound, written plainly or as a literal block with the tag of
integers. -/
def natural (bound : Nat) : Reader Nat
  | .scalar scalar =>
    let literal := scalar.style == .literal && scalar.properties.tag == some (coreTag "int")
    if scalar.style == .plain || literal then unsigned? bound scalar.text else none
  | _ => none

/-- A list. -/
def list (reader : Reader α) : Reader (List α)
  | .sequence _ items => items.mapM reader
  | .scalar scalar => if scalar.isAbsent then some [] else none
  | _ => none

/-- The entries of a table in order, each under the text of its key. -/
def entries : Reader (List (String × Tree))
  | .mapping _ pairs => pairs.mapM fun (key, value) => do some (← text key, value)
  | .scalar scalar => if scalar.isAbsent then some [] else none
  | _ => none

/-- A table of parts of one kind. -/
def table (reader : Reader α) : Reader (List (String × α)) := fun tree => do
  (← entries tree).mapM fun (name, value) => do some (name, ← reader value)

/-- One of some words, written as a scalar, or as the name of a tag on a plain scalar that is empty
or null. -/
def choice (words : List (String × α)) : Reader α
  | .scalar scalar =>
    let pick (name : List Char) : Option α :=
      (words.find? fun word => word.1.toList == name).map Prod.snd
    match scalar.properties.tag.bind localName? with
    | some name =>
      let bare := scalar.style == .plain && (scalar.text.isEmpty || isNull scalar.text)
      if bare then pick name else none
    | none => pick scalar.text
  | _ => none

/-- The fields of a record, all of them known and each given once. -/
def fields (known : List String) : Reader (List (String × Tree)) := fun tree => do
  let fields ← entries tree
  let names := fields.map Prod.fst
  if names.all known.contains && names.eraseDups.length == names.length then some fields else none

/-- A field that has to be given. -/
def must (name : String) (reader : Reader α) (fields : List (String × Tree)) : Option α :=
  (Json.Members.get? name fields).bind reader

/-- A field that may be left out. -/
def may (name : String) (reader : Reader α) (otherwise : α) (fields : List (String × Tree)) :
    Option α :=
  match Json.Members.get? name fields with
  | some tree => reader tree
  | none => some otherwise

end Reader

end Switchboard.Yaml
