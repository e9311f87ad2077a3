import Switchboard.Json.Reader

/-!
# `Switchboard.Json.Record`: records with named fields

A `Shape` lists the fields of a record in order. A record is read from an object, with its members
in any order, or from an array of its fields in the listed order, in which fields at the end that
are not required may be left out. In an object a name that comes twice is a fault, and so is one
that is not listed if the shape is strict; otherwise such a member is skipped.
-/

set_option autoImplicit false

namespace Switchboard.Json

/-- A field of a record. -/
structure Field (ρ : Type) where
  name : String
  required : Bool
  /-- Reads the field's value and puts it into a record. -/
  read : Reader (ρ → ρ)

/-- The fields of a record. -/
structure Shape (ρ : Type) where
  /-- What the record is called where something else is found. -/
  title : String
  fields : List (Field ρ)
  /-- Whether members that are not listed are refused. -/
  strict : Bool
  /-- The record before any field is read. -/
  blank : ρ

namespace Field

variable {ρ α : Type}

/-- A field that must be given. -/
def must (name : String) (reader : Reader α) (put : α → ρ → ρ) : Field ρ :=
  ⟨name, true, fun room outline => put <$> reader room outline⟩

/-- A field that may be left out. -/
def may (name : String) (reader : Reader α) (put : α → ρ → ρ) : Field ρ :=
  ⟨name, false, fun room outline => put <$> reader room outline⟩

end Field

namespace Shape

variable {ρ : Type}

/-- The field of a name. -/
def field? (shape : Shape ρ) (name : String) : Option (Field ρ) :=
  shape.fields.find? fun field => field.name == name

/-- A record that is being read from an object, and the fields that were given. -/
structure Partial (ρ : Type) where
  record : ρ
  given : List String

/-- Reads one member. -/
def readMember (shape : Shape ρ) (room : Nat) (done : Partial ρ) (member : List Char × Outline) :
    Except Fault (Partial ρ) := do
  let name ← readInside member.1
  match shape.field? name with
  | some field =>
    if done.given.contains name then .error (.duplicateField name)
    else
      let put ← field.read room member.2
      .ok ⟨put done.record, name :: done.given⟩
  | none =>
    if shape.strict then .error (.unknownField name (shape.fields.map Field.name))
    else
      Reader.skip room member.2
      .ok done

/-- The record once all members are read; the first required field that is missing is a fault. -/
def finish (shape : Shape ρ) (done : Partial ρ) : Except Fault ρ :=
  match shape.fields.find? fun field => field.required && !done.given.contains field.name with
  | some field => .error (.missingField field.name)
  | none => .ok done.record

/-- Reads the fields in order from the items of an array, `index` of which are read. -/
def readItems (shape : Shape ρ) (room : Nat) (closed : Bool) (record : ρ) (index : Nat) :
    List (Field ρ) → List Outline → Except Fault ρ
  | [], [] => if closed then .ok record else .error .malformed
  | [], _ :: _ => .error .malformed
  | field :: fields, item :: items => do
    let put ← field.read room item
    readItems shape room closed (put record) (index + 1) fields items
  | field :: fields, [] =>
    if !closed then .error .malformed
    else if field.required then
      .error (.wrongLength index s!"{shape.title} with {shape.fields.length} elements")
    else readItems shape room closed record (index + 1) fields []

/-- Reads a record. -/
def read (shape : Shape ρ) : Reader ρ := fun room outline =>
  match outline with
  | .object members source? =>
    match room with
    | 0 => .error .malformed
    | room + 1 => do
      let done ← members.foldlM (shape.readMember room) ⟨shape.blank, []⟩
      requireClosed source?
      shape.finish done
  | .array items source? =>
    match room with
    | 0 => .error .malformed
    | room + 1 => shape.readItems room source?.isSome shape.blank 0 shape.fields items
  | other => .error (Reader.refuse shape.title other)

end Shape

end Switchboard.Json
