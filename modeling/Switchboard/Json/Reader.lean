import Switchboard.Json.Fault
import Switchboard.Json.Outline
import Switchboard.Json.Quoted

/-!
# `Switchboard.Json.Reader`: values and texts read from an outline

A `Reader` turns an outline into something typed or gives the first fault that stands in the way,
in the order of the text. Containers may nest only so deep: a reader is given the number of levels
that are still allowed, and one that enters a container passes on one less.

Where any value may stand, a text may be embedded instead: an object that starts with a member of
the name `embeddedName` stands for the value that the string in this member spells. The embedded
text is read as a text of its own, with all levels of nesting allowed again, and may itself embed
another (`Value.parseWithin`).
-/

set_option autoImplicit false

namespace Switchboard.Json

/-- How to read a value of one kind, given the levels of nesting still allowed. -/
abbrev Reader (α : Type) := Nat → Outline → Except Fault α

/-- The levels of nesting allowed in one text. -/
def maxNesting : Nat := 127

/-- The text that the inside of a string stands for. -/
def readInside (inside : List Char) : Except Fault String :=
  match unquote? inside with
  | some text => .ok (String.ofList text)
  | none => .error .malformed

/-- The value of a scalar. -/
def Scalar.toValue : Scalar → Except Fault Value
  | .null => .ok .null
  | .bool value => .ok (.bool value)
  | .number written =>
    match Number.ofWritten? written with
    | some read => .ok (.number read)
    | none => .error .malformed
  | .string inside => Value.string <$> readInside inside

/-- Refuses a container that breaks off before its closing bracket. -/
def requireClosed (source? : Option (List Lexeme)) : Except Fault Unit :=
  if source?.isSome then .ok () else .error .malformed

namespace Reader

variable {α : Type}

/-- The fault of a value that is not of the expected kind. A scalar is read first, so that one that
stands for nothing is malformed. -/
def refuse (expected : String) : Outline → Fault
  | .scalar .null => .wrongType .null expected
  | .scalar (.bool value) => .wrongType (.bool value) expected
  | .scalar (.number written) =>
    match Number.ofWritten? written with
    | some number => .wrongType (.number number) expected
    | none => .malformed
  | .scalar (.string inside) =>
    match readInside inside with
    | .ok text => .wrongType (.string text) expected
    | .error fault => fault
  | .array _ _ => .wrongType .array expected
  | .object _ _ => .wrongType .object expected
  | .broken => .malformed

/-- Reads a value and passes it through a function. -/
def map {β : Type} (f : α → β) (reader : Reader α) : Reader β := fun room outline =>
  f <$> reader room outline

/-- A string, which a fault calls by the given words. -/
def stringAs (expected : String) : Reader String := fun _ outline =>
  match outline with
  | .scalar (.string inside) => readInside inside
  | other => .error (refuse expected other)

/-- A string. -/
def string : Reader String := stringAs "a string"

/-- An integer of sixty-four bits with a sign. -/
def int64 : Reader Int64 := fun _ outline =>
  match outline with
  | .scalar (.number written) =>
    match Number.ofWritten? written with
    | some (.integer value _) =>
      if value ≤ Int64.maxValue.toInt then .ok (Int64.ofInt value)
      else .error (.outOfRange value "i64")
    | _ => .error (refuse "i64" outline)
  | other => .error (refuse "i64" other)

/-- The text of a value as it is written, which has to be grammatical and no more. -/
def sourceText : Reader (List Char) := fun _ outline =>
  match outline.text? with
  | some text => .ok text
  | none => .error .malformed

/-- Anything grammatical, which is then forgotten. -/
def skip : Reader Unit := fun room outline => (fun _ => ()) <$> sourceText room outline

/-- A value that may be null instead. -/
def optional (reader : Reader α) : Reader (Option α) := fun room outline =>
  match outline with
  | .scalar .null => .ok none
  | other => some <$> reader room other

/-- A list of values of one kind. -/
def list (reader : Reader α) : Reader (List α) := fun room outline =>
  match outline with
  | .array items source? =>
    match room with
    | 0 => .error .malformed
    | room + 1 => do
      let values ← items.mapM (reader room)
      requireClosed source?
      .ok values
  | other => .error (refuse "a sequence" other)

/-- Reads a whole text. -/
def run (reader : Reader α) (text : List Char) : Except Fault α :=
  let document := Document.ofText text
  match reader maxNesting document.root with
  | .ok value => if document.alone then .ok value else .error .malformed
  | .error fault => .error fault

end Reader

/-- The name of a member that embeds a text. It counts only where it comes first in an object,
and then the object has no other member. -/
def embeddedName : String := "$serde_json::private::RawValue"

/-- Whether the members of an object embed a text. -/
def isEmbedding : List (List Char × Outline) → Bool
  | [] => false
  | (name, _) :: _ => unquote? name == some embeddedName.toList

/-- Reads the members of an object that embeds a text, given how to read that text. -/
def readEmbedded (readText : List Char → Except Fault Value) (room : Nat) :
    List (List Char × Outline) → Except Fault Value
  | [] => .error .malformed
  | (_, value) :: rest => do
    let text ← Reader.stringAs "raw value" room value
    let value ← readText text.toList
    if rest.isEmpty then .ok value else .error .malformed

mutual

/-- Reads any value, given how to read an embedded text. -/
def Outline.toValueWith (readText : List Char → Except Fault Value) (room : Nat) :
    Outline → Except Fault Value
  | .scalar value => value.toValue
  | .array items source? =>
    match room with
    | 0 => .error .malformed
    | room + 1 => do
      let values ← toValuesWith readText room items
      requireClosed source?
      .ok (.array values)
  | .object members source? =>
    match room with
    | 0 => .error .malformed
    | room + 1 => do
      let value ←
        if isEmbedding members then readEmbedded readText room members
        else Value.ofMembers <$> toMembersWith readText room members
      requireClosed source?
      .ok value
  | .broken => .error .malformed

/-- Reads the items of an array. -/
def toValuesWith (readText : List Char → Except Fault Value) (room : Nat) :
    List Outline → Except Fault (List Value)
  | [] => .ok []
  | item :: rest => do
    let value ← item.toValueWith readText room
    let values ← toValuesWith readText room rest
    .ok (value :: values)

/-- Reads the members of an object. -/
def toMembersWith (readText : List Char → Except Fault Value) (room : Nat) :
    List (List Char × Outline) → Except Fault (List (String × Value))
  | [] => .ok []
  | (name, value) :: rest => do
    let name ← readInside name
    let value ← value.toValueWith readText room
    let members ← toMembersWith readText room rest
    .ok ((name, value) :: members)

end

/-- The value that a text spells, in which so many texts may be embedded one inside the other. -/
def Value.parseWithin : Nat → List Char → Except Fault Value
  | 0, _ => .error .malformed
  | fuel + 1, text =>
    Reader.run (fun room outline => outline.toValueWith (parseWithin fuel) room) text

/-- The value that a text spells. An embedded text is shorter than the text around it, so that its
length bounds how many there are. -/
def Value.parse (text : List Char) : Except Fault Value := Value.parseWithin (text.length + 1) text

/-- Any value. -/
def Reader.value : Reader Value := fun room outline => outline.toValueWith Value.parse room

end Switchboard.Json
