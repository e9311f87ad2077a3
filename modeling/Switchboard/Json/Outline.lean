import Switchboard.Json.Lexeme

/-!
# `Switchboard.Json.Outline`: the structure of a JSON text

An `Outline` is the tree that a sequence of lexemes spells, up to its first fault. A container
whose closing bracket was reached holds the lexemes that it was read from, so that its text can be
given back; one that breaks off before it holds none, and a value that is missing altogether is
`broken`. A reader that walks the tree in order therefore meets the first fault of the text in the
place where the text has it.

The tree is built lexeme by lexeme on a stack of open containers (`Builder.step`), which needs no
bound on the nesting.
-/

set_option autoImplicit false

namespace Switchboard.Json

/-- A value of a JSON text as far as it can be read. Names and scalars are as written. -/
inductive Outline
  | scalar (value : Scalar)
  | array (items : List Outline) (source? : Option (List Lexeme))
  | object (members : List (List Char × Outline)) (source? : Option (List Lexeme))
  | broken
deriving Repr

/-- The text of a value, if it was read to its end. -/
def Outline.text? : Outline → Option (List Char)
  | .scalar value => some value.source
  | .array _ source? => source?.map sourceText
  | .object _ source? => source?.map sourceText
  | .broken => none

/-- A container that has not been closed: its lexemes and its contents so far, last ones first. -/
inductive Frame
  | array (source : List Lexeme) (items : List Outline)
  | object (source : List Lexeme) (members : List (List Char × Outline))
  /-- An object in which a member's name has been read and its value has not. -/
  | member (source : List Lexeme) (members : List (List Char × Outline)) (name : List Char)
deriving Repr

/-- What the next lexeme has to be. -/
inductive Due
  | value
  | valueOrClose
  | name
  | nameOrClose
  | colon
  | commaOrClose
deriving DecidableEq, Repr

/-- The state in which a text is read: the open containers, innermost first, and what is due. -/
structure Builder where
  frames : List Frame
  due : Due
deriving Repr

/-- What a lexeme leads to. -/
inductive Progress
  | more (builder : Builder)
  | finished (root : Outline)
  | fault
deriving Repr

namespace Frame

/-- The frame with a lexeme added to its source. -/
def note (lexeme : Lexeme) : Frame → Frame
  | array source items => array (lexeme :: source) items
  | object source members => object (lexeme :: source) members
  | member source members name => member (lexeme :: source) members name

/-- The frame with a finished value and the lexemes that spell it, last one first. -/
def put (value : Outline) (spelling : List Lexeme) : Frame → Frame
  | array source items => array (spelling ++ source) (value :: items)
  | object source members => object (spelling ++ source) members
  | member source members name => object (spelling ++ source) ((name, value) :: members)

/-- The container as far as it was read when the text broke off, given the value that broke off
inside it. -/
def abandon (inner : Option Outline) : Frame → Outline
  | array _ items => .array (inner.toList ++ items).reverse none
  | object _ members => .object members.reverse none
  | member _ members name => .object ((name, inner.getD .broken) :: members).reverse none

end Frame

namespace Builder

/-- Before the first lexeme. -/
def start : Builder := ⟨[], .value⟩

/-- Hands a finished value, spelled by the given lexemes, to the innermost open container. -/
def deliver (frames : List Frame) (value : Outline) (spelling : List Lexeme) : Progress :=
  match frames with
  | [] => .finished value
  | frame :: outer => .more ⟨frame.put value spelling :: outer, .commaOrClose⟩

/-- Reads the start of a value. -/
def beginValue (frames : List Frame) (lexeme : Lexeme) : Progress :=
  match lexeme.token with
  | .scalar value => deliver frames (.scalar value) [lexeme]
  | .openArray => .more ⟨.array [lexeme] [] :: frames, .valueOrClose⟩
  | .openObject => .more ⟨.object [lexeme] [] :: frames, .nameOrClose⟩
  | _ => .fault

/-- Closes the innermost container if the lexeme is its closing bracket. -/
def close (frames : List Frame) (lexeme : Lexeme) : Progress :=
  match lexeme.token, frames with
  | .closeArray, .array source items :: outer =>
    let source := lexeme :: source
    deliver outer (.array items.reverse (some source.reverse)) source
  | .closeObject, .object source members :: outer =>
    let source := lexeme :: source
    deliver outer (.object members.reverse (some source.reverse)) source
  | _, _ => .fault

/-- Reads the name of a member. -/
def beginMember (frames : List Frame) (lexeme : Lexeme) : Progress :=
  match lexeme.token, frames with
  | .scalar (.string name), .object source members :: outer =>
    .more ⟨.member (lexeme :: source) members name :: outer, .colon⟩
  | _, _ => .fault

/-- Goes on to the next item or member. -/
def separate (frames : List Frame) (lexeme : Lexeme) : Progress :=
  match frames with
  | .array source items :: outer => .more ⟨.array (lexeme :: source) items :: outer, .value⟩
  | .object source members :: outer => .more ⟨.object (lexeme :: source) members :: outer, .name⟩
  | _ => .fault

/-- Reads one lexeme. -/
def step (builder : Builder) (lexeme : Lexeme) : Progress :=
  let frames := builder.frames
  match builder.due, lexeme.token with
  -- A closing bracket is in order right behind the opening one, but not behind a comma.
  | .value, _ => beginValue frames lexeme
  | .valueOrClose, .closeArray => close frames lexeme
  | .valueOrClose, _ => beginValue frames lexeme
  | .nameOrClose, .closeObject => close frames lexeme
  | .nameOrClose, _ => beginMember frames lexeme
  | .name, _ => beginMember frames lexeme
  | .colon, .colon =>
    match frames with
    | frame :: outer => .more ⟨frame.note lexeme :: outer, .value⟩
    | [] => .fault
  | .colon, _ => .fault
  | .commaOrClose, .comma => separate frames lexeme
  | .commaOrClose, _ => close frames lexeme

/-- The tree as far as it was read when the text broke off. An array in which an item is due gets
none: the array itself breaks off there. -/
def abandon (builder : Builder) : Outline :=
  match builder.frames with
  | [] => .broken
  | frame :: outer =>
    outer.foldl (fun inner frame => frame.abandon (some inner)) (frame.abandon none)

end Builder

/-- A text that should hold one value: the value, and whether nothing but blanks follows it. -/
structure Document where
  root : Outline
  alone : Bool
deriving Repr

namespace Document

/-- Reads lexemes from a state on. -/
def readFrom (builder : Builder) (complete : Bool) : List Lexeme → Document
  | [] => ⟨builder.abandon, false⟩
  | lexeme :: rest =>
    match builder.step lexeme with
    | .more builder => readFrom builder complete rest
    | .finished root => ⟨root, rest.isEmpty && complete⟩
    | .fault => ⟨builder.abandon, false⟩

/-- The structure of a text. -/
def ofText (text : List Char) : Document :=
  let lexing := lex text
  readFrom .start lexing.complete lexing.lexemes

end Document

end Switchboard.Json
