/-!
# `Switchboard.Text.Utf8`: bytes read as text

`decode` reads a byte string as UTF-8. Where that fails, the `Fault` says at which byte the first
character that cannot be read starts, and how many of its bytes belong together: the longest part
that starts a well-formed character and then breaks off. A text that ends inside a character has
no such length.
-/

set_option autoImplicit false

namespace Switchboard.Text.Utf8

/-- The first place where a byte string stops being UTF-8. -/
structure Fault where
  /-- Index of the byte at which the unreadable character starts. -/
  index : Nat
  /-- Bytes that belong to it; `none` if the string ends before the character does. -/
  length : Option Nat
deriving DecidableEq, Repr

/-- The fault in words. -/
def Fault.message (fault : Fault) : String :=
  match fault.length with
  | some n => s!"invalid utf-8 sequence of {n} bytes from index {fault.index}"
  | none => s!"incomplete utf-8 byte sequence from index {fault.index}"

/-- The values, first and last, that one byte of a character may take. -/
structure Span where
  low : UInt8
  high : UInt8
deriving DecidableEq, Repr

/-- Whether a byte lies in the span. -/
def Span.holds (span : Span) (b : UInt8) : Bool := span.low ≤ b && b ≤ span.high

/-- Any continuation byte. -/
def Span.continuation : Span := ⟨0x80, 0xBF⟩

/-- What a first byte announces: the spans of the bytes that have to follow and the high bits of
the code point. The narrower second spans shut out overlong forms, surrogates and code points
beyond the last plane. -/
def lead? (b : UInt8) : Option (List Span × Nat) :=
  if b < 0x80 then some ([], b.toNat)
  else if 0xC2 ≤ b && b ≤ 0xDF then some ([.continuation], b.toNat % 0x20)
  else if 0xE0 ≤ b && b ≤ 0xEF then
    let second : Span :=
      if b = 0xE0 then ⟨0xA0, 0xBF⟩ else if b = 0xED then ⟨0x80, 0x9F⟩ else .continuation
    some ([second, .continuation], b.toNat % 0x10)
  else if 0xF0 ≤ b && b ≤ 0xF4 then
    let second : Span :=
      if b = 0xF0 then ⟨0x90, 0xBF⟩ else if b = 0xF4 then ⟨0x80, 0x8F⟩ else .continuation
    some ([second, .continuation, .continuation], b.toNat % 0x08)
  else none

/-- Reads on from inside a character that started at byte `index`: `seen` of its bytes are read,
`due` are the spans of those to come, `code` the bits so far. With `due = []` a new character
starts at `index`. -/
def decodeFrom (index seen : Nat) (due : List Span) (code : Nat) :
    List UInt8 → Except Fault (List Char)
  | [] => if due.isEmpty then .ok [] else .error ⟨index, none⟩
  | b :: rest =>
    match due with
    | [] =>
      match lead? b with
      | none => .error ⟨index, some 1⟩
      | some ([], code) => (Char.ofNat code :: ·) <$> decodeFrom (index + 1) 0 [] 0 rest
      | some (due, code) => decodeFrom index 1 due code rest
    | span :: due =>
      if span.holds b then
        let code := code * 0x40 + b.toNat % 0x40
        if due.isEmpty then
          (Char.ofNat code :: ·) <$> decodeFrom (index + seen + 1) 0 [] 0 rest
        else decodeFrom index (seen + 1) due code rest
      else .error ⟨index, some seen⟩

/-- The text that a byte string spells in UTF-8, or its first fault. -/
def decode (bytes : List UInt8) : Except Fault (List Char) := decodeFrom 0 0 [] 0 bytes

end Switchboard.Text.Utf8
