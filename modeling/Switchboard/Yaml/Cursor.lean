/-!
# `Switchboard.Yaml.Cursor`: a place in a YAML text

A `Cursor` is the rest of a text with the line and column at which it starts. This module also
holds the character classes of the format and the two ways to move on: along a line, and over the
end of a line, which may be a carriage return and a line feed together.
-/

set_option autoImplicit false

namespace Switchboard.Yaml

/-- Whether a text may hold a character at all. -/
def isAllowed (c : Char) : Bool :=
  let n := c.toNat
  n == 0x09 || n == 0x0A || n == 0x0D || (0x20 ≤ n && n ≤ 0x7E) || n == 0x85 ||
    (0xA0 ≤ n && n ≤ 0xFFFD) || 0x10000 ≤ n

/-- A space or a tab. -/
def isBlank (c : Char) : Bool := c == ' ' || c == '\t'

/-- A character that ends a line. -/
def isBreak (c : Char) : Bool :=
  c == '\n' || c == '\r' || c == '\u0085' || c == '\u2028' || c == '\u2029'

/-- The mark that may stand at the start of any line and is passed over there. -/
def byteOrderMark : Char := '\ufeff'

/-- The number of bytes that a text takes in UTF-8. -/
def byteLength (text : List Char) : Nat := text.foldl (fun size c => size + c.utf8Size) 0

/-- A character that may stand in the name of an anchor, a tag handle or a directive. -/
def isWordChar (c : Char) : Bool := c.isAlphanum || c == '_' || c == '-'

/-- Whether nothing follows, or a character that ends a line. -/
def endsLine (next : Option Char) : Bool := next.all isBreak

/-- Whether nothing follows, or a blank, or a character that ends a line. -/
def endsWord (next : Option Char) : Bool := next.all fun c => isBlank c || isBreak c

/-- A place in a text. -/
structure Cursor where
  rest : List Char
  /-- Number of bytes before it. -/
  index : Nat
  line : Nat
  /-- Number of characters before it on its line. -/
  column : Nat
deriving Repr

namespace Cursor

/-- The start of a text. -/
def start (text : List Char) : Cursor := ⟨text, 0, 0, 0⟩

/-- The character at the cursor. -/
def peek (cursor : Cursor) : Option Char := cursor.rest.head?

/-- The character some places on. -/
def peekAt (cursor : Cursor) (n : Nat) : Option Char := cursor.rest[n]?

/-- Moves along the line. -/
def skip (cursor : Cursor) (n : Nat) : Cursor :=
  { cursor with
    rest := cursor.rest.drop n
    index := cursor.index + byteLength (cursor.rest.take n)
    column := cursor.column + n }

/-- Splits off the characters of a class that holds no line ends. -/
def takeWhile (cursor : Cursor) (p : Char → Bool) : List Char × Cursor :=
  let taken := cursor.rest.takeWhile p
  (taken, cursor.skip taken.length)

/-- Moves on for as long as characters belong to a class that holds no line ends. -/
def skipWhile (cursor : Cursor) (p : Char → Bool) : Cursor := (cursor.takeWhile p).2

/-- Moves over the end of a line, and tells how it reads: as a line feed, except for the two
separators that stand for themselves. -/
def newline (cursor : Cursor) : List Char × Cursor :=
  let past (text : List Char) (n : Nat) : List Char × Cursor :=
    (text, ⟨cursor.rest.drop n, cursor.index + byteLength (cursor.rest.take n), cursor.line + 1, 0⟩)
  match cursor.rest with
  | '\r' :: '\n' :: _ => past ['\n'] 2
  | '\u2028' :: _ => past ['\u2028'] 1
  | '\u2029' :: _ => past ['\u2029'] 1
  | c :: _ => if isBreak c then past ['\n'] 1 else ([], cursor)
  | [] => ([], cursor)

/-- Moves over a byte order mark at the start of a line. -/
def skipMark (cursor : Cursor) : Cursor :=
  if cursor.column == 0 && cursor.peek == some byteOrderMark then cursor.skip 1 else cursor

/-- Moves over a comment, if one starts here, to the end of its line. -/
def skipComment (cursor : Cursor) : Cursor :=
  if cursor.peek == some '#' then cursor.skipWhile fun c => !isBreak c else cursor

/-- Whether three equal characters that mark the bounds of a document stand at the start of a
line. -/
def atMarker (cursor : Cursor) (c : Char) : Bool :=
  cursor.column == 0 && cursor.rest.take 3 == [c, c, c] && endsWord (cursor.peekAt 3)

/-- Whether a document starts or ends here. -/
def atBound (cursor : Cursor) : Bool := cursor.atMarker '-' || cursor.atMarker '.'

end Cursor

end Switchboard.Yaml
