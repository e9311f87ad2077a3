import Switchboard.Yaml.Cursor

/-!
# `Switchboard.Yaml.Scalar`: scalars and their spellings

A scalar is written plainly, between single or double quotes, or as a block that keeps or folds its
lines. Each reader below starts at the first character of a scalar and gives its text and the place
behind it, or nothing if the scalar is ill-formed.

Inside a plain or quoted scalar line ends fold: one becomes a space, of several the first is
dropped. Blanks around them are dropped too.
-/

set_option autoImplicit false

namespace Switchboard.Yaml

/-- How a scalar is written. -/
inductive Style
  | plain
  | quoted
  | literal
  | folded
deriving DecidableEq, Repr

/-- What stands between two words of a flow scalar. -/
structure Gap where
  /-- The blanks, if the line does not end. -/
  blanks : List Char := []
  /-- Whether the line ends. -/
  broken : Bool := false
  /-- The first line end, as it reads. -/
  firstBreak : List Char := []
  /-- The line ends behind the first. -/
  moreBreaks : List Char := []
deriving Repr

namespace Gap

/-- What a gap adds to the text around it. -/
def text (gap : Gap) : List Char :=
  if !gap.broken then gap.blanks
  else if gap.firstBreak == ['\n'] then
    if gap.moreBreaks.isEmpty then [' '] else gap.moreBreaks
  else gap.firstBreak ++ gap.moreBreaks

/-- Reads on through blanks and line ends. On a new line no tab may stand left of `margin`. -/
def read (margin : Nat) : (fuel : Nat) → Gap → Cursor → Option (Gap × Cursor)
  | 0, _, _ => none
  | fuel + 1, gap, cursor =>
    match cursor.peek with
    | none => some (gap, cursor)
    | some c =>
      if isBlank c then
        if gap.broken then
          if c == '\t' && cursor.column < margin then none
          else read margin fuel gap (cursor.skip 1)
        else read margin fuel { gap with blanks := gap.blanks ++ [c] } (cursor.skip 1)
      else if isBreak c then
        let (ending, cursor) := cursor.newline
        if gap.broken then
          read margin fuel { gap with moreBreaks := gap.moreBreaks ++ ending } cursor
        else read margin fuel { broken := true, firstBreak := ending } cursor
      else some (gap, cursor)

end Gap

/-! ### Plain scalars -/

/-- The marks of flow collections. -/
def isFlowMark (c : Char) : Bool := c == ',' || c == '[' || c == ']' || c == '\x7b' || c == '\x7d'

/-- Splits off the characters up to the next blank, line end or mark that ends a plain scalar. A
colon ends it if a word ends there, and may not stand directly before a mark in a flow
collection. -/
def plainRun (inFlow : Bool) : List Char → Option (List Char)
  | [] => some []
  | c :: rest =>
    if isBlank c || isBreak c then some []
    else if inFlow && c == ':' && rest.head?.any (fun d => isFlowMark d || d == '?') then none
    else if (c == ':' && endsWord rest.head?) || (inFlow && isFlowMark c) then some []
    else (plainRun inFlow rest).map (c :: ·)

/-- A plain scalar, the place where reading stopped, and whether that is on a later line than its
last word. -/
structure Plain where
  text : List Char
  cursor : Cursor
  broken : Bool
deriving Repr

/-- Reads a plain scalar on behind `text` and a gap. Outside flow collections it goes on for as long
as lines are indented to the margin. -/
def readPlainFrom (inFlow : Bool) (margin : Nat) :
    (fuel : Nat) → List Char → Gap → Cursor → Option Plain
  | 0, _, _, _ => none
  | fuel + 1, text, gap, cursor =>
    let stop : Option Plain := some ⟨text, cursor, gap.broken⟩
    if cursor.atBound || cursor.peek == some '#' then stop
    else do
      let run ← plainRun inFlow cursor.rest
      if run.isEmpty then stop
      else
        let text := text ++ gap.text ++ run
        let behind := cursor.skip run.length
        let (gap, after) ← Gap.read margin (cursor.rest.length + 1) {} behind
        -- No gap at all, or one that leads out of the collection around the scalar.
        if after.index == behind.index || (!inFlow && after.column < margin) then
          some ⟨text, after, gap.broken⟩
        else readPlainFrom inFlow margin fuel text gap after

/-- Reads a plain scalar. -/
def readPlain (inFlow : Bool) (margin : Nat) (cursor : Cursor) : Option Plain :=
  readPlainFrom inFlow margin (cursor.rest.length + 1) [] {} cursor

/-! ### Quoted scalars -/

/-- The characters that an escape of one letter stands for. -/
def letterEscape? : Char → Option Char
  | '0' => some '\x00'
  | 'a' => some '\x07'
  | 'b' => some '\x08'
  | 't' => some '\t'
  | '\t' => some '\t'
  | 'n' => some '\n'
  | 'v' => some '\x0b'
  | 'f' => some '\x0c'
  | 'r' => some '\r'
  | 'e' => some '\x1b'
  | ' ' => some ' '
  | '"' => some '"'
  | '/' => some '/'
  | '\\' => some '\\'
  | 'N' => some '\u0085'
  | '_' => some '\u00a0'
  | 'L' => some '\u2028'
  | 'P' => some '\u2029'
  | _ => none

/-- How many hexadecimal digits follow the letter of a numeric escape. -/
def numericEscape? : Char → Option Nat
  | 'x' => some 2
  | 'u' => some 4
  | 'U' => some 8
  | _ => none

/-- The value of a hexadecimal digit. -/
def hexValue? (c : Char) : Option Nat :=
  if c.isDigit then some (c.toNat - '0'.toNat)
  else if 'a' ≤ c && c ≤ 'f' then some (c.toNat - 'a'.toNat + 10)
  else if 'A' ≤ c && c ≤ 'F' then some (c.toNat - 'A'.toNat + 10)
  else none

/-- The number that hexadecimal digits spell. -/
def hexNumber? (digits : List Char) : Option Nat :=
  digits.foldlM (fun n c => (hexValue? c).map (n * 16 + ·)) 0

/-- The character of a number, which may not be half of a surrogate pair. -/
def charOfNumber? (n : Nat) : Option Char :=
  if h : n.isValidChar then some (Char.ofNatAux n h) else none

/-- Reads the escape behind a backslash: the character, and how long the escape is. -/
def readEscape (text : List Char) : Option (Char × Nat) :=
  match text with
  | [] => none
  | c :: rest =>
    match letterEscape? c with
    | some d => some (d, 1)
    | none => do
      let n ← numericEscape? c
      let digits := rest.take n
      if digits.length < n then none
      else
        let d ← charOfNumber? (← hexNumber? digits)
        some (d, n + 1)

/-- A run of characters inside quotes, and how it ends: at an escaped line end, or else at a blank,
a line end, the closing quote or the end of the text. -/
structure QuotedRun where
  text : List Char
  cursor : Cursor
  continued : Bool
deriving Repr

/-- Reads characters between quotes up to the next blank, line end or closing quote. Between single
quotes two of them stand for one, between double quotes a backslash escapes. -/
def readQuotedRun (quote : Char) : (fuel : Nat) → List Char → Cursor → Option QuotedRun
  | 0, _, _ => none
  | fuel + 1, text, cursor =>
    let stop : Option QuotedRun := some ⟨text, cursor, false⟩
    match cursor.rest with
    | [] => stop
    | c :: rest =>
      if isBlank c || isBreak c then stop
      else if c == '\'' && quote == '\'' && rest.head? == some '\'' then
        readQuotedRun quote fuel (text ++ ['\'']) (cursor.skip 2)
      else if c == quote then stop
      else if c == '\\' && quote == '"' then
        if rest.head?.any isBreak then some ⟨text, (cursor.skip 1).newline.2, true⟩
        else do
          let (d, n) ← readEscape rest
          readQuotedRun quote fuel (text ++ [d]) (cursor.skip (n + 1))
      else readQuotedRun quote fuel (text ++ [c]) (cursor.skip 1)

/-- Reads on behind the opening quote and `text`. A document may not start or end inside. -/
def readQuotedFrom (quote : Char) :
    (fuel : Nat) → List Char → Cursor → Option (List Char × Cursor)
  | 0, _, _ => none
  | fuel + 1, text, cursor =>
    if cursor.atBound || cursor.rest.isEmpty then none
    else do
      let run ← readQuotedRun quote (cursor.rest.length + 1) [] cursor
      if run.cursor.peek == some quote then some (text ++ run.text, run.cursor.skip 1)
      else
        let (gap, after) ←
          Gap.read 0 (cursor.rest.length + 1) { broken := run.continued } run.cursor
        readQuotedFrom quote fuel (text ++ run.text ++ gap.text) after

/-- Reads a quoted scalar from its opening quote on. -/
def readQuoted (quote : Char) (cursor : Cursor) : Option (List Char × Cursor) :=
  readQuotedFrom quote (cursor.rest.length + 1) [] (cursor.skip 1)

/-! ### Block scalars -/

/-- What becomes of the line ends at the end of a block. -/
inductive Chomping
  | strip
  | clip
  | keep
deriving DecidableEq, Repr

/-- What the first line of a block scalar says. -/
structure BlockHeader where
  chomping : Chomping := .clip
  /-- How much further than its surroundings the block is indented, if that is given. -/
  increment : Option Nat := none
deriving Repr

/-- The chomping that a sign asks for. -/
def chomping? : Option Char → Option Chomping
  | some '+' => some .keep
  | some '-' => some .strip
  | _ => none

/-- Reads the signs behind the mark of a block scalar, in either order; the increment may not be
zero. -/
def readBlockHeader (cursor : Cursor) : Option (BlockHeader × Cursor) :=
  let increment (c : Option Char) : Option (Option Nat) :=
    match c with
    | some d =>
      if d == '0' then none
      else if d.isDigit then some (some (d.toNat - '0'.toNat))
      else some none
    | none => some none
  match chomping? cursor.peek with
  | some chomping => do
    let cursor := cursor.skip 1
    match ← increment cursor.peek with
    | some n => some (⟨chomping, some n⟩, cursor.skip 1)
    | none => some (⟨chomping, none⟩, cursor)
  | none => do
    match ← increment cursor.peek with
    | some n =>
      let cursor := cursor.skip 1
      match chomping? cursor.peek with
      | some chomping => some (⟨chomping, some n⟩, cursor.skip 1)
      | none => some (⟨.clip, some n⟩, cursor)
    | none => some ({}, cursor)

/-- Reads through the empty lines and the indentation before a line of a block, up to column
`indent` if that is known. Gives the line ends and the widest column seen. A tab may not stand in
the indentation. -/
def readIndentation (indent : Option Nat) :
    (fuel : Nat) → (widest : Nat) → List Char → Cursor → Option (List Char × Nat × Cursor)
  | 0, _, _, _ => none
  | fuel + 1, widest, breaks, cursor =>
    let within (cursor : Cursor) : Bool := indent.all fun n => cursor.column < n
    let spaces := (cursor.rest.takeWhile (· == ' ')).length
    let cursor :=
      match indent with
      | some n => cursor.skip (min spaces (n - cursor.column))
      | none => cursor.skip spaces
    let widest := max widest cursor.column
    match cursor.peek with
    | some '\t' => if within cursor then none else some (breaks, widest, cursor)
    | some c =>
      if isBreak c then
        let (ending, cursor) := cursor.newline
        readIndentation indent fuel widest (breaks ++ ending) cursor
      else some (breaks, widest, cursor)
    | none => some (breaks, widest, cursor)

/-- A block so far: its text, the line end that still has to be placed, the empty lines behind it,
and whether the last line started with a blank. -/
structure BlockText where
  text : List Char := []
  pending : List Char := []
  empties : List Char := []
  afterBlank : Bool := false
deriving Repr

/-- Puts what is pending before the next line. In a folded block the line feed between two lines
that do not start with a blank becomes a space, or nothing if empty lines stand between them. -/
def BlockText.join (block : BlockText) (folds startsBlank : Bool) : List Char :=
  if folds && block.pending == ['\n'] && !block.afterBlank && !startsBlank then
    (if block.empties.isEmpty then [' '] else []) ++ block.empties
  else block.pending ++ block.empties

/-- Reads the lines of a block that stand at column `indent`. -/
def readBlockLines (folds : Bool) (indent : Nat) :
    (fuel : Nat) → BlockText → Cursor → Option (BlockText × Cursor)
  | 0, _, _ => none
  | fuel + 1, block, cursor =>
    if cursor.column != indent || cursor.rest.isEmpty then some (block, cursor)
    else do
      let startsBlank := cursor.peek.any isBlank
      let (line, cursor) := cursor.takeWhile fun c => !isBreak c
      let text := block.text ++ block.join folds startsBlank ++ line
      let (pending, cursor) := cursor.newline
      let (empties, _, cursor) ←
        readIndentation (some indent) (cursor.rest.length + 1) 0 [] cursor
      readBlockLines folds indent fuel ⟨text, pending, empties, startsBlank⟩ cursor

/-- Reads a block scalar from its mark on, inside surroundings that are indented to `outer`, or not
at all. Where the increment is not given, the first line that is not empty sets the indentation. -/
def readBlock (folds : Bool) (outer : Option Nat) (cursor : Cursor) :
    Option (List Char × Cursor) := do
  let (header, cursor) ← readBlockHeader (cursor.skip 1)
  let cursor := (cursor.skipWhile isBlank).skipComment
  if !endsLine cursor.peek then none
  else
    let (_, cursor) := cursor.newline
    let given := header.increment.map (outer.getD 0 + ·)
    let (empties, widest, cursor) ← readIndentation given (cursor.rest.length + 1) 0 [] cursor
    let least := (outer.map (· + 1)).getD 0
    let indent := given.getD (max (max widest least) 1)
    let (block, cursor) ←
      readBlockLines folds indent (cursor.rest.length + 1) { empties } cursor
    let ending :=
      match header.chomping with
      | .strip => []
      | .clip => block.pending
      | .keep => block.pending ++ block.empties
    some (block.text ++ ending, cursor)

end Switchboard.Yaml
