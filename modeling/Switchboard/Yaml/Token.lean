import Switchboard.Yaml.Scalar

/-!
# `Switchboard.Yaml.Token`: the words of a YAML text

`Token.ofText?` cuts a text into tokens. Indentation becomes brackets of its own: a block collection
opens where a line stands further right than its surroundings, and closes where one stands further
left.

Whether a node is the key of a mapping shows only at the colon behind it. A `Place` is therefore
kept before every node that may turn out to be a key, and filled when the colon comes. A node that
has to be a key, because it stands at the indentation of a block mapping, must be followed by its
colon on the same line and within 1024 bytes.

A tag is a string of bytes, not of characters, since escapes may spell any bytes in it.
-/

set_option autoImplicit false

namespace Switchboard.Yaml

/-- A tag or a part of one. It holds no zero byte: one that is written ends it. -/
abbrev TagBytes := List UInt8

/-- The words of a text. -/
inductive Token
  | version (major minor : Nat)
  /-- Declares what a tag handle stands for. -/
  | handle (name : List Char) (stands : TagBytes)
  | documentStart
  | documentEnd
  | blockSequenceStart
  | blockMappingStart
  | blockEnd
  | flowSequenceStart
  | flowSequenceEnd
  | flowMappingStart
  | flowMappingEnd
  | blockEntry
  | flowEntry
  | key
  | value
  | aliasOf (name : List Char)
  | anchor (name : List Char)
  | tag (handle : List Char) (suffix : TagBytes)
  | scalar (text : List Char) (style : Style)
deriving DecidableEq, Repr

/-- Tokens, and between them the numbered places before nodes that may be keys. -/
inductive Piece
  | token (token : Token)
  | place (number : Nat)
deriving Repr

/-- A node that may turn out to be a key. -/
structure Candidate where
  place : Nat
  required : Bool
  index : Nat
  line : Nat
  column : Nat
deriving Repr

/-- The state in which a text is cut into tokens. -/
structure Scan where
  cursor : Cursor
  /-- The columns of the open block collections, innermost first. -/
  indents : List Nat := []
  /-- Whether a key may start here. -/
  keyAllowed : Bool := true
  /-- The candidate outside flow collections. -/
  blockKey : Option Candidate := none
  /-- One entry for each open flow collection, innermost first: its candidate. -/
  flowKeys : List (Option Candidate) := []
  /-- Last ones first. -/
  pieces : List Piece := []
  /-- How many places were kept. -/
  places : Nat := 0
  /-- What the filled places hold. -/
  filled : List (Nat × List Token) := []
deriving Repr

namespace Scan

/-- Whether a flow collection is open. -/
def inFlow (scan : Scan) : Bool := !scan.flowKeys.isEmpty

/-- The state with a token added. -/
def push (scan : Scan) (token : Token) : Scan :=
  { scan with pieces := .token token :: scan.pieces }

/-- The state with keys allowed or not. -/
def allowKey (scan : Scan) (allowed : Bool) : Scan := { scan with keyAllowed := allowed }

/-- The state at another place of the text. -/
def moveTo (scan : Scan) (cursor : Cursor) : Scan := { scan with cursor }

/-- The candidate of the innermost collection. -/
def candidate (scan : Scan) : Option Candidate :=
  match scan.flowKeys with
  | [] => scan.blockKey
  | key :: _ => key

/-- Replaces the candidate of the innermost collection. -/
def setCandidate (scan : Scan) (key : Option Candidate) : Scan :=
  match scan.flowKeys with
  | [] => { scan with blockKey := key }
  | _ :: rest => { scan with flowKeys := key :: rest }

/-- Gives up the candidate of the innermost collection; one that has to be a key may not be given
up. -/
def dropCandidate (scan : Scan) : Option Scan :=
  match scan.candidate with
  | some key => if key.required then none else some (scan.setCandidate none)
  | none => some scan

/-- How many bytes behind its start the colon of a key may stand. -/
def keyReach : Nat := 1024

/-- Gives up a candidate whose colon can no longer come. -/
def refresh (cursor : Cursor) (key : Option Candidate) : Option (Option Candidate) :=
  match key with
  | none => some none
  | some k =>
    if k.line < cursor.line || k.index + keyReach < cursor.index then
      if k.required then none else some none
    else some (some k)

/-- Gives up all candidates whose colon can no longer come. -/
def refreshCandidates (scan : Scan) : Option Scan := do
  let blockKey ← refresh scan.cursor scan.blockKey
  let flowKeys ← scan.flowKeys.mapM (refresh scan.cursor)
  some { scan with blockKey, flowKeys }

/-- Keeps a place before a node that starts here, if a key may. -/
def keepPlace (scan : Scan) : Option Scan :=
  if !scan.keyAllowed then some scan
  else do
    let cursor := scan.cursor
    let required := !scan.inFlow && scan.indents.head? == some cursor.column
    let scan ← scan.dropCandidate
    let key : Candidate := ⟨scan.places, required, cursor.index, cursor.line, cursor.column⟩
    let kept := scan.setCandidate (some key)
    some { kept with pieces := .place scan.places :: scan.pieces, places := scan.places + 1 }

/-- Whether a column lies right of the innermost block collection. -/
def isDeeper (scan : Scan) (column : Nat) : Bool := scan.indents.head?.all (· < column)

/-- Opens a block collection at a column right of the innermost one; does nothing in a flow
collection. -/
def indentTo (scan : Scan) (column : Nat) (opening : Token) : Scan :=
  if !scan.inFlow && scan.isDeeper column then
    { scan with indents := column :: scan.indents }.push opening
  else scan

/-- Closes the block collections right of a column, or all of them. -/
def closeBlocks (column : Option Nat) : List Nat → List Piece → List Nat × List Piece
  | [], pieces => ([], pieces)
  | indent :: outer, pieces =>
    if column.all (· < indent) then closeBlocks column outer (.token .blockEnd :: pieces)
    else (indent :: outer, pieces)

/-- Closes the block collections right of a column, or all of them; does nothing in a flow
collection. -/
def dedentTo (scan : Scan) (column : Option Nat) : Scan :=
  if scan.inFlow then scan
  else
    let (indents, pieces) := closeBlocks column scan.indents scan.pieces
    { scan with indents, pieces }

/-- Moves to the next token. A new line allows a key again outside flow collections, and where one
is allowed there a tab may not stand before it. -/
def skipGap : (fuel : Nat) → Scan → Scan
  | 0, scan => scan
  | fuel + 1, scan =>
    let mayTab := scan.inFlow || !scan.keyAllowed
    let cursor := scan.cursor.skipMark.skipWhile fun c => c == ' ' || (mayTab && c == '\t')
    let cursor := cursor.skipComment
    if cursor.peek.any isBreak then
      skipGap fuel
        { scan with cursor := cursor.newline.2, keyAllowed := scan.keyAllowed || !scan.inFlow }
    else scan.moveTo cursor

/-! ### Single tokens -/

/-- Adds a token of some characters. -/
def mark (scan : Scan) (token : Token) (length : Nat) : Scan :=
  (scan.push token).moveTo (scan.cursor.skip length)

/-- Reads a number of at most nine digits. -/
def readNumber (cursor : Cursor) : Option (Nat × Cursor) :=
  let (digits, cursor) := cursor.takeWhile Char.isDigit
  if digits.isEmpty || 9 < digits.length then none
  else some (digits.foldl (fun n c => n * 10 + (c.toNat - '0'.toNat)) 0, cursor)

/-- The characters of a tag beside those of words; the last three only where no flow collection
could be meant. -/
def isTagChar (wide : Bool) (c : Char) : Bool :=
  isWordChar c || ";/?:@&=+$.%!~*'()".toList.contains c || (wide && ",[]".toList.contains c)

/-- How many bytes have to follow the first byte of an escaped character. -/
def escapedTail? (byte : UInt8) : Option Nat :=
  if byte < 0x80 then some 0
  else if 0xC0 ≤ byte && byte < 0xE0 then some 1
  else if 0xE0 ≤ byte && byte < 0xF0 then some 2
  else if 0xF0 ≤ byte && byte < 0xF8 then some 3
  else none

/-- Reads the bytes of a tag, `due` of which have to go on a character that was begun. Escapes have
to have the form of characters, but may spell one in more bytes than it needs. -/
def tagBytes? (due : Nat) : List Char → Option TagBytes
  | [] => if due = 0 then some [] else none
  | '%' :: a :: b :: rest => do
    let byte := (UInt8.ofNat ((← hexValue? a) * 16 + (← hexValue? b)))
    match due with
    | 0 => (tagBytes? (← escapedTail? byte) rest).map (byte :: ·)
    | due + 1 => if 0x80 ≤ byte && byte < 0xC0 then (tagBytes? due rest).map (byte :: ·) else none
  | c :: rest =>
    if c = '%' || due ≠ 0 then none else (tagBytes? 0 rest).map (c.val.toUInt8 :: ·)

/-- The bytes up to the first zero. -/
def endAtZero (bytes : TagBytes) : TagBytes := bytes.takeWhile (· != 0)

/-- Reads the characters of a tag. -/
def readTagBytes (wide : Bool) (cursor : Cursor) : Option (TagBytes × Cursor) := do
  let (written, cursor) := cursor.takeWhile (isTagChar wide)
  some (endAtZero (← tagBytes? 0 written), cursor)

/-- Reads the characters of a tag, at least one of them. -/
def readSomeTagBytes (wide : Bool) (cursor : Cursor) : Option (TagBytes × Cursor) :=
  if cursor.peek.any (isTagChar wide) then readTagBytes wide cursor else none

/-- The bytes of characters that are all ASCII. -/
def asciiBytes (text : List Char) : TagBytes := text.map fun c => c.val.toUInt8

/-- Reads a tag handle: an exclamation mark, and perhaps a word and a second one. -/
def readHandle (cursor : Cursor) : Option (List Char × Cursor) :=
  if cursor.peek != some '!' then none
  else
    let (word, cursor) := (cursor.skip 1).takeWhile isWordChar
    if cursor.peek == some '!' then some ('!' :: word ++ ['!'], cursor.skip 1)
    else some ('!' :: word, cursor)

/-- Reads a directive from its percent sign on: a version or the meaning of a tag handle. -/
def readDirective (cursor : Cursor) : Option (Token × Cursor) := do
  let (name, cursor) := (cursor.skip 1).takeWhile isWordChar
  if !endsWord cursor.peek then none
  else
    let cursor := cursor.skipWhile isBlank
    let (token, cursor) ←
      if name == "YAML".toList then do
        let (major, cursor) ← readNumber cursor
        if cursor.peek != some '.' then none
        else
          let (minor, cursor) ← readNumber (cursor.skip 1)
          some (.version major minor, cursor)
      else if name == "TAG".toList then do
        let (handle, cursor) ← readHandle cursor
        if handle.length != 1 && handle.getLast? != some '!' then none
        else if !cursor.peek.any isBlank then none
        else
          let (stands, cursor) ← readSomeTagBytes true (cursor.skipWhile isBlank)
          if endsWord cursor.peek then some (Token.handle handle stands, cursor) else none
      else none
    let cursor := (cursor.skipWhile isBlank).skipComment
    if endsLine cursor.peek then some (token, cursor.newline.2) else none

/-- Reads the name of an anchor or alias behind its mark. -/
def readName (cursor : Cursor) : Option (List Char × Cursor) :=
  let (name, cursor) := (cursor.skip 1).takeWhile isWordChar
  let bounded := endsWord cursor.peek || cursor.peek.any fun c => "?:,]\x7d%@\x60".toList.contains c
  if name.isEmpty || !bounded then none else some (name, cursor)

/-- Reads a tag: between angle brackets as it stands, or a handle and a suffix. A tag of the single
exclamation mark has no handle. -/
def readTag (inFlow : Bool) (cursor : Cursor) : Option (Token × Cursor) := do
  let (token, cursor) ←
    if cursor.peekAt 1 == some '<' then do
      let (suffix, cursor) ← readSomeTagBytes true (cursor.skip 2)
      if cursor.peek == some '>' then some (Token.tag [] suffix, cursor.skip 1) else none
    else do
      let (handle, after) ← readHandle cursor
      if handle.length != 1 && handle.getLast? == some '!' then
        let (suffix, after) ← readSomeTagBytes false after
        some (Token.tag handle suffix, after)
      else
        let (rest, after) ← readTagBytes false after
        let suffix := asciiBytes handle.tail ++ rest
        if suffix.isEmpty then some (Token.tag [] (asciiBytes ['!']), after)
        else some (Token.tag ['!'] suffix, after)
  if endsWord cursor.peek || (inFlow && cursor.peek == some ',') then some (token, cursor)
  else none

/-- Whether a plain scalar starts with these characters. -/
def startsPlain (inFlow : Bool) (c : Char) (next : Option Char) : Bool :=
  if isBlank c then false
  else if c == '-' then !next.any isBlank
  else if c == '?' || c == ':' then !inFlow && !endsWord next
  else !",[]\x7b\x7d#&*!|>'\"%@\x60".toList.contains c

/-- Starts a flow collection. -/
def openFlow (scan : Scan) (token : Token) : Option Scan := do
  let scan ← scan.keepPlace
  some ({ scan with flowKeys := none :: scan.flowKeys, keyAllowed := true }.mark token 1)

/-- Ends a flow collection. -/
def closeFlow (scan : Scan) (token : Token) : Option Scan := do
  let scan ← scan.dropCandidate
  some ({ scan with flowKeys := scan.flowKeys.tail, keyAllowed := false }.mark token 1)

/-- Starts or ends a document. -/
def bound (scan : Scan) (token : Token) : Option Scan := do
  let scan ← (scan.dedentTo none).dropCandidate
  some ((scan.allowKey false).mark token 3)

/-- Reads an entry mark of a block collection, which opens the collection where it stands. -/
def entry (scan : Scan) (opening token : Token) (keyNext : Bool) : Option Scan :=
  if !scan.inFlow && !scan.keyAllowed then none
  else do
    let scan ← (scan.indentTo scan.cursor.column opening).dropCandidate
    some ((scan.allowKey keyNext).mark token 1)

/-- Reads the colon before a value. If a candidate waits for it, its place is filled with the start
of a key, and of a block mapping if the key stands right of all open ones. -/
def colon (scan : Scan) : Option Scan :=
  match scan.candidate with
  | some key =>
    -- The mapping opens where its first key stands, not where the colon does.
    let opens := !scan.inFlow && scan.isDeeper key.column
    let scan := scan.setCandidate none
    let indents := if opens then key.column :: scan.indents else scan.indents
    let tokens := if opens then [.blockMappingStart, .key] else [.key]
    some ({ scan with
      indents
      filled := (key.place, tokens) :: scan.filled
      keyAllowed := false }.mark .value 1)
  | none =>
    -- A value without a key, as behind an explicit key mark.
    if !scan.inFlow && !scan.keyAllowed then none
    else
      let scan := scan.indentTo scan.cursor.column .blockMappingStart
      some ((scan.allowKey (!scan.inFlow)).mark .value 1)

/-- Adds a token before which a place is kept. -/
def node (scan : Scan) (read : Cursor → Option (Token × Cursor)) : Option Scan := do
  let scan ← scan.keepPlace
  let (token, cursor) ← read scan.cursor
  some (((scan.allowKey false).push token).moveTo cursor)

/-- Adds a plain scalar. One that was read on to a later line allows a key there. -/
def plain (scan : Scan) : Option Scan := do
  let scan ← scan.keepPlace
  let margin := (scan.indents.head?.map (· + 1)).getD 0
  let plain ← readPlain scan.inFlow margin scan.cursor
  some (((scan.allowKey plain.broken).push (.scalar plain.text .plain)).moveTo plain.cursor)

/-- Adds a block scalar. -/
def block (scan : Scan) (style : Style) : Option Scan := do
  let scan ← scan.dropCandidate
  let (text, cursor) ← readBlock (style == .folded) scan.indents.head? scan.cursor
  some (((scan.allowKey true).push (.scalar text style)).moveTo cursor)

/-- Reads the token that starts with a character. -/
def token (scan : Scan) (c : Char) : Option Scan :=
  let cursor := scan.cursor
  let next := cursor.peekAt 1
  if cursor.column == 0 && c == '%' then do
    let scan ← (scan.dedentTo none).dropCandidate
    let (token, cursor) ← readDirective cursor
    some (((scan.allowKey false).push token).moveTo cursor)
  else if cursor.atMarker '-' then scan.bound .documentStart
  else if cursor.atMarker '.' then scan.bound .documentEnd
  else if c == '[' then scan.openFlow .flowSequenceStart
  else if c == '\x7b' then scan.openFlow .flowMappingStart
  else if c == ']' then scan.closeFlow .flowSequenceEnd
  else if c == '\x7d' then scan.closeFlow .flowMappingEnd
  else if c == ',' then do
    let scan ← scan.dropCandidate
    some ((scan.allowKey true).mark .flowEntry 1)
  else if c == '-' && endsWord next then scan.entry .blockSequenceStart .blockEntry true
  else if c == '?' && (scan.inFlow || endsWord next) then
    scan.entry .blockMappingStart .key (!scan.inFlow)
  else if c == ':' && (scan.inFlow || endsWord next) then scan.colon
  else if c == '*' then
    scan.node fun cursor => (readName cursor).map fun (name, after) => (.aliasOf name, after)
  else if c == '&' then
    scan.node fun cursor => (readName cursor).map fun (name, after) => (.anchor name, after)
  else if c == '!' then scan.node (readTag scan.inFlow)
  else if c == '|' && !scan.inFlow then scan.block .literal
  else if c == '>' && !scan.inFlow then scan.block .folded
  else if c == '\'' || c == '"' then
    scan.node fun cursor =>
      (readQuoted c cursor).map fun (text, after) => (.scalar text .quoted, after)
  else if startsPlain scan.inFlow c next then scan.plain
  else none

/-- Reads all tokens from a state on. -/
def run : (fuel : Nat) → Scan → Option Scan
  | 0, _ => none
  | fuel + 1, scan => do
    let scan ← (skipGap (scan.cursor.rest.length + 1) scan).refreshCandidates
    match scan.cursor.peek with
    | none => (scan.dedentTo none).dropCandidate
    | some c =>
      let scan ← (scan.dedentTo (some scan.cursor.column)).token c
      run fuel scan

/-- The tokens read, with what the filled places hold. -/
def tokens (scan : Scan) : List Token :=
  scan.pieces.reverse.flatMap fun piece =>
    match piece with
    | .token token => [token]
    | .place number =>
      ((scan.filled.find? fun entry => entry.1 == number).map Prod.snd).getD []

end Scan

/-- The tokens of a text, or nothing if it is ill-formed. -/
def Token.ofText? (text : List Char) : Option (List Token) :=
  if text.all isAllowed then
    (Scan.run (text.length + 2) { cursor := .start text }).map Scan.tokens
  else none

end Switchboard.Yaml
