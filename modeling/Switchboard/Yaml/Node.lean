import Switchboard.Yaml.Token

/-!
# `Switchboard.Yaml.Node`: the document of a YAML text

A node is a scalar, a sequence, a mapping, or an alias, which stands for a node elsewhere.
`Node.ofText?` reads a text that holds at most one document; a text without any reads as the empty
scalar.

The grammar is read by recursive descent over the tokens. A node that is left out reads as the empty
plain scalar.
-/

set_option autoImplicit false

namespace Switchboard.Yaml

/-- What may be said about a node before its content. -/
structure Properties where
  anchor : Option (List Char) := none
  tag : Option TagBytes := none
deriving DecidableEq, Repr

/-- A scalar. -/
structure Scalar where
  text : List Char
  style : Style
  properties : Properties := {}
deriving DecidableEq, Repr

/-- A node, in which an alias names its target by an `α`. -/
inductive Node (α : Type)
  | scalar (scalar : Scalar)
  | sequence (properties : Properties) (items : List (Node α))
  | mapping (properties : Properties) (pairs : List (Node α × Node α))
  | aliasOf (target : α)
deriving Repr

/-- What tag handles stand for. -/
abbrev Handles := List (List Char × TagBytes)

/-- What stands before the names of the tags that every document knows. -/
def coreTagStart : TagBytes := Scan.asciiBytes "tag:yaml.org,2002:".toList

/-- The handles that need no declaration. -/
def defaultHandles : Handles := [(['!'], Scan.asciiBytes ['!']), (['!', '!'], coreTagStart)]

namespace Node

/-- A node in which an alias gives the name of an anchor. -/
abbrev Named := Node (List Char)

/-- The node that is left out. -/
def empty : Named := scalar ⟨[], .plain, {}⟩

/-- A tag in full; a handle that is not declared stands for nothing. -/
def fullTag? (handles : Handles) (handle : List Char) (suffix : TagBytes) : Option TagBytes :=
  if handle.isEmpty then some suffix
  else (handles.find? fun entry => entry.1 == handle).map fun entry => entry.2 ++ suffix

/-- Reads the properties of a node, in either order. -/
def properties (handles : Handles) : List Token → Option (Properties × List Token)
  | .anchor anchor :: .tag handle suffix :: rest => do
    some (⟨some anchor, some (← fullTag? handles handle suffix)⟩, rest)
  | .tag handle suffix :: .anchor anchor :: rest => do
    some (⟨some anchor, some (← fullTag? handles handle suffix)⟩, rest)
  | .anchor anchor :: rest => some (⟨some anchor, none⟩, rest)
  | .tag handle suffix :: rest => do
    some (⟨none, some (← fullTag? handles handle suffix)⟩, rest)
  | rest => some ({}, rest)

/-- Where a node stands: in a block collection, as the key or value of a block mapping, where the
entries of a sequence need no indentation, or in a flow collection. -/
inductive Position
  | block
  | indentless
  | flow
deriving DecidableEq, Repr

/-- Whether the next token is one of a kind. -/
def nextIs (kind : Token → Bool) (tokens : List Token) : Bool := tokens.head?.any kind

/-- Tokens at which an entry of a block sequence is left out. -/
def endsEntry : Token → Bool
  | .blockEntry | .blockEnd => true
  | _ => false

/-- Tokens at which a key or value of a block mapping is left out. -/
def endsPart : Token → Bool
  | .key | .value | .blockEnd => true
  | _ => false

/-- Tokens at which an entry of a sequence without indentation is left out. -/
def endsIndentlessEntry (token : Token) : Bool := endsEntry token || endsPart token

/-- Tokens at which a value in a flow sequence is left out. -/
def endsFlowItem : Token → Bool
  | .flowEntry | .flowSequenceEnd => true
  | _ => false

/-- Tokens at which a value in a flow mapping is left out. -/
def endsFlowValue : Token → Bool
  | .flowEntry | .flowMappingEnd => true
  | _ => false

/-- Moves over the comma before an item of a flow collection; the first item has none. -/
def separator (first : Bool) (tokens : List Token) : Option (List Token) :=
  if first then some tokens
  else
    match tokens with
    | .flowEntry :: rest => some rest
    | _ => none

mutual

/-- Reads a node. -/
def read (handles : Handles) (position : Position) :
    (fuel : Nat) → List Token → Option (Named × List Token)
  | 0, _ => none
  | _ + 1, .aliasOf name :: rest => some (aliasOf name, rest)
  | fuel + 1, tokens => do
    let (properties, tokens) ← properties handles tokens
    match position, tokens with
    | .indentless, .blockEntry :: _ => do
      let (items, rest) ← readIndentless handles fuel tokens
      some (sequence properties items, rest)
    | _, .scalar text style :: rest => some (scalar ⟨text, style, properties⟩, rest)
    | _, .flowSequenceStart :: rest => do
      let (items, rest) ← readFlowItems handles true fuel rest
      some (sequence properties items, rest)
    | _, .flowMappingStart :: rest => do
      let (pairs, rest) ← readFlowPairs handles true fuel rest
      some (mapping properties pairs, rest)
    | .flow, rest =>
      if properties == {} then none else some (scalar ⟨[], .plain, properties⟩, rest)
    | _, .blockSequenceStart :: rest => do
      let (items, rest) ← readBlockItems handles fuel rest
      some (sequence properties items, rest)
    | _, .blockMappingStart :: rest => do
      let (pairs, rest) ← readBlockPairs handles fuel rest
      some (mapping properties pairs, rest)
    | _, rest => if properties == {} then none else some (scalar ⟨[], .plain, properties⟩, rest)

/-- Reads a node unless it is left out before a token of the given kind. -/
def readUnless (handles : Handles) (position : Position) (kind : Token → Bool) :
    (fuel : Nat) → List Token → Option (Named × List Token)
  | 0, _ => none
  | fuel + 1, tokens =>
    if nextIs kind tokens then some (empty, tokens) else read handles position fuel tokens

/-- Reads the entries of a block sequence up to its end. -/
def readBlockItems (handles : Handles) :
    (fuel : Nat) → List Token → Option (List Named × List Token)
  | fuel + 1, .blockEntry :: rest => do
    let (item, rest) ← readUnless handles .block endsEntry fuel rest
    let (items, rest) ← readBlockItems handles fuel rest
    some (item :: items, rest)
  | _ + 1, .blockEnd :: rest => some ([], rest)
  | _, _ => none

/-- Reads the entries of a sequence that is not indented, which ends where no further entry
follows. -/
def readIndentless (handles : Handles) :
    (fuel : Nat) → List Token → Option (List Named × List Token)
  | 0, _ => none
  | fuel + 1, .blockEntry :: rest => do
    let (item, rest) ← readUnless handles .block endsIndentlessEntry fuel rest
    let (items, rest) ← readIndentless handles fuel rest
    some (item :: items, rest)
  | _ + 1, rest => some ([], rest)

/-- Reads the pairs of a block mapping up to its end. -/
def readBlockPairs (handles : Handles) :
    (fuel : Nat) → List Token → Option (List (Named × Named) × List Token)
  | fuel + 1, .key :: rest => do
    let (key, rest) ← readUnless handles .indentless endsPart fuel rest
    let (value, rest) ←
      match rest with
      | .value :: rest => readUnless handles .indentless endsPart fuel rest
      | _ => some (empty, rest)
    let (pairs, rest) ← readBlockPairs handles fuel rest
    some ((key, value) :: pairs, rest)
  | _ + 1, .blockEnd :: rest => some ([], rest)
  | _, _ => none

/-- Reads the items of a flow sequence up to its end. A key mark makes an item a mapping of one
pair. -/
def readFlowItems (handles : Handles) (first : Bool) :
    (fuel : Nat) → List Token → Option (List Named × List Token)
  | 0, _ => none
  | _ + 1, .flowSequenceEnd :: rest => some ([], rest)
  | fuel + 1, tokens => do
    let tokens ← separator first tokens
    match tokens with
    | .flowSequenceEnd :: rest => some ([], rest)
    | .key :: rest => do
      -- A key that is left out takes the token behind its mark with it.
      let left := nextIs (fun token => token == .value || endsFlowItem token) rest
      let (key, rest) ←
        if left then some (empty, rest.tail) else read handles .flow fuel rest
      let (value, rest) ←
        match rest with
        | .value :: rest => readUnless handles .flow endsFlowItem fuel rest
        | _ => some (empty, rest)
      let (items, rest) ← readFlowItems handles false fuel rest
      some (mapping {} [(key, value)] :: items, rest)
    | rest => do
      let (item, rest) ← read handles .flow fuel rest
      let (items, rest) ← readFlowItems handles false fuel rest
      some (item :: items, rest)

/-- Reads the pairs of a flow mapping up to its end. A node without a key mark is a key without a
value. -/
def readFlowPairs (handles : Handles) (first : Bool) :
    (fuel : Nat) → List Token → Option (List (Named × Named) × List Token)
  | 0, _ => none
  | _ + 1, .flowMappingEnd :: rest => some ([], rest)
  | fuel + 1, tokens => do
    let tokens ← separator first tokens
    match tokens with
    | .flowMappingEnd :: rest => some ([], rest)
    | .key :: rest => do
      let (key, rest) ←
        readUnless handles .flow (fun token => token == .value || endsFlowValue token) fuel rest
      let (value, rest) ←
        match rest with
        | .value :: rest => readUnless handles .flow endsFlowValue fuel rest
        | _ => some (empty, rest)
      let (pairs, rest) ← readFlowPairs handles false fuel rest
      some ((key, value) :: pairs, rest)
    | rest => do
      let (key, rest) ← read handles .flow fuel rest
      let (pairs, rest) ← readFlowPairs handles false fuel rest
      some ((key, empty) :: pairs, rest)

end

/-- What is declared before a document. -/
structure Prologue where
  version : Option (Nat × Nat) := none
  handles : Handles := []

/-- Reads the declarations before a document. Each may come once, and the version has to be 1.1 or
1.2. -/
def prologue (done : Prologue) : List Token → Option (Prologue × List Token)
  | .version major minor :: rest =>
    if done.version.isSome || major != 1 || (minor != 1 && minor != 2) then none
    else prologue { done with version := some (major, minor) } rest
  | .handle name stands :: rest =>
    if done.handles.any fun entry => entry.1 == name then none
    else prologue { done with handles := (name, stands) :: done.handles } rest
  | rest => some (done, rest)

/-- Whether a token marks the bounds of a document or declares something about it. -/
def isOutside : Token → Bool
  | .version _ _ | .handle _ _ | .documentStart | .documentEnd => true
  | _ => false

/-- Reads the tokens of a text that holds at most one document. -/
def ofTokens? (tokens : List Token) : Option Named := do
  let fuel := 4 * tokens.length + 8
  let (declared, rest) ← prologue {} tokens
  let handles := declared.handles ++ defaultHandles
  let (root, rest) ←
    match rest with
    | .documentStart :: rest =>
      if rest.isEmpty || nextIs isOutside rest then some (empty, rest)
      else read handles .block fuel rest
    | [] => if tokens.isEmpty then some (empty, []) else none
    | rest => if nextIs isOutside tokens then none else read handles .block fuel rest
  if rest.all (· == .documentEnd) then some root else none

/-- Reads a text that holds at most one document. -/
def ofText? (text : List Char) : Option Named := do ofTokens? (← Token.ofText? text)

end Node

end Switchboard.Yaml
