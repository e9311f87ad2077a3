import Switchboard.Yaml.Node

/-!
# `Switchboard.Yaml.Tree`: documents without aliases

Each anchor gets a number: how many names were in use for anchors when it was set. An alias takes
the number that its name has at that point, and stands for the last node to which the number was
given, so a name that is set anew can share its number with the next new name.

`Tree.ofText?` puts in place of each alias what it stands for. Collections may be nested 128 deep,
aliases included, and no more than a hundred times as many aliases may be followed as the document
has parts.
-/

set_option autoImplicit false

namespace Switchboard.Yaml

/-- A node without aliases. -/
abbrev Tree := Node Empty

/-- A document whose aliases are numbers. -/
structure Linked where
  root : Node Nat
  /-- For each number, the place of the node it was last given to, and the node. -/
  targets : List (Nat × Nat × Node Nat)
  /-- The number of parts: scalars, aliases, and starts and ends of collections. -/
  parts : Nat

namespace Linked

/-- The state in which a document is numbered. -/
structure Numbering where
  names : List (List Char × Nat) := []
  targets : List (Nat × Nat × Node Nat) := []
  parts : Nat := 0

namespace Numbering

/-- The number of a name. -/
def number? (numbering : Numbering) (name : List Char) : Option Nat :=
  (numbering.names.find? fun entry => entry.1 == name).map Prod.snd

/-- Counts one part. -/
def count (numbering : Numbering) : Numbering := { numbering with parts := numbering.parts + 1 }

/-- Gives the next number to an anchor, if there is one. -/
def announce (numbering : Numbering) (anchor : Option (List Char)) : Option Nat × Numbering :=
  match anchor with
  | none => (none, numbering)
  | some name =>
    let number := numbering.names.length
    let others := numbering.names.filter fun entry => entry.1 != name
    (some number, { numbering with names := (name, number) :: others })

/-- Enters the node that started at a place as the target of its number, unless a later node has
taken the number. -/
def settle (numbering : Numbering) (number? : Option Nat) (place : Nat) (node : Node Nat) :
    Numbering :=
  match number? with
  | none => numbering
  | some number =>
    if numbering.targets.any fun (n, p, _) => n == number && place < p then numbering
    else
      let others := numbering.targets.filter fun entry => entry.1 != number
      { numbering with targets := (number, place, node) :: others }

end Numbering

mutual

/-- Numbers a node and all that is in it. -/
def link (numbering : Numbering) : Node.Named → Option (Node Nat × Numbering)
  | .aliasOf name => do
    let number ← numbering.number? name
    some (.aliasOf number, numbering.count)
  | .scalar scalar =>
    let place := numbering.parts
    let (number?, numbering) := numbering.announce scalar.properties.anchor
    let node : Node Nat := .scalar scalar
    some (node, (numbering.settle number? place node).count)
  | .sequence properties items => do
    let place := numbering.parts
    let (number?, numbering) := numbering.announce properties.anchor
    let (items, numbering) ← linkItems numbering.count items
    let node : Node Nat := .sequence properties items
    some (node, (numbering.settle number? place node).count)
  | .mapping properties pairs => do
    let place := numbering.parts
    let (number?, numbering) := numbering.announce properties.anchor
    let (pairs, numbering) ← linkPairs numbering.count pairs
    let node : Node Nat := .mapping properties pairs
    some (node, (numbering.settle number? place node).count)

/-- Numbers the items of a sequence. -/
def linkItems (numbering : Numbering) :
    List Node.Named → Option (List (Node Nat) × Numbering)
  | [] => some ([], numbering)
  | item :: rest => do
    let (item, numbering) ← link numbering item
    let (items, numbering) ← linkItems numbering rest
    some (item :: items, numbering)

/-- Numbers the pairs of a mapping. -/
def linkPairs (numbering : Numbering) :
    List (Node.Named × Node.Named) → Option (List (Node Nat × Node Nat) × Numbering)
  | [] => some ([], numbering)
  | (key, value) :: rest => do
    let (key, numbering) ← link numbering key
    let (value, numbering) ← link numbering value
    let (pairs, numbering) ← linkPairs numbering rest
    some ((key, value) :: pairs, numbering)

end

/-- The numbered document. -/
def ofNode? (node : Node.Named) : Option Linked := do
  let (root, numbering) ← link {} node
  some ⟨root, numbering.targets, numbering.parts⟩

/-- The node that a number stands for. -/
def target? (linked : Linked) (number : Nat) : Option (Node Nat) :=
  (linked.targets.find? fun entry => entry.1 == number).map fun entry => entry.2.2

/-- How many aliases may be followed for each part of a document. -/
def aliasesPerPart : Nat := 100

/-- How deep collections may be nested. -/
def maxDepth : Nat := 128

/-- A computation that may fail and follows aliases from a limited supply. -/
abbrev Following (α : Type) := StateT Nat Option α

/-- Follows an alias; any other node stays as it is. -/
def follow (linked : Linked) : Node Nat → Following (Node Nat)
  | .aliasOf number => do
    match ← get with
    | 0 => failure
    | left + 1 =>
      set left
      match linked.target? number with
      | some node => pure node
      | none => failure
  | node => pure node

/-- Puts in place of the aliases in a node what they stand for, down to a depth. -/
def expand (linked : Linked) : (depth : Nat) → Node Nat → Following Tree
  | 0, node => do
    match ← linked.follow node with
    | .scalar scalar => pure (.scalar scalar)
    | _ => failure
  | depth + 1, node => do
    match ← linked.follow node with
    | .scalar scalar => pure (.scalar scalar)
    | .sequence properties items => do
      let items ← items.mapM (expand linked depth)
      pure (.sequence properties items)
    | .mapping properties pairs => do
      let pairs ← pairs.mapM fun (key, value) => do
        let key ← expand linked depth key
        let value ← expand linked depth value
        pure (key, value)
      pure (.mapping properties pairs)
    | .aliasOf _ => failure

end Linked

/-- Reads a text that holds at most one document, and follows its aliases. -/
def Tree.ofText? (text : List Char) : Option Tree := do
  let linked ← Linked.ofNode? (← Node.ofText? text)
  let supply := Linked.aliasesPerPart * linked.parts
  (linked.expand Linked.maxDepth linked.root).run' supply

end Switchboard.Yaml
