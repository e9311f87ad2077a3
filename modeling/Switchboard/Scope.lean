import Std.Data.ExtTreeMap

/-!
# `Switchboard.Scope`: what a request addresses and who holds it

A `Scope` is the routing key of a request, a `Domain` a consumer that holds references on scopes.
Both are opaque texts that are compared as texts. `Scope.parse` accepts the texts that a
configuration or a client may use for a scope:

* the bare word `wallet`,
* `wallet:` and a namespace,
* another namespace, a colon and a reference.

A namespace has three to eight characters out of small letters, digits and the hyphen, a reference
one to thirty-two out of letters, digits, the hyphen and the underscore.

A text is split at its first colon, in one way only (`halves?_eq_some_iff`), and a scope that was
read keeps its text (`text_of_parse`).
-/

set_option autoImplicit false

namespace Switchboard

/-- The routing key of a request. -/
structure Scope where
  text : String
deriving DecidableEq, Repr, Inhabited

/-- A consumer that holds references. It is counted and never routed by. -/
structure Domain where
  text : String
deriving DecidableEq, Repr, Inhabited

namespace Scope

instance : Ord Scope := ⟨compareOn Scope.text⟩

instance : Std.TransOrd Scope := inferInstanceAs (Std.TransCmp (compareOn Scope.text))

instance : Std.LawfulEqOrd Scope where
  eq_of_compare {a b} h := by
    cases a; cases b
    simpa using Std.LawfulEqOrd.eq_of_compare (α := String) h

/-- The scope that addresses the wallet itself and has no reference. -/
def wallet : String := "wallet"

/-- The parts before and after the first colon. -/
def halves? (text : List Char) : Option (List Char × List Char) :=
  match text.dropWhile (· != ':') with
  | [] => none
  | _ :: reference => some (text.takeWhile (· != ':'), reference)

/-- A character that is no colon belongs to the first half. -/
theorem halves?_cons {c : Char} (h : c ≠ ':') (rest : List Char) :
    halves? (c :: rest) = (halves? rest).map fun parts => (c :: parts.1, parts.2) := by
  simp only [halves?, List.dropWhile_cons, List.takeWhile_cons]
  simp [h]
  cases rest.dropWhile (· != ':') <;> rfl

/-- Only a text without a colon has no halves. -/
theorem halves?_eq_none_iff {text : List Char} : halves? text = none ↔ ':' ∉ text := by
  induction text with
  | nil => simp [halves?]
  | cons c rest ih =>
    by_cases h : c = ':'
    · simp [halves?, h]
    · simp [halves?_cons h, ih, Ne.symm h]

/-- The parts surround the first colon. -/
theorem halves?_eq_some_iff {text head tail : List Char} :
    halves? text = some (head, tail) ↔ text = head ++ ':' :: tail ∧ ':' ∉ head := by
  induction text generalizing head with
  | nil => simp [halves?]
  | cons c rest ih =>
    by_cases h : c = ':'
    · subst h
      cases head <;> simp [halves?]
      grind
    · cases head with
      | nil => simp [halves?_cons h, h]
      | cons d head =>
        rw [halves?_cons h, Option.map_eq_some_iff]
        constructor
        · rintro ⟨⟨a, b⟩, found, same⟩
          grind
        · rintro ⟨same, free⟩
          refine ⟨(head, tail), ?_, ?_⟩ <;> grind

/-- The part before the first colon. -/
def namespace? (scope : Scope) : Option String :=
  (halves? scope.text.toList).map fun parts => String.ofList parts.1

/-- The part after the first colon. -/
def reference? (scope : Scope) : Option String :=
  (halves? scope.text.toList).map fun parts => String.ofList parts.2

/-- Whether a character may stand in a namespace. -/
def isNamespaceChar (c : Char) : Bool := c.isLower || c.isDigit || c == '-'

/-- Whether a character may stand in a reference. -/
def isReferenceChar (c : Char) : Bool := c.isAlphanum || c == '-' || c == '_'

/-- Whether a part, written in UTF-8, has a number of bytes between two bounds and each byte is the
code of an admitted character. -/
def isWord (least most : Nat) (admits : Char → Bool) (part : List Char) : Bool :=
  let bytes := part.flatMap String.utf8EncodeChar
  least ≤ bytes.length && bytes.length ≤ most && bytes.all fun byte => admits (.ofUInt8 byte)

/-- Three to eight bytes of a namespace. -/
def isNamespace : List Char → Bool := isWord 3 8 isNamespaceChar

/-- One to thirty-two bytes of a reference. -/
def isReference : List Char → Bool := isWord 1 32 isReferenceChar

/-- Why a text is no scope. -/
inductive Defect
  | noColon
  | badNamespace
  | badReference
deriving DecidableEq, Repr

/-- The defect in words. -/
def Defect.message : Defect → String
  | .noColon => "expected namespace:reference"
  | .badNamespace => "bad namespace"
  | .badReference => "bad reference"

/-- The scope that a text names, or the first thing wrong with it. -/
def parse (text : String) : Except Defect Scope :=
  if text = wallet then .ok ⟨text⟩
  else
    match halves? text.toList with
    | none => .error .noColon
    | some (head, tail) =>
      if !isNamespace head then .error .badNamespace
      else if head = wallet.toList then
        if isNamespace tail then .ok ⟨text⟩ else .error .badReference
      else if isReference tail then .ok ⟨text⟩
      else .error .badReference

/-- A scope that was read has the text that it was read from. -/
theorem text_of_parse {text : String} {scope : Scope} (h : parse text = .ok scope) :
    scope.text = text := by
  grind [parse]

end Scope

namespace Domain

instance : Ord Domain := ⟨compareOn Domain.text⟩

instance : Std.TransOrd Domain := inferInstanceAs (Std.TransCmp (compareOn Domain.text))

instance : Std.LawfulEqOrd Domain where
  eq_of_compare {a b} h := by
    cases a; cases b
    simpa using Std.LawfulEqOrd.eq_of_compare (α := String) h

end Domain

end Switchboard
