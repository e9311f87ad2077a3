import Switchboard.Failure
import Switchboard.Metrics.Ledger
import Switchboard.Text.Quoted
import Std.Data.ExtTreeSet

/-!
# `Switchboard.Registry.Basic`: shared handlers with reference counts

A `Registry` keeps at most one handler for each scope. Domains share it: each holds a number of
references on the scope, and the handler is retired when the last of them is dropped. A handler
that was installed without a domain is pinned and outlives the references.

Every operation is a function from a registry to an `Effect`: the registry afterwards, an answer,
and the handlers that leave it. What a retired handler does when it is released is not decided
here, so an operation is complete before the first release begins. Nor is it decided which of the
handlers that leave together is released first; `releaseDomain` and `releaseAll` only list them.

* `register`, `install` take a handle in, and refuse one that is bound to another scope.
* `release` drops one reference, `releaseDomain` all references of a domain.
* `retire`, `releaseAll` remove handlers whatever references are held.

`Holdings.of_take` and `Holdings.of_drop` say how single references are counted.
-/

set_option autoImplicit false

namespace Switchboard

open Metrics

/-- What happens when a domain releases a reference that it does not hold. -/
inductive ReleasePolicy
  /-- The release fails. -/
  | strict
  /-- The release is ignored. -/
  | lenient
deriving DecidableEq, Repr

namespace ReleasePolicy

/-- Releases are strict unless something else is asked for. -/
instance : Inhabited ReleasePolicy := ⟨strict⟩

end ReleasePolicy

/-- A middleware bound to the scope it serves. -/
structure Handle (μ : Type) where
  scope : Scope
  middleware : μ
deriving DecidableEq, Repr

/-- A handle in a message: its scope, and a hint that there is more to it. -/
def Handle.summary {μ : Type} (handle : Handle μ) : String :=
  "MiddlewareHandle \x7b scope: Scope(" ++ Text.quoted handle.scope.text ++ "), .. \x7d"

/-- The references on one scope by the domain that holds them. -/
abbrev Holdings := Std.ExtTreeMap Domain UInt32

/-- Handlers by scope, and the references on them. -/
structure Registry (μ : Type) where
  policy : ReleasePolicy
  handlers : Std.ExtTreeMap Scope (Handle μ)
  /-- References by scope and domain. A domain that holds none has no entry, nor has a scope on
  which no domain holds any. -/
  counts : Std.ExtTreeMap Scope Holdings
  /-- Scopes for which a handle was installed without a domain. -/
  pinned : Std.ExtTreeSet Scope
  ledger : Ledger
deriving DecidableEq

/-- A handle that leaves a registry, and why. -/
structure Retirement (μ : Type) where
  handle : Handle μ
  reason : Reason
deriving DecidableEq, Repr

/-- What an operation does: the registry afterwards, the answer, and the handles that left, in
ascending order of their scopes. -/
structure Effect (μ α : Type) where
  registry : Registry μ
  answer : α
  retired : List (Retirement μ) := []

/-- The effect with its answer passed through a function. -/
def Effect.map {μ α β : Type} (f : α → β) (effect : Effect μ α) : Effect μ β :=
  ⟨effect.registry, f effect.answer, effect.retired⟩

namespace Holdings

/-- The references that a domain holds. -/
def of (holdings : Holdings) (domain : Domain) : UInt32 := holdings[domain]?.getD 0

/-- The references of all domains together. -/
def total (holdings : Holdings) : UInt32 :=
  holdings.toList.foldl (fun sum entry => sum + entry.2) 0

/-- One more reference for a domain. -/
def take (holdings : Holdings) (domain : Domain) : Holdings :=
  holdings.insert domain (holdings.of domain + 1)

/-- One reference less for a domain; at none its entry goes. -/
def drop (holdings : Holdings) (domain : Domain) : Holdings :=
  let left := holdings.of domain - 1
  if left = 0 then holdings.erase domain else holdings.insert domain left

/-- Whether a domain holds references and no other one does. -/
def onlyHeldBy (holdings : Holdings) (domain : Domain) : Bool :=
  holdings.contains domain && (holdings.erase domain).isEmpty

/-- A reference is taken by one domain, and the others keep theirs. -/
theorem of_take (holdings : Holdings) (domain other : Domain) :
    (holdings.take domain).of other =
      if other = domain then holdings.of domain + 1 else holdings.of other := by
  grind [take, of]

/-- A reference is dropped by one domain, and the others keep theirs. -/
theorem of_drop (holdings : Holdings) (domain other : Domain) :
    (holdings.drop domain).of other =
      if other = domain then holdings.of domain - 1 else holdings.of other := by
  grind [drop, of]

end Holdings

namespace Registry

variable {μ : Type}

/-- The registry that holds nothing. -/
def empty (policy : ReleasePolicy) : Registry μ := ⟨policy, ∅, ∅, ∅, .empty⟩

/-! ### What can be asked -/

/-- The handle that occupies a scope. -/
def handler? (registry : Registry μ) (scope : Scope) : Option (Handle μ) :=
  registry.handlers[scope]?

/-- Whether a scope has a handler. -/
def isRegistered (registry : Registry μ) (scope : Scope) : Bool := registry.handlers.contains scope

/-- The holdings on a scope. -/
def holdings (registry : Registry μ) (scope : Scope) : Holdings := registry.counts[scope]?.getD ∅

/-- The references on a scope, of all domains together. -/
def referenceCount (registry : Registry μ) (scope : Scope) : UInt32 :=
  (registry.holdings scope).total

/-- The references that a domain holds on a scope. -/
def domainCount (registry : Registry μ) (scope : Scope) (domain : Domain) : UInt32 :=
  (registry.holdings scope).of domain

/-- The scopes that have a handler, in ascending order. -/
def scopes (registry : Registry μ) : List Scope := registry.handlers.keys

/-- Whether there is neither a handler nor a reference. -/
def isEmpty (registry : Registry μ) : Bool :=
  registry.handlers.isEmpty && registry.counts.isEmpty

/-! ### Notes in the ledger -/

/-- The registry with another ledger entry. -/
def note (registry : Registry μ) (entry : Ledger → Ledger) : Registry μ :=
  { registry with ledger := entry registry.ledger }

/-- A violation is noted and the registry stays as it is otherwise. -/
def refuse {α : Type} (registry : Registry μ) (scope : Scope) (answer : α) : Effect μ α :=
  { registry := registry.note (·.noteViolation scope), answer }

/-! ### Taking in -/

/-- Puts a handle into the slot of a scope if that is free, and notes which of the two it was. -/
def fill (registry : Registry μ) (scope : Scope) (handle : Handle μ) : Effect μ Bool :=
  let free := !registry.handlers.contains scope
  let handlers := if free then registry.handlers.insert scope handle else registry.handlers
  { registry := { registry with handlers }.note (·.noteRegistration scope free), answer := free }

/-- Takes a reference on a scope for a domain. The handle becomes the scope's handler if it has
none, and is dropped otherwise; the answer tells which. A handle bound to another scope is refused:
no reference is taken. -/
def register (registry : Registry μ) (scope : Scope) (domain : Domain) (handle : Handle μ) :
    Effect μ Bool :=
  if handle.scope = scope then
    let counts := registry.counts.insert scope ((registry.holdings scope).take domain)
    { registry with counts }.fill scope handle
  else registry.refuse scope false

/-- Installs a handle without a domain, and pins its scope even if another handler keeps the
slot. -/
def install (registry : Registry μ) (scope : Scope) (handle : Handle μ) : Effect μ Bool :=
  if handle.scope = scope then
    { registry with pinned := registry.pinned.insert scope }.fill scope handle
  else registry.refuse scope false

/-! ### Giving back -/

/-- The handle that occupies a scope leaves, for the given reason. -/
def vacate (registry : Registry μ) (scope : Scope) (reason : Reason) : Effect μ Bool :=
  match registry.handlers[scope]? with
  | some handle =>
    { registry := { registry with handlers := registry.handlers.erase scope }
      answer := true
      retired := [⟨handle, reason⟩] }
  | none => { registry, answer := false }

/-- The answer to a release of a reference that the domain does not hold. -/
def unregistered (policy : ReleasePolicy) (scope : Scope) (domain : Domain) :
    Except Failure Bool :=
  match policy with
  | .strict => .error (.unregisteredRelease scope domain)
  | .lenient => .ok false

/-- Drops one reference that a domain holds on a scope. With the last reference of all domains the
handler leaves, unless its scope is pinned; the answer tells whether it did. -/
def release (registry : Registry μ) (scope : Scope) (domain : Domain) :
    Effect μ (Except Failure Bool) :=
  let held := registry.holdings scope
  if held.contains domain then
    let left := held.drop domain
    let noted := registry.note (·.noteRelease scope)
    if left.isEmpty then
      let cleared := { noted with counts := registry.counts.erase scope }
      if registry.pinned.contains scope then { registry := cleared, answer := .ok false }
      else (cleared.vacate scope .lastReference).map .ok
    else
      { registry := { noted with counts := registry.counts.insert scope left }
        answer := .ok false }
  else registry.refuse scope (unregistered registry.policy scope domain)

/-- Removes a scope with its handler, its references and its pin. The answer tells whether there
was a handler. -/
def retire (registry : Registry μ) (scope : Scope) : Effect μ Bool :=
  { registry with
    counts := registry.counts.erase scope
    pinned := registry.pinned.erase scope }.vacate scope .forced

/-- Whether the handler of a scope leaves when a domain drops all that it holds. -/
def dependsOn (registry : Registry μ) (domain : Domain) (scope : Scope) : Bool :=
  (registry.holdings scope).onlyHeldBy domain && !registry.pinned.contains scope

/-- Drops every reference that a domain holds. The answer is the number of scopes it held any
on. -/
def releaseDomain (registry : Registry μ) (domain : Domain) : Effect μ Nat where
  registry :=
    { registry with
      counts := registry.counts.filterMap fun _ held =>
        if held.onlyHeldBy domain then none else some (held.erase domain)
      handlers := registry.handlers.filter fun scope _ => !registry.dependsOn domain scope }
  answer := (registry.counts.filter fun _ held => held.contains domain).size
  retired :=
    (registry.handlers.filter fun scope _ => registry.dependsOn domain scope).values.map
      (⟨·, .lastReference⟩)

/-- Removes everything. The answer is the number of handlers that leave. -/
def releaseAll (registry : Registry μ) : Effect μ Nat where
  registry := { registry with handlers := ∅, counts := ∅, pinned := ∅ }
  answer := registry.handlers.size
  retired := registry.handlers.values.map (⟨·, .forced⟩)

end Registry

end Switchboard
