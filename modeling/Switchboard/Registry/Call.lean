import Switchboard.Registry.Basic

/-!
# `Switchboard.Registry.Call`: operations of a registry as data

A `Call` names an operation with its arguments and an `Answer` is what it returns, so that a history
of a registry is a list of calls. `Registry.step` says what each call does.
-/

set_option autoImplicit false

namespace Switchboard

/-- An operation of a registry with its arguments. -/
inductive Call (μ : Type)
  | register (scope : Scope) (domain : Domain) (handle : Handle μ)
  | install (scope : Scope) (handle : Handle μ)
  | release (scope : Scope) (domain : Domain)
  | retire (scope : Scope)
  | releaseDomain (domain : Domain)
  | releaseAll
  | isRegistered (scope : Scope)
  | referenceCount (scope : Scope)
  | domainCount (scope : Scope) (domain : Domain)
  | scopes
  | isEmpty
  | policy
deriving DecidableEq, Repr

/-- What an operation returns. -/
inductive Answer
  | flag (value : Bool)
  | failed (failure : Failure)
  | count (value : Nat)
  | references (value : UInt32)
  | scopes (value : List Scope)
  | policy (value : ReleasePolicy)
deriving DecidableEq, Repr

/-- The answer of an operation that may fail. -/
def Answer.ofRelease : Except Failure Bool → Answer
  | .ok value => flag value
  | .error failure => failed failure

/-- What a call does to a registry. Questions change nothing. -/
def Registry.step {μ : Type} (registry : Registry μ) : Call μ → Effect μ Answer
  | .register scope domain handle => (registry.register scope domain handle).map .flag
  | .install scope handle => (registry.install scope handle).map .flag
  | .release scope domain => (registry.release scope domain).map .ofRelease
  | .retire scope => (registry.retire scope).map .flag
  | .releaseDomain domain => (registry.releaseDomain domain).map .count
  | .releaseAll => registry.releaseAll.map .count
  | .isRegistered scope => { registry, answer := .flag (registry.isRegistered scope) }
  | .referenceCount scope => { registry, answer := .references (registry.referenceCount scope) }
  | .domainCount scope domain =>
    { registry, answer := .references (registry.domainCount scope domain) }
  | .scopes => { registry, answer := .scopes registry.scopes }
  | .isEmpty => { registry, answer := .flag registry.isEmpty }
  | .policy => { registry, answer := .policy registry.policy }

end Switchboard
