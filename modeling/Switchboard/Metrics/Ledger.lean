import Switchboard.Metrics.Family
import Switchboard.Scope

/-!
# `Switchboard.Metrics.Ledger`: what the registry and the pipeline count

A `Ledger` is the set of all families. The functions below are its entries, one for each event that
is counted, with the labels of that event.
-/

set_option autoImplicit false

namespace Switchboard.Metrics

/-- All counters of a registry and its pipeline. -/
structure Ledger where
  /-- Accepted registrations by scope and outcome. -/
  registrations : Counter
  /-- References dropped one at a time, by scope. -/
  releases : Counter
  /-- Handlers retired, by scope and reason. -/
  retirements : Counter
  /-- Dispatched requests by outcome. -/
  dispatches : Counter
  /-- Scopes that have a handler. -/
  liveHandlers : Gauge
  /-- How long requests took. -/
  dispatchDuration : Timer
  /-- Refused handles and releases without a reference, by scope. -/
  contractViolations : Counter
deriving DecidableEq, Inhabited

/-- Why a handler was retired. -/
inductive Reason
  | lastReference
  | forced
deriving DecidableEq, Repr

/-- The reason as a label value. -/
def Reason.text : Reason → String
  | .lastReference => "last_reference"
  | .forced => "forced"

/-- How a dispatch ended. -/
inductive Outcome
  | handled
  | passthrough
  | error
deriving DecidableEq, Repr

/-- The outcome as a label value. -/
def Outcome.text : Outcome → String
  | .handled => "handled"
  | .passthrough => "passthrough"
  | .error => "error"

/-- The labels of a series kept by scope. -/
def byScope (scope : Scope) : LabelSet := .ofList [⟨"scope", scope.text⟩]

/-- The labels of a registration. -/
def byRegistration (scope : Scope) (installed : Bool) : LabelSet :=
  .ofList [⟨"scope", scope.text⟩, ⟨"outcome", if installed then "installed" else "shared"⟩]

/-- The labels of a retirement. -/
def byRetirement (scope : Scope) (reason : Reason) : LabelSet :=
  .ofList [⟨"scope", scope.text⟩, ⟨"reason", reason.text⟩]

/-- The labels of a dispatch. -/
def byOutcome (outcome : Outcome) : LabelSet := .ofList [⟨"outcome", outcome.text⟩]

namespace Ledger

/-- The ledger without entries. -/
def empty : Ledger := ⟨.empty, .empty, .empty, .empty, .empty, .empty, .empty⟩

/-- A handle was accepted for a scope, and either installed or dropped because the scope already
had a handler. -/
def noteRegistration (ledger : Ledger) (scope : Scope) (installed : Bool) : Ledger :=
  { ledger with
    registrations := ledger.registrations.increment (byRegistration scope installed)
    liveHandlers :=
      if installed then ledger.liveHandlers.increment (byScope scope) else ledger.liveHandlers }

/-- A reference on a scope was dropped. -/
def noteRelease (ledger : Ledger) (scope : Scope) : Ledger :=
  { ledger with releases := ledger.releases.increment (byScope scope) }

/-- A handler bound to a scope was retired. -/
def noteRetirement (ledger : Ledger) (scope : Scope) (reason : Reason) : Ledger :=
  { ledger with
    retirements := ledger.retirements.increment (byRetirement scope reason)
    liveHandlers := ledger.liveHandlers.decrement (byScope scope) }

/-- A handle was refused, or a reference released that nobody held. -/
def noteViolation (ledger : Ledger) (scope : Scope) : Ledger :=
  { ledger with contractViolations := ledger.contractViolations.increment (byScope scope) }

/-- A request was dispatched. -/
def noteDispatch (ledger : Ledger) (outcome : Outcome) : Ledger :=
  { ledger with dispatches := ledger.dispatches.increment (byOutcome outcome) }

/-- A request took some time. -/
def noteDuration (ledger : Ledger) (duration : Duration) : Ledger :=
  { ledger with dispatchDuration := ledger.dispatchDuration.observe .empty duration }

end Ledger

end Switchboard.Metrics
