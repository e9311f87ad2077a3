import Mathlib.Algebra.Ring.Nat
import Mathlib.Data.Finset.Card
import Mathlib.Data.Finset.Image
import Switchboard.Host.Basic
import Switchboard.Proofs.Config.Catalogue

/-!
# `Switchboard.Proofs.Host.Roster`: a host without counters and handlers

A `Roster` says which domains hold which scopes and nothing else. It answers lines as a host does
(`Roster.respond`), with the results that are configured: it needs no handlers, does not count
references, and has nothing to give back when a connection fails. Its responses are written out and
take nothing from those of a host.
-/

set_option autoImplicit false

namespace Switchboard

open Rpc Json

/-- Who holds what. -/
abbrev Roster := Finset (Scope × Domain)

namespace Config

/-- Whether results are configured for a scope. -/
def lists (config : Config) (scope : Scope) : Bool := (config.results? scope).isSome

/-- What a session holds. -/
def sessionPairs (session : SessionEntry) : List (Scope × Domain) :=
  session.scopes.map fun scope => (⟨scope⟩, ⟨session.domain⟩)

/-- A session pairs its domain with each of its scopes. -/
theorem mem_sessionPairs {session : SessionEntry} {scope : Scope} {holder : Domain} :
    (scope, holder) ∈ sessionPairs session ↔
      scope ∈ session.scopes.map Scope.mk ∧ holder = ⟨session.domain⟩ := by
  simp only [sessionPairs, List.mem_map, Prod.mk.injEq]
  constructor
  · rintro ⟨text, listed, rfl, rfl⟩
    exact ⟨⟨text, listed, rfl⟩, rfl⟩
  · rintro ⟨⟨text, listed, rfl⟩, rfl⟩
    exact ⟨text, listed, rfl, rfl⟩

/-- What the configured sessions hold. -/
def roster (config : Config) : Roster := (config.sessions.flatMap sessionPairs).toFinset

/-- The references that the configured sessions take. -/
def sessionTakings (config : Config) : Nat :=
  (config.sessions.map fun session => session.scopes.length).sum

/-- The references that a request takes, whether or not they are given back at once. -/
def takings (config : Config) : Inbound → Nat
  | .connect _ _ scopes => (scopes.takeWhile config.lists).length
  | .call _ | .revoke _ _ => 0

/-- The references that a line takes. -/
def lineTakings (config : Config) (line : String) : Nat :=
  match Inbound.decode line with
  | .ok inbound => config.takings inbound
  | .error _ => 0

end Config

namespace Roster

/-- The scopes that a domain holds. -/
def scopesOf (roster : Roster) (domain : Domain) : Finset Scope :=
  (roster.filter (·.2 = domain)).image Prod.fst

/-- The configured result for a request, if anybody holds its scope. -/
def result? (config : Config) (roster : Roster) (request : Request) : Option Value :=
  request.scope.bind fun scope =>
    if scope ∈ roster.image Prod.fst then
      (config.results? scope).bind fun results => results[request.method]?
    else none

/-- The response that carries a result. -/
def granted (id result : Value) : Response :=
  { version := "2.0", id, result := some result, error := none }

/-- The response that carries an error. -/
def denied (id : Value) (code : Int64) (message : String) : Response :=
  { version := "2.0", id, result := none, error := some ⟨code, message, none⟩ }

/-- Answers a request that was understood. Every response is written out, down to the codes and the
wording of the errors. -/
def handle (config : Config) (roster : Roster) : Inbound → Response × Roster
  | .call request =>
    match roster.result? config request with
    | some result => (granted request.id result, roster)
    | none => (denied request.id (-32601) ("method not found: " ++ request.method), roster)
  | .connect request domain scopes =>
    match scopes.find? (!config.lists ·) with
    | none =>
      (granted request.id (.object [("connected", .number (.ofNat scopes.length))]),
        roster ∪ (scopes.map (·, domain)).toFinset)
    | some scope =>
      (denied request.id (-32602) ("invalid scope: no middleware configured for " ++ scope.text),
        roster)
  | .revoke request domain =>
    (granted request.id (.object [("released", .number (.ofNat (roster.scopesOf domain).card))]),
      roster.filter (·.2 ≠ domain))

/-- Answers one line. One that is not understood changes nothing; the error says why, under the id
that the line names if it is an object that names one. -/
def respond (config : Config) (roster : Roster) (line : String) : Response × Roster :=
  match Inbound.decode line with
  | .ok inbound => roster.handle config inbound
  | .error failure =>
    let id :=
      match Value.parse line.toList with
      | .ok value => (value.member? "id").getD .null
      | .error _ => .null
    (denied id failure.code.number failure.message, roster)

/-- A domain holds the scopes that the roster pairs it with. -/
theorem mem_scopesOf {roster : Roster} {scope : Scope} {domain : Domain} :
    scope ∈ roster.scopesOf domain ↔ (scope, domain) ∈ roster := by
  simp [scopesOf]

end Roster

/-- The responses to lines, one after another. -/
def converse {σ : Type} (respond : σ → String → Response × σ) (state : σ) :
    List String → List Response
  | [] => []
  | line :: rest => (respond state line).1 :: converse respond (respond state line).2 rest

end Switchboard
