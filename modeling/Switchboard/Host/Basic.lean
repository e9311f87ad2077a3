import Switchboard.Config.Validate
import Switchboard.Pipeline
import Switchboard.Rpc.Inbound

/-!
# `Switchboard.Host.Basic`: a running host

A `Host` serves the scopes of a configuration with presets. It starts by connecting the configured
sessions, and then answers requests, each of which may change who holds what.
-/

set_option autoImplicit false

namespace Switchboard

open Rpc Json

/-- A running host: what it was started with, and its world. -/
structure Host where
  config : Config
  catalogue : Catalogue
  world : World Preset.Pool Preset

namespace Host

/-- The pipeline of every host. -/
def pipeline : Pipeline Preset.Pool Preset := { behaviour := Preset.behaviour }

/-- The host with another world. -/
def withWorld {α : Type} (host : Host) (result : α × World Preset.Pool Preset) : α × Host :=
  (result.1, { host with world := result.2 })

/-- Connects a domain to scopes with presets from the catalogue. -/
def connect (host : Host) (domain : Domain) (scopes : List Scope) : Except Failure Nat × Host :=
  host.withWorld (pipeline.connect host.catalogue.build domain scopes host.world)

/-- Connects one configured session. -/
def connectSession (host : Host) (session : SessionEntry) : Except Failure Host := do
  let scopes ← session.scopes.mapM Scope.parseOrFail
  match host.connect ⟨session.domain⟩ scopes with
  | (.ok _, host) => .ok host
  | (.error failure, _) =>
    .error (.badRequest
      ("session connect failed (domain=" ++ session.domain ++ "): " ++ failure.message))

/-- Starts a host. The rules of a configuration are not checked here. -/
def start (config : Config) : Except Failure Host := do
  let catalogue ← config.catalogue
  let host : Host := ⟨config, catalogue, ⟨.empty config.releasePolicy, {}⟩⟩
  config.sessions.foldlM connectSession host

/-- The object with one count in it. -/
def countObject (name : String) (count : Nat) : Value := .object [(name, Value.ofNat count)]

/-- Answers a request that was understood. -/
def handle (host : Host) : Inbound → Response × Host
  | .call request => host.withWorld (pipeline.handle request host.world)
  | .connect request domain scopes =>
    -- A failed attempt changes the host too: presets were built and released.
    let (result, host) := host.connect domain scopes
    let response := Response.forRequest request
    match result with
    | .ok count => (response.setResult (countObject "connected" count), host)
    | .error failure => (response.setFailure failure, host)
  | .revoke request domain =>
    let (count, host) := host.withWorld (pipeline.disconnect domain host.world)
    ((Response.forRequest request).setResult (countObject "released" count), host)

/-- The id of a request that was not understood, as far as its text is an object that names one. -/
def idOf (line : String) : Value :=
  match Value.parse line.toList with
  | .ok value => (value.member? "id").getD .null
  | .error _ => .null

/-- The response to a request that was not understood. -/
def refusal (id : Value) (failure : Failure) : Response :=
  Response.setFailure { id } failure

/-- Answers one line. -/
def respond (host : Host) (line : String) : Response × Host :=
  match Inbound.decode line with
  | .ok inbound => host.handle inbound
  | .error failure => (refusal (idOf line) failure, host)

/-- The response to a line that is not even text. -/
def reject (failure : Failure) : Response := refusal .null failure

/-- Retires every handler. The answer is their number. -/
def shutdown (host : Host) : Nat × Host := host.withWorld (pipeline.shutdown host.world)

end Host

end Switchboard
