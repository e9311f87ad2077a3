import Switchboard.Failure
import Switchboard.Rpc.Request

/-!
# `Switchboard.Rpc.Inbound`: what a line asks the host to do

Most requests are calls that are routed by their scope. Two methods are addressed to the host
itself: one connects a domain to scopes, the other revokes everything a domain holds. Both name the
domain by the `origin` in their parameters, or else by the request's own `origin`, which may not be
empty.
-/

set_option autoImplicit false

namespace Switchboard.Rpc

open Json

/-- The method that connects a domain to scopes. -/
def connectMethod : String := "scopemux_connect"

/-- The method that revokes every reference of a domain. -/
def revokeMethod : String := "scopemux_revokeSession"

/-- A request together with what it asks for. -/
inductive Inbound
  | call (request : Request)
  | connect (request : Request) (domain : Domain) (scopes : List Scope)
  | revoke (request : Request) (domain : Domain)
deriving DecidableEq, Repr

/-- The parameters of the two methods of the host. -/
structure SessionParams where
  origin : Option String := none
  scopes : List String := []
deriving DecidableEq, Repr, Inhabited

namespace SessionParams

/-- The members of the parameters, none of them required. -/
def shape : Shape SessionParams where
  title := "struct SessionParams"
  strict := true
  blank := {}
  fields := [
    .may "origin" (.optional .string) fun origin params => { params with origin },
    .may "scopes" (.list .string) fun scopes params => { params with scopes }]

/-- The parameters that a text spells. -/
def read (text : String) : Except Fault SessionParams := shape.read.run text.toList

end SessionParams

namespace Inbound

/-- The request itself. -/
def request : Inbound → Request
  | call request => request
  | connect request _ _ => request
  | revoke request _ => request

/-- The session parameters of a request, which must be there. -/
def sessionParams (request : Request) : Except Failure SessionParams :=
  match request.params with
  | none => .error (.badRequest (request.method ++ " requires params"))
  | some params =>
    (SessionParams.read params).mapError fun fault =>
      .badRequest (request.method ++ " invalid params: " ++ fault.message)

/-- The domain that a request is made for: the origin in its parameters or else its own. -/
def sessionDomain (request : Request) (origin? : Option String) : Except Failure Domain :=
  match origin?.or request.origin with
  | none => .error (.badRequest (request.method ++ " requires origin"))
  | some origin =>
    if origin.isEmpty then .error (.badRequest (request.method ++ " requires origin"))
    else .ok ⟨origin⟩

/-- What a request of a supported version asks for. -/
def ofRequest (request : Request) : Except Failure Inbound := do
  if request.method = connectMethod then
    let params ← sessionParams request
    let scopes ← params.scopes.mapM Scope.parseOrFail
    if scopes.isEmpty then
      .error (.invalidScope (connectMethod ++ " requires at least one scope"))
    else
      let domain ← sessionDomain request params.origin
      .ok (.connect request domain scopes)
  else if request.method = revokeMethod then
    let origin? ←
      match request.params with
      | none => Except.ok none
      | some _ => SessionParams.origin <$> sessionParams request
    let domain ← sessionDomain request origin?
    .ok (.revoke request domain)
  else .ok (.call request)

/-- What a line asks for. -/
def decode (line : String) : Except Failure Inbound := do
  let request ←
    (Request.read line).mapError fun fault =>
      Failure.badRequest ("invalid request json: " ++ fault.message)
  if request.version ≠ version then
    .error (.badRequest ("unsupported jsonrpc version: " ++ request.version))
  else ofRequest request

end Inbound

end Switchboard.Rpc
