import Switchboard.Json.Printer
import Switchboard.Json.Record
import Switchboard.Scope

/-!
# `Switchboard.Rpc.Request`: requests and their wire form

A request names a method, may address a scope and may say where it comes from. Its parameters are
kept as the text that was sent, so that only the one who answers has to read them.

`Request.read` accepts the six known members in any order, or an array of them in the listed order,
and refuses any other member. `Request.encode` writes the members in the listed order and leaves
out what is absent.
-/

set_option autoImplicit false

namespace Switchboard.Rpc

open Json

/-- The protocol version that requests have to name and responses carry. -/
def version : String := "2.0"

/-- A request. -/
structure Request where
  version : String := Rpc.version
  id : Value := .null
  method : String
  /-- The parameters as they were written. -/
  params : Option String := none
  /-- What the request addresses. -/
  scope : Option Scope := none
  /-- Where the request comes from. -/
  origin : Option String := none
deriving DecidableEq, Repr, Inhabited

namespace Request

/-- The members of a request, as read. -/
def shape : Shape Request where
  title := "struct RpcRequest"
  strict := true
  blank := ⟨"", .null, "", none, none, none⟩
  fields := [
    .must "jsonrpc" .string fun text request => { request with version := text },
    .may "id" .value fun id request => { request with id },
    .must "method" .string fun method request => { request with method },
    .may "params" (.optional (.map String.ofList .sourceText)) fun params request =>
      { request with params },
    .may "scope" (.optional (.map Scope.mk .string)) fun scope request => { request with scope },
    .may "origin" (.optional .string) fun origin request => { request with origin }]

/-- The request that a text spells. -/
def read (text : String) : Except Fault Request := shape.read.run text.toList

/-- The texts of the members that are present. -/
def memberTexts (request : Request) : List (List Char) :=
  [memberText "jsonrpc" (quote request.version.toList),
   memberText "id" request.id.text,
   memberText "method" (quote request.method.toList)] ++
  (request.params.map fun params => memberText "params" params.toList).toList ++
  (request.scope.map fun scope => memberText "scope" (quote scope.text.toList)).toList ++
  (request.origin.map fun origin => memberText "origin" (quote origin.toList)).toList

/-- The wire form of a request. -/
def encode (request : Request) : String := String.ofList (objectText request.memberTexts)

end Request

end Switchboard.Rpc
