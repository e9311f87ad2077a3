import Switchboard.Failure
import Switchboard.Rpc.Request

/-!
# `Switchboard.Rpc.Response`: responses and their wire form

A response starts empty, with the id of its request, and whoever answers puts a result or an error
into it; the last to do so replaces what was there.
-/

set_option autoImplicit false

namespace Switchboard.Rpc

open Json

/-- The error member of a response. -/
structure ErrorObject where
  code : Int64
  message : String
  data : Option Value := none
deriving DecidableEq, Repr, Inhabited

namespace ErrorObject

/-- A failure as it is reported, without further data. -/
def ofFailure (failure : Failure) : ErrorObject := ⟨failure.code.number, failure.message, none⟩

/-- The members of an error, as read. -/
def shape : Shape ErrorObject where
  title := "struct RpcErrorObject"
  strict := false
  blank := ⟨0, "", none⟩
  fields := [
    .must "code" .int64 fun code error => { error with code },
    .must "message" .string fun message error => { error with message },
    .may "data" (.optional .value) fun data error => { error with data }]

/-- The wire form of an error. -/
def text (error : ErrorObject) : List Char :=
  objectText <|
    [memberText "code" (Number.integerText error.code.toInt),
     memberText "message" (quote error.message.toList)] ++
    (error.data.map fun data => memberText "data" data.text).toList

/-- The wire form of an error as a string. -/
def encode (error : ErrorObject) : String := String.ofList error.text

end ErrorObject

/-- A response. -/
structure Response where
  version : String := Rpc.version
  id : Value := .null
  result : Option Value := none
  error : Option ErrorObject := none
deriving DecidableEq, Repr, Inhabited

namespace Response

/-- The empty response to a request. -/
def forRequest (request : Request) : Response := { id := request.id }

/-- Answers with a result. -/
def setResult (response : Response) (result : Value) : Response :=
  { response with result := some result, error := none }

/-- Answers with a failure. -/
def setFailure (response : Response) (failure : Failure) : Response :=
  { response with result := none, error := some (.ofFailure failure) }

/-- Attaches data to the error, if there is one. -/
def setErrorData (response : Response) (data : Value) : Response :=
  { response with error := response.error.map fun error => { error with data := some data } }

/-- Whether a result or an error has been put in. -/
def isComplete (response : Response) : Bool := response.result.isSome || response.error.isSome

/-- The members of a response, as read. -/
def shape : Shape Response where
  title := "struct RpcResponse"
  strict := false
  blank := ⟨"", .null, none, none⟩
  fields := [
    .must "jsonrpc" .string fun text response => { response with version := text },
    .must "id" .value fun id response => { response with id },
    .may "result" (.optional .value) fun result response => { response with result },
    .may "error" (.optional ErrorObject.shape.read) fun error response =>
      { response with error }]

/-- The response that a text spells. -/
def read (text : String) : Except Fault Response := shape.read.run text.toList

/-- The texts of the members that are present. -/
def memberTexts (response : Response) : List (List Char) :=
  [memberText "jsonrpc" (quote response.version.toList),
   memberText "id" response.id.text] ++
  (response.result.map fun result => memberText "result" result.text).toList ++
  (response.error.map fun error => memberText "error" error.text).toList

/-- The wire form of a response. -/
def encode (response : Response) : String := String.ofList (objectText response.memberTexts)

end Response

end Switchboard.Rpc
