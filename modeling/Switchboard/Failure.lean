import Switchboard.Scope

/-!
# `Switchboard.Failure`: how a request, a release or a start can fail

Each failure has one wording, `Failure.message`, and one of four numeric codes that a client sees,
`Failure.code`.
-/

set_option autoImplicit false

namespace Switchboard

/-- The codes of a response's error member. -/
inductive Code
  | invalidRequest
  | methodNotFound
  | invalidParams
  | internal
deriving DecidableEq, Repr

/-- The number of a code on the wire. -/
def Code.number : Code → Int64
  | .invalidRequest => -32600
  | .methodNotFound => -32601
  | .invalidParams => -32602
  | .internal => -32603

/-- Everything that a caller can be told instead of an answer. -/
inductive Failure
  | badRequest (detail : String)
  | invalidScope (detail : String)
  | methodNotFound (method : String)
  /-- A domain released a scope on which it holds no reference. -/
  | unregisteredRelease (scope : Scope) (domain : Domain)
  | unsupportedVersion
  | internal (detail : String)
deriving DecidableEq, Repr

namespace Failure

/-- The failure in words. -/
def message : Failure → String
  | badRequest detail => "bad request: " ++ detail
  | invalidScope detail => "invalid scope: " ++ detail
  | methodNotFound method => "method not found: " ++ method
  | unregisteredRelease scope domain =>
    "release without registration (scope=" ++ scope.text ++ ", domain=" ++ domain.text ++ ")"
  | unsupportedVersion => "unsupported config version"
  | internal detail => "internal: " ++ detail

/-- The code under which the failure is reported. -/
def code : Failure → Code
  | badRequest _ => .invalidRequest
  | invalidScope _ => .invalidParams
  | methodNotFound _ => .methodNotFound
  | unregisteredRelease _ _ => .internal
  | unsupportedVersion => .invalidRequest
  | internal _ => .internal

/-- The failure that reports a text which is no scope. -/
def ofDefect (text : String) (defect : Scope.Defect) : Failure :=
  invalidScope (text ++ " (" ++ defect.message ++ ")")

end Failure

/-- The scope that a text names; a text that names none is reported with its defect. -/
def Scope.parseOrFail (text : String) : Except Failure Scope :=
  (Scope.parse text).mapError (Failure.ofDefect text)

end Switchboard
