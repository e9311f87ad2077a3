import Switchboard.Config.Basic

/-!
# `Switchboard.Config.Validate`: which configurations are accepted

The rules are checked in order, and the first breach is reported: the version, that there are scopes
at all, each scope with those before it, and each session with its scopes.
-/

set_option autoImplicit false

namespace Switchboard

/-- What is wrong with a configuration. -/
inductive Breach
  | unsupportedVersion
  | noScopes
  | badScope (text : String) (defect : Scope.Defect)
  | duplicateScope (text : String)
  | emptyDomain
  | unconfiguredScope (domain scope : String)
deriving DecidableEq, Repr

/-- How a breach is reported. -/
def Breach.failure : Breach → Failure
  | unsupportedVersion => .unsupportedVersion
  | noScopes => .badRequest "scopes must not be empty"
  | badScope text defect => .ofDefect text defect
  | duplicateScope text => .badRequest ("duplicate scope: " ++ text)
  | emptyDomain => .badRequest "sessions[].domain must not be empty"
  | unconfiguredScope domain scope =>
    .badRequest ("session " ++ domain ++ " refers to unconfigured scope: " ++ scope)

namespace Config

/-- The only supported version. -/
def supportedVersion : UInt32 := 1

/-- Checks that scopes can be read and differ from each other and from those already known. -/
def checkScopes (known : List String) : List ScopeEntry → Except Breach Unit
  | [] => .ok ()
  | entry :: rest =>
    match Scope.parse entry.scope with
    | .error defect => .error (.badScope entry.scope defect)
    | .ok _ =>
      if known.contains entry.scope then .error (.duplicateScope entry.scope)
      else checkScopes (entry.scope :: known) rest

/-- Checks that a session names its domain and only configured scopes. -/
def checkSession (known : List String) (session : SessionEntry) : Except Breach Unit :=
  if session.domain.isEmpty then .error .emptyDomain
  else
    match session.scopes.find? fun scope => !known.contains scope with
    | some scope => .error (.unconfiguredScope session.domain scope)
    | none => .ok ()

/-- Checks all rules in order. -/
def validate (config : Config) : Except Breach Unit := do
  if config.version ≠ supportedVersion then .error .unsupportedVersion
  else if config.scopes.isEmpty then .error .noScopes
  else
    checkScopes [] config.scopes
    let known := config.scopes.map ScopeEntry.scope
    config.sessions.forM (checkSession known)

end Config

end Switchboard
