import Switchboard.Preset

/-!
# `Switchboard.Config.Basic`: what a host is started with

A `Config` lists the scopes that can be served, with the preset results of each, and the domains
that are connected from the start.
-/

set_option autoImplicit false

namespace Switchboard

/-- A scope that can be served, and the results that are preset for it. -/
structure ScopeEntry where
  scope : String
  results : Results := ∅
deriving DecidableEq

/-- A domain that is connected from the start. -/
structure SessionEntry where
  domain : String
  scopes : List String := []
deriving DecidableEq, Repr, Inhabited

/-- What a host is started with. -/
structure Config where
  version : UInt32
  releasePolicy : ReleasePolicy := .strict
  scopes : List ScopeEntry := []
  sessions : List SessionEntry := []
deriving DecidableEq

namespace Config

/-- The entry of a scope; of several the first. -/
def scope? (config : Config) (scope : String) : Option ScopeEntry :=
  config.scopes.find? fun entry => entry.scope == scope

/-- The catalogue of the listed scopes; of several entries for one scope the last counts. -/
def catalogue (config : Config) : Except Failure Catalogue :=
  config.scopes.foldlM (fun catalogue entry => do
    let scope ← Scope.parseOrFail entry.scope
    .ok (catalogue.insert scope entry.results)) .empty

end Config

end Switchboard
