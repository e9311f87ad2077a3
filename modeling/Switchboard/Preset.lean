import Switchboard.Stage

/-!
# `Switchboard.Preset`: middlewares with preset answers

A `Preset` answers some methods of one scope with fixed results and passes every other request on.
Each preset has a serial number of its own; the `Pool` they are built from hands out the numbers and
remembers which presets were released. A released preset answers nothing any more.

A `Catalogue` lists the results of the scopes for which presets can be built.
-/

set_option autoImplicit false

namespace Switchboard

open Rpc Json

/-- Results by method. -/
abbrev Results := Std.ExtTreeMap String Value

/-- A middleware with preset answers. -/
structure Preset where
  serial : Nat
  scope : Scope
  results : Results
deriving DecidableEq

/-- The serial numbers handed out, and the releases so far, last ones first. -/
structure Preset.Pool where
  next : Nat := 0
  released : List Nat := []
deriving DecidableEq, Repr, Inhabited

namespace Preset

/-- A new preset from a pool. -/
def build (pool : Pool) (scope : Scope) (results : Results) : Preset × Pool :=
  (⟨pool.next, scope, results⟩, { pool with next := pool.next + 1 })

/-- Whether a preset was released. -/
def isReleased (preset : Preset) (pool : Pool) : Bool := pool.released.contains preset.serial

/-- Enters a release into the pool. -/
def release (preset : Preset) (pool : Pool) : Pool :=
  { pool with released := preset.serial :: pool.released }

/-- The result that a preset has for a method; a released one fails. -/
def answer? (preset : Preset) (pool : Pool) (method : String) : Except Failure (Option Value) :=
  if preset.isReleased pool then
    .error (.internal ("middleware for " ++ preset.scope.text ++ " already released"))
  else .ok preset.results[method]?

/-- A preset in front of another stage, where the world's outside keeps the pool. -/
def handle {ε μ : Type} (pool : ε → Pool) (preset : Preset) (next : Stage ε μ) : Stage ε μ :=
  fun request response world =>
    match preset.answer? (pool world.outside) request.method with
    | .error failure => ⟨.error failure, response, world⟩
    | .ok (some result) => ⟨.ok (), response.setResult result, world⟩
    | .ok none => next request response world

/-- What presets do in a world that holds nothing else outside the registry. -/
def behaviour : Behaviour Pool Preset where
  handle := handle id
  release := { effect := fun preset world => world.mapOutside preset.release }

end Preset

/-- The results of the scopes for which presets can be built. -/
structure Catalogue where
  results : Std.ExtTreeMap Scope Results

namespace Catalogue

/-- The catalogue without scopes. -/
def empty : Catalogue := ⟨∅⟩

/-- Enters the results of a scope; earlier ones of the same scope are forgotten. -/
def insert (catalogue : Catalogue) (scope : Scope) (results : Results) : Catalogue :=
  ⟨catalogue.results.insert scope results⟩

/-- A handle on a new preset for a scope. A scope that is not listed has none. -/
def build (catalogue : Catalogue) (scope : Scope) (pool : Preset.Pool) :
    Except Failure (Handle Preset) × Preset.Pool :=
  match catalogue.results[scope]? with
  | some results =>
    let (preset, pool) := Preset.build pool scope results
    (.ok ⟨scope, preset⟩, pool)
  | none => (.error (.invalidScope ("no middleware configured for " ++ scope.text)), pool)

end Catalogue

end Switchboard
