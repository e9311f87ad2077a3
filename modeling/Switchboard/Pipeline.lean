import Switchboard.Stage

/-!
# `Switchboard.Pipeline`: the operations of a consumer

A `Pipeline` says what middlewares do, which stage comes last, and how to read the clock.

* `handle` answers a request; a failure on the way becomes the response's error.
* `connect` registers a domain on a list of scopes, all of them or none: where a handle cannot be
  built, the references taken so far are given back.
* `disconnect` drops all that a domain holds, `shutdown` everything.
-/

set_option autoImplicit false

namespace Switchboard

open Rpc Metrics

/-- What builds the handle for a scope, at the cost of a change outside the registry. -/
abbrev Factory (ε μ : Type) := Scope → ε → Except Failure (Handle μ) × ε

/-- How requests of one consumer are processed. -/
structure Pipeline (ε μ : Type) where
  behaviour : Behaviour ε μ
  /-- The stage that runs when no handler answers. -/
  terminal : Stage ε μ := Stage.methodNotFound
  /-- The time, in nanoseconds from some start. -/
  clock : ε → Nat := fun _ => 0

namespace Pipeline

variable {ε μ : Type}

/-- The time between two worlds; a clock that goes backwards counts as one that stands still. -/
def elapsed (pipeline : Pipeline ε μ) (before after : World ε μ) : Duration :=
  ⟨pipeline.clock after.outside - pipeline.clock before.outside⟩

/-- Answers a request. -/
def handle (pipeline : Pipeline ε μ) (request : Request) (world : World ε μ) :
    Response × World ε μ :=
  let passage :=
    Stage.dispatch pipeline.behaviour pipeline.terminal request (.forRequest request) world
  let response :=
    match passage.result with
    | .ok () => passage.response
    | .error failure => passage.response.setFailure failure
  let duration := pipeline.elapsed world passage.world
  (response, passage.world.mapRegistry fun registry => registry.note (·.noteDuration duration))

/-- Gives back one reference on each of the scopes, whatever comes of it. -/
def giveBack (pipeline : Pipeline ε μ) (domain : Domain) (scopes : List Scope)
    (world : World ε μ) : World ε μ :=
  scopes.foldl
    (fun world scope => (world.run pipeline.behaviour.release (·.release scope domain)).2) world

/-- Registers a domain on scopes one after another; those in `taken` are registered already. -/
def connectFrom (pipeline : Pipeline ε μ) (factory : Factory ε μ) (domain : Domain)
    (taken : List Scope) : List Scope → World ε μ → Except Failure Unit × World ε μ
  | [], world => (.ok (), world)
  | scope :: rest, world =>
    let (built, outside) := factory scope world.outside
    let world := { world with outside }
    match built with
    | .ok handle =>
      -- A handle that is refused counts as taken all the same.
      let (_, world) := world.run pipeline.behaviour.release (·.register scope domain handle)
      connectFrom pipeline factory domain (taken ++ [scope]) rest world
    | .error failure => (.error failure, pipeline.giveBack domain taken world)

/-- Registers a domain on each of the scopes with handles from a factory. The answer is the number
of scopes listed. -/
def connect (pipeline : Pipeline ε μ) (factory : Factory ε μ) (domain : Domain)
    (scopes : List Scope) (world : World ε μ) : Except Failure Nat × World ε μ :=
  let (result, world) := pipeline.connectFrom factory domain [] scopes world
  (result.map fun _ => scopes.length, world)

/-- Drops every reference of a domain. The answer is the number of scopes it held any on. -/
def disconnect (pipeline : Pipeline ε μ) (domain : Domain) (world : World ε μ) :
    Nat × World ε μ :=
  world.run pipeline.behaviour.release (·.releaseDomain domain)

/-- Retires every handler. The answer is their number. -/
def shutdown (pipeline : Pipeline ε μ) (world : World ε μ) : Nat × World ε μ :=
  world.run pipeline.behaviour.release (·.releaseAll)

end Pipeline

end Switchboard
