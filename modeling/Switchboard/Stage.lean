import Switchboard.Registry.World
import Switchboard.Rpc.Response

/-!
# `Switchboard.Stage`: how a request passes through handlers

A `Stage` takes a request and a response in the making, may change the response and the world, and
ends well or with a failure. A middleware is a function from stages to stages: it is given the stage
that follows and runs it as often as it likes. `dispatch` picks the middleware that serves the
request's scope, or the following stage itself where there is none, and enters the outcome into the
ledger.
-/

set_option autoImplicit false

namespace Switchboard

open Rpc Metrics

/-- How a stage leaves things. -/
structure Passage (ε μ : Type) where
  result : Except Failure Unit
  response : Response
  world : World ε μ

/-- One stage of a pipeline. -/
abbrev Stage (ε μ : Type) := Request → Response → World ε μ → Passage ε μ

/-- What middlewares do: how they handle a request in front of another stage, and what their release
brings about. -/
structure Behaviour (ε μ : Type) where
  handle : μ → Stage ε μ → Stage ε μ
  release : Release ε μ

namespace Stage

variable {ε μ : Type}

/-- The stage that ends well and does nothing. -/
def idle : Stage ε μ := fun _ response world => ⟨.ok (), response, world⟩

/-- The stage behind all handlers: a request that nobody has answered names an unknown method. -/
def methodNotFound : Stage ε μ := fun request response world =>
  ⟨.ok (),
    if response.isComplete then response
    else response.setFailure (.methodNotFound request.method),
    world⟩

/-- Runs a stage a number of times; the first failure ends it. -/
def times (stage : Stage ε μ) : Nat → Stage ε μ
  | 0 => idle
  | n + 1 => fun request response world =>
    let passage := stage request response world
    match passage.result with
    | .ok () => stage.times n request passage.response passage.world
    | .error _ => passage

/-- The handle that serves a request. -/
def chosen? (registry : Registry μ) (request : Request) : Option (Handle μ) :=
  request.scope.bind registry.handler?

/-- The outcome under which a dispatch is counted. -/
def outcome (served : Bool) (result : Except Failure Unit) : Outcome :=
  match result, served with
  | .error _, _ => .error
  | .ok (), true => .handled
  | .ok (), false => .passthrough

/-- Routes a request to the handler of its scope, or to the stage that follows. -/
def dispatch (behaviour : Behaviour ε μ) (next : Stage ε μ) : Stage ε μ :=
  fun request response world =>
    -- The choice is made before the handler runs, whatever it does to the registry.
    let handle? := chosen? world.registry request
    let passage :=
      match handle? with
      | some handle => behaviour.handle handle.middleware next request response world
      | none => next request response world
    let outcome := outcome handle?.isSome passage.result
    { passage with
      world := passage.world.mapRegistry fun registry => registry.note (·.noteDispatch outcome) }

end Stage

end Switchboard
