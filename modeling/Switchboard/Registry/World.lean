import Switchboard.Registry.Call

/-!
# `Switchboard.Registry.World`: a registry among the things its handlers touch

Releasing a handler may do anything: change what lies outside the registry, and call the registry
again. A `World` is a registry together with an outside of any type, and a `Release` says what each
middleware does to a world when it is released. `World.settle` releases retired handles one after
another; each retirement is entered into the ledger just before its release, when the handle is
already gone from the registry.

Of handles that leave together it is not settled which one is released first. That is up to the
`ReleaseOrder`, which may go through the same handles in another order every time.
-/

set_option autoImplicit false

namespace Switchboard

/-- A registry and everything else that its handlers can change. -/
structure World (ε μ : Type) where
  registry : Registry μ
  outside : ε
deriving DecidableEq

/-- The order in which the handles that one operation retires are released. It is chosen when the
operation is complete, in view of the whole world. -/
structure ReleaseOrder (ε μ : Type) where
  arrange : World ε μ → List (Retirement μ) → List (Retirement μ)
  perm : ∀ world retired, (arrange world retired).Perm retired

namespace ReleaseOrder

variable {ε μ : Type}

/-- Handles are released as operations list them, in ascending order of their scopes. -/
def ascending : ReleaseOrder ε μ := ⟨fun _ retired => retired, fun _ _ => .refl _⟩

/-- Handles are released in descending order of their scopes. -/
def descending : ReleaseOrder ε μ := ⟨fun _ retired => retired.reverse, fun _ => List.reverse_perm⟩

instance : Inhabited (ReleaseOrder ε μ) := ⟨ascending⟩

end ReleaseOrder

/-- What comes of releasing handles. -/
structure Release (ε μ : Type) where
  /-- What a middleware does to the world when it is released. -/
  effect : μ → World ε μ → World ε μ
  order : ReleaseOrder ε μ := .ascending

instance {ε μ : Type} : CoeFun (Release ε μ) fun _ => μ → World ε μ → World ε μ :=
  ⟨Release.effect⟩

/-- The release that does nothing. -/
def Release.quiet {ε μ : Type} : Release ε μ := { effect := fun _ world => world }

namespace World

variable {ε μ α : Type}

/-- The world with its registry changed. -/
def mapRegistry (world : World ε μ) (change : Registry μ → Registry μ) : World ε μ :=
  { world with registry := change world.registry }

/-- The world with its outside changed. -/
def mapOutside (world : World ε μ) (change : ε → ε) : World ε μ :=
  { world with outside := change world.outside }

/-- Enters one retirement into the ledger and releases the handle's middleware. -/
def finish (onRelease : Release ε μ) (world : World ε μ) (retirement : Retirement μ) :
    World ε μ :=
  onRelease retirement.handle.middleware <|
    world.mapRegistry fun registry =>
      registry.note (·.noteRetirement retirement.handle.scope retirement.reason)

/-- Finishes retirements one after another. -/
def finishAll (onRelease : Release ε μ) (world : World ε μ) (retired : List (Retirement μ)) :
    World ε μ :=
  retired.foldl (finish onRelease) world

/-- Those of a first list are finished before those of a second one. -/
theorem finishAll_append (onRelease : Release ε μ) (world : World ε μ)
    (first rest : List (Retirement μ)) :
    world.finishAll onRelease (first ++ rest) =
      (world.finishAll onRelease first).finishAll onRelease rest :=
  List.foldl_append

/-- Finishes retirements in the order in which the handles are released. -/
def settle (onRelease : Release ε μ) (world : World ε μ) (retired : List (Retirement μ)) :
    World ε μ :=
  world.finishAll onRelease (onRelease.order.arrange world retired)

/-- Where nothing is retired there is nothing to do. -/
@[simp]
theorem settle_nil (onRelease : Release ε μ) (world : World ε μ) :
    world.settle onRelease [] = world := by
  rw [settle, List.perm_nil.mp (onRelease.order.perm world [])]
  rfl

/-- There is only one order for a single retirement. -/
@[simp]
theorem settle_singleton (onRelease : Release ε μ) (world : World ε μ)
    (retirement : Retirement μ) :
    world.settle onRelease [retirement] = world.finish onRelease retirement := by
  rw [settle, List.perm_singleton.mp (onRelease.order.perm world [retirement])]
  rfl

/-- Runs an operation of the registry and releases the handles that it retires. -/
def run (onRelease : Release ε μ) (world : World ε μ) (operation : Registry μ → Effect μ α) :
    α × World ε μ :=
  let effect := operation world.registry
  (effect.answer, settle onRelease { world with registry := effect.registry } effect.retired)

/-- Runs a call. -/
def perform (onRelease : Release ε μ) (world : World ε μ) (call : Call μ) :
    Answer × World ε μ :=
  world.run onRelease (·.step call)

end World

end Switchboard
