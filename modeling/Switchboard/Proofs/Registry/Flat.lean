import Switchboard.Proofs.Metrics.Ledger
import Switchboard.Proofs.Registry.Conservation

/-!
# `Switchboard.Proofs.Registry.Flat`: calls one after another

`Registry.flat` makes calls in a row among middlewares whose release does nothing. Retirements that
are already in the ledger before such a run might as well be entered after it (`flat_finished`):
no call reads the ledger, and entries can change places.

A handle that leaves was in a slot that is free afterwards (`exists_slot_of_mem_removed`), and who
is found in a slot was there before or was passed by one of the calls (`handler?_flat`).
-/

set_option autoImplicit false

namespace Switchboard

open Metrics

variable {μ : Type}

/-- A release that leaves the registry alone, whatever else it changes. -/
def Release.Detached {ε : Type} (onRelease : Release ε μ) : Prop :=
  ∀ middleware world, (onRelease middleware world).registry = world.registry

/-- The effect with another ledger entry. -/
def Effect.note {α : Type} (effect : Effect μ α) (entry : Ledger → Ledger) : Effect μ α :=
  { effect with registry := effect.registry.note entry }

namespace Registry

/-! ### Entries that were made before -/

section Note

variable {entry : Ledger → Ledger} (movable : Ledger.Movable entry) (registry : Registry μ)

include movable

/-- A refusal can be noted before or after. -/
theorem refuse_note {α : Type} (scope : Scope) (answer : α) :
    (registry.note entry).refuse scope answer = (registry.refuse scope answer).note entry := by
  unfold refuse Effect.note note
  rw [movable.violation scope registry.ledger]

/-- A slot can be filled before a note or after it. -/
theorem fill_note (scope : Scope) (handle : Handle μ) :
    (registry.note entry).fill scope handle = (registry.fill scope handle).note entry := by
  unfold fill Effect.note note
  rw [movable.registration scope _ registry.ledger]

/-- A note can be made before a registration or after it. -/
theorem register_note (scope : Scope) (domain : Domain) (handle : Handle μ) :
    (registry.note entry).register scope domain handle =
      (registry.register scope domain handle).note entry := by
  by_cases bound : handle.scope = scope
  · rw [register_of_eq bound, register_of_eq bound]
    exact fill_note movable { registry with
      counts := registry.counts.insert scope ((registry.holdings scope).take domain) } scope handle
  · rw [register_of_ne bound, register_of_ne bound]
    exact refuse_note movable _ scope false

/-- A note can be made before an installation or after it. -/
theorem install_note (scope : Scope) (handle : Handle μ) :
    (registry.note entry).install scope handle = (registry.install scope handle).note entry := by
  by_cases bound : handle.scope = scope
  · rw [install_of_eq bound, install_of_eq bound]
    exact fill_note movable { registry with pinned := registry.pinned.insert scope } scope handle
  · rw [install_of_ne bound, install_of_ne bound]
    exact refuse_note movable _ scope false

omit movable in
/-- A slot can be vacated before a note or after it. -/
theorem vacate_note (scope : Scope) (reason : Reason) :
    (registry.note entry).vacate scope reason = (registry.vacate scope reason).note entry := by
  unfold vacate
  rw [handlers_note]
  cases registry.handlers[scope]? <;> rfl

/-- A note can be made before a release or after it. -/
theorem release_note (scope : Scope) (domain : Domain) :
    (registry.note entry).release scope domain = (registry.release scope domain).note entry := by
  by_cases held : domain ∈ registry.holdings scope
  · have noted : (registry.note entry).withoutReference scope domain =
        (registry.withoutReference scope domain).note entry := by
      unfold withoutReference note
      rw [movable.release scope registry.ledger]
      rfl
    have held' : domain ∈ (registry.note entry).holdings scope := held
    rw [release_of_mem held, release_of_mem held', noted, vacate_note]
    show (if registry.lastReference scope domain = true then _ else _) = _
    split <;> rfl
  · have held' : domain ∉ (registry.note entry).holdings scope := held
    rw [release_of_notMem held, release_of_notMem held']
    exact refuse_note movable _ scope _

/-- A call reads nothing in the ledger, and its own entries can be made before another one. -/
theorem step_note (call : Call μ) :
    (registry.note entry).step call = (registry.step call).note entry := by
  cases call with
  | register scope domain handle =>
    exact congrArg (Effect.map _) (register_note movable registry scope domain handle)
  | install scope handle =>
    exact congrArg (Effect.map _) (install_note movable registry scope handle)
  | release scope domain =>
    exact congrArg (Effect.map _) (release_note movable registry scope domain)
  | retire scope =>
    exact congrArg (Effect.map _) (vacate_note { registry with
      counts := registry.counts.erase scope
      pinned := registry.pinned.erase scope } scope .forced)
  | releaseDomain | releaseAll => rfl
  | isRegistered | referenceCount | domainCount | scopes | isEmpty | policy => rfl

end Note

/-! ### Retirements that are finished -/

/-- The registry with retirements entered into its ledger. -/
def finished (registry : Registry μ) (retired : List (Retirement μ)) : Registry μ :=
  retired.foldl
    (fun registry retirement =>
      registry.note (·.noteRetirement retirement.handle.scope retirement.reason)) registry

/-- A note that can change places with retirements can be made before all of them. -/
theorem finished_note {entry : Ledger → Ledger} (movable : Ledger.Movable entry)
    (registry : Registry μ) (retired : List (Retirement μ)) :
    (registry.note entry).finished retired = (registry.finished retired).note entry := by
  induction retired generalizing registry with
  | nil => rfl
  | cons retirement rest ih =>
    have moved (scope : Scope) (reason : Reason) :
        (registry.note entry).note (·.noteRetirement scope reason) =
          (registry.note (·.noteRetirement scope reason)).note entry := by
      unfold note
      rw [movable.retirement _ _ registry.ledger]
    show ((registry.note entry).note _).finished rest = _
    rw [moved]
    exact ih _

/-- What is finished is in the ledger, and nowhere else. -/
theorem finished_eq (registry : Registry μ) (retired : List (Retirement μ)) :
    ∃ ledger, registry.finished retired = { registry with ledger } := by
  induction retired generalizing registry with
  | nil => exact ⟨_, rfl⟩
  | cons retirement rest ih => exact ih (registry.note _)

/-- Retirements are entered without changing a handler. -/
theorem handlers_finished (registry : Registry μ) (retired : List (Retirement μ)) :
    (registry.finished retired).handlers = registry.handlers := by
  obtain ⟨ledger, same⟩ := registry.finished_eq retired
  rw [same]

/-- Retirements are entered without changing a slot. -/
theorem handler?_finished (registry : Registry μ) (retired : List (Retirement μ)) (scope : Scope) :
    (registry.finished retired).handler? scope = registry.handler? scope := by
  rw [handler?, handlers_finished, handler?]

/-- A call does the same whatever retirements are in the ledger already. -/
theorem step_finished (registry : Registry μ) (retired : List (Retirement μ)) (call : Call μ) :
    (registry.finished retired).step call =
      { registry.step call with registry := (registry.step call).registry.finished retired } := by
  induction retired generalizing registry with
  | nil => rfl
  | cons retirement rest ih =>
    show ((registry.note _).finished rest).step call = _
    rw [ih, step_note (Ledger.movable_noteRetirement _ _)]
    rfl

/-- Retirements are entered in two parts. -/
theorem finished_append (registry : Registry μ) (first rest : List (Retirement μ)) :
    registry.finished (first ++ rest) = (registry.finished first).finished rest :=
  List.foldl_append

/-- Retirements can be entered into the ledger in any order. -/
theorem finished_perm (registry : Registry μ) {retired retired' : List (Retirement μ)}
    (perm : retired.Perm retired') : registry.finished retired = registry.finished retired' := by
  refine perm.foldl_eq' (fun one _ another _ registry => ?_) registry
  unfold note
  rw [(Ledger.movable_noteRetirement _ _).retirement _ _ registry.ledger]

/-- Releases one after another that leave the registry alone add nothing to the retirements. -/
theorem registry_finishAll_of_detached {ε : Type} {onRelease : Release ε μ}
    (detached : onRelease.Detached) (world : World ε μ) (retired : List (Retirement μ)) :
    (world.finishAll onRelease retired).registry = world.registry.finished retired := by
  induction retired generalizing world with
  | nil => rfl
  | cons retirement rest ih =>
    have left : (world.finish onRelease retirement).registry =
        world.registry.note (·.noteRetirement retirement.handle.scope retirement.reason) :=
      detached retirement.handle.middleware _
    refine (ih (world.finish onRelease retirement)).trans ?_
    rw [left]
    rfl

/-- In whatever order handles are released, their retirements are all that is left behind. -/
theorem registry_settle_of_detached {ε : Type} {onRelease : Release ε μ}
    (detached : onRelease.Detached) (world : World ε μ) (retired : List (Retirement μ)) :
    (world.settle onRelease retired).registry = world.registry.finished retired := by
  rw [World.settle, registry_finishAll_of_detached detached]
  exact finished_perm _ (onRelease.order.perm world retired)

/-- A call among middlewares that leave the registry alone. -/
theorem registry_perform_of_detached {ε : Type} {onRelease : Release ε μ}
    (detached : onRelease.Detached) (world : World ε μ) (call : Call μ) :
    (world.perform onRelease call).2.registry =
      (world.registry.step call).registry.finished (world.registry.step call).retired :=
  registry_settle_of_detached detached _ _

/-- Releases that do nothing leave only the retirements behind. -/
theorem settle_quiet {ε : Type} (world : World ε μ) (retired : List (Retirement μ)) :
    world.settle .quiet retired = world.mapRegistry (·.finished retired) := by
  induction retired generalizing world with
  | nil => rfl
  | cons retirement rest ih => exact ih (world.finish .quiet retirement)

/-- Where releases do nothing, a call leaves its retirements in the ledger and no more. -/
theorem perform_quiet {ε : Type} (world : World ε μ) (call : Call μ) :
    world.perform .quiet call =
      ((world.registry.step call).answer,
        ⟨(world.registry.step call).registry.finished (world.registry.step call).retired,
          world.outside⟩) :=
  congrArg (Prod.mk _) (settle_quiet _ _)

/-! ### Calls in a row -/

/-- Makes calls one after another, among middlewares whose release does nothing: the answers, and
the registry afterwards. -/
def flat (registry : Registry μ) : List (Call μ) → List Answer × Registry μ
  | [] => ([], registry)
  | call :: rest =>
    let first := World.perform .quiet ⟨registry, ()⟩ call
    let later := flat first.2.registry rest
    (first.1 :: later.1, later.2)

/-- The first call is made, its retirements are entered, and the others follow. -/
theorem flat_cons (registry : Registry μ) (call : Call μ) (rest : List (Call μ)) :
    registry.flat (call :: rest) =
      (((registry.step call).registry.finished (registry.step call).retired).flat rest).map
        ((registry.step call).answer :: ·) id := by
  simp only [flat, perform_quiet]
  rfl

/-- Calls one after another can be made in two parts. -/
theorem flat_append (registry : Registry μ) (first rest : List (Call μ)) :
    registry.flat (first ++ rest) =
      ((registry.flat first).2.flat rest).map ((registry.flat first).1 ++ ·) id := by
  induction first generalizing registry with
  | nil => rfl
  | cons call more ih =>
    rw [List.cons_append, flat_cons, flat_cons, ih]
    rfl

/-- A movable note can be made before all calls. -/
theorem flat_note {entry : Ledger → Ledger} (movable : Ledger.Movable entry)
    (registry : Registry μ) (calls : List (Call μ)) :
    (registry.note entry).flat calls = (registry.flat calls).map id (·.note entry) := by
  induction calls generalizing registry with
  | nil => rfl
  | cons call rest ih =>
    rw [flat_cons, flat_cons, step_note movable]
    show (((((registry.step call).registry.note entry).finished _).flat rest).map _ id) = _
    rw [finished_note movable, ih]
    rfl

/-- Retirements may be entered into the ledger before calls or after them. -/
theorem flat_finished (registry : Registry μ) (retired : List (Retirement μ))
    (calls : List (Call μ)) :
    (registry.finished retired).flat calls = (registry.flat calls).map id (·.finished retired) := by
  induction retired generalizing registry with
  | nil => rfl
  | cons retirement rest ih =>
    show ((registry.note _).finished rest).flat calls = _
    rw [ih, flat_note (Ledger.movable_noteRetirement _ _)]
    rfl

/-! ### Slots -/

/-- A handle that leaves was in a slot, and the slot is free when it has left. -/
theorem exists_slot_of_mem_removed {registry : Registry μ} {call : Call μ} {handle : Handle μ}
    (leaves : handle ∈ registry.removed call) :
    ∃ scope, registry.handler? scope = some handle ∧
      (registry.step call).registry.handler? scope = none := by
  obtain ⟨retirement, member, rfl⟩ := List.mem_map.mp leaves
  -- Only the last four calls let handles go, each with the slot that it empties.
  cases call with
  | register scope domain handle =>
    change retirement ∈ (registry.register scope domain handle).retired at member
    rw [retired_register] at member
    exact absurd member List.not_mem_nil
  | install scope handle =>
    change retirement ∈ (registry.install scope handle).retired at member
    rw [retired_install] at member
    exact absurd member List.not_mem_nil
  | release scope domain =>
    change retirement ∈ (registry.release scope domain).retired at member
    rw [retired_release] at member
    split at member
    · rename_i last
      obtain ⟨occupant, found, rfl⟩ := List.mem_map.mp member
      refine ⟨scope, Option.mem_toList.mp found, ?_⟩
      exact (handler?_release registry scope scope domain).trans (if_pos ⟨rfl, last⟩)
    · exact absurd member List.not_mem_nil
  | retire scope =>
    change retirement ∈ (registry.retire scope).retired at member
    rw [retired_retire] at member
    obtain ⟨occupant, found, rfl⟩ := List.mem_map.mp member
    exact ⟨scope, Option.mem_toList.mp found,
      (handler?_retire registry scope scope).trans (if_pos rfl)⟩
  | releaseDomain domain =>
    obtain ⟨-, scope, depends, found⟩ := (mem_retired_releaseDomain registry domain _).mp member
    exact ⟨scope, found, (handler?_releaseDomain registry domain scope).trans (if_pos depends)⟩
  | releaseAll =>
    obtain ⟨-, scope, found⟩ := (mem_retired_releaseAll registry _).mp member
    exact ⟨scope, found, handler?_releaseAll registry scope⟩
  | isRegistered | referenceCount | domainCount | scopes | isEmpty | policy =>
    exact absurd member List.not_mem_nil

/-- Who is in a slot after a call was there before, or the call passed it. -/
theorem handler?_step {registry : Registry μ} {call : Call μ} {scope : Scope} {handle : Handle μ}
    (found : (registry.step call).registry.handler? scope = some handle) :
    registry.handler? scope = some handle ∨ call.handle? = some handle := by
  rcases accepted_or_handler?_of_step found with ⟨-, accepted⟩ | there
  · exact Or.inr (handle?_of_accepted? accepted)
  · exact Or.inl there

/-- Who is in a slot after calls was there before, or one of the calls passed it. -/
theorem handler?_flat {registry : Registry μ} {calls : List (Call μ)} {scope : Scope}
    {handle : Handle μ} (found : (registry.flat calls).2.handler? scope = some handle) :
    registry.handler? scope = some handle ∨ ∃ call ∈ calls, call.handle? = some handle := by
  induction calls generalizing registry with
  | nil => exact Or.inl found
  | cons call rest ih =>
    rw [flat_cons] at found
    rcases ih found with before | ⟨later, member, passes⟩
    · rw [handler?_finished] at before
      rcases handler?_step before with there | passes
      · exact Or.inl there
      · exact Or.inr ⟨call, List.mem_cons_self, passes⟩
    · exact Or.inr ⟨later, List.mem_cons_of_mem _ member, passes⟩

end Registry

end Switchboard
