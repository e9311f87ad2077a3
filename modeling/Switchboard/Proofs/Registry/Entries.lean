import Switchboard.Proofs.Registry.Flat

/-!
# `Switchboard.Proofs.Registry.Entries`: what calls enter into the ledger

`Registry.entry` is the entry that a call makes before the handles that it retires are released, and
`ledger_step` says that it makes no other. The gauge of live handlers moves by as much as the number
of handlers changes: up when a handle is accepted, down when its retirement is entered
(`liveHandlers_step`, `liveHandlers_flat`).
-/

set_option autoImplicit false

namespace Switchboard

open Metrics

variable {μ : Type}

namespace Registry

/-- The entry that a call makes into the ledger of the registry that it finds. -/
def entry (registry : Registry μ) : Call μ → Ledger → Ledger
  | .register scope _ handle, ledger | .install scope handle, ledger =>
    if handle.scope = scope then ledger.noteRegistration scope (registry.handler? scope).isNone
    else ledger.noteViolation scope
  | .release scope domain, ledger =>
    if domain ∈ registry.holdings scope then ledger.noteRelease scope
    else ledger.noteViolation scope
  | _, ledger => ledger

/-- A slot that is filled, or found occupied, is noted as a registration. -/
theorem ledger_fill (registry : Registry μ) (scope : Scope) (handle : Handle μ) :
    (registry.fill scope handle).registry.ledger =
      registry.ledger.noteRegistration scope (registry.handler? scope).isNone := by
  unfold fill note
  rw [contains_handlers, Option.not_isSome]

/-- A slot is vacated without a note; the retirement is entered later. -/
theorem ledger_vacate (registry : Registry μ) (scope : Scope) (reason : Reason) :
    (registry.vacate scope reason).registry.ledger = registry.ledger := by
  rw [registry_vacate]

/-- A call makes its entry and no other. -/
theorem ledger_step (registry : Registry μ) (call : Call μ) :
    (registry.step call).registry.ledger = registry.entry call registry.ledger := by
  unfold entry
  cases call with
  | register scope domain handle =>
    show (registry.register scope domain handle).registry.ledger = _
    by_cases bound : handle.scope = scope
    · rw [register_of_eq bound, ledger_fill]
      exact (if_pos bound).symm
    · rw [register_of_ne bound]
      exact (if_neg bound).symm
  | install scope handle =>
    show (registry.install scope handle).registry.ledger = _
    by_cases bound : handle.scope = scope
    · rw [install_of_eq bound, ledger_fill]
      exact (if_pos bound).symm
    · rw [install_of_ne bound]
      exact (if_neg bound).symm
  | release scope domain =>
    show (registry.release scope domain).registry.ledger = _
    by_cases held : domain ∈ registry.holdings scope
    · rw [release_of_mem held]
      refine Eq.trans ?_ (if_pos held).symm
      split
      · exact ledger_vacate _ scope .lastReference
      · rfl
    · rw [release_of_notMem held]
      exact (if_neg held).symm
  | retire scope => exact ledger_vacate _ scope .forced
  | releaseDomain | releaseAll => rfl
  | isRegistered | referenceCount | domainCount | scopes | isEmpty | policy => rfl

/-- Retirements are no violations. -/
theorem contractViolations_finished (registry : Registry μ) (retired : List (Retirement μ)) :
    (registry.finished retired).ledger.contractViolations =
      registry.ledger.contractViolations := by
  induction retired generalizing registry with
  | nil => rfl
  | cons retirement rest ih => exact ih (registry.note _)

/-! ### The gauge of live handlers -/

/-- The number of handles whose scope has the given labels. -/
def population (handles : List (Handle μ)) (labels : LabelSet) : Nat :=
  handles.countP fun handle => byScope handle.scope = labels

/-- A handle that is passed moves the gauge up if it goes into a free slot. -/
theorem get_liveHandlers_passed (registry : Registry μ) (scope : Scope) (handle : Handle μ)
    (labels : LabelSet) :
    (if handle.scope = scope then
        registry.ledger.noteRegistration scope (registry.handler? scope).isNone
      else registry.ledger.noteViolation scope).liveHandlers.get labels =
    registry.ledger.liveHandlers.get labels + Int64.ofInt (population
      (if registry.Admits scope handle then some handle else none).toList labels) := by
  by_cases bound : handle.scope = scope
  · by_cases free : registry.handler? scope = none
    · have admits : registry.Admits scope handle := ⟨bound, free⟩
      rw [if_pos bound, if_pos admits, free]
      show (registry.ledger.liveHandlers.increment (byScope scope)).get labels = _
      rw [Gauge.increment, Gauge.get_add, population, Option.toList_some, List.countP_singleton,
        bound]
      by_cases same : labels = byScope scope
      · simp [same]
      · simp [same, Ne.symm same]
    · -- A handle that finds the slot taken is registered, but it is not the one that lives on.
      have occupied : (registry.handler? scope).isNone = false := by
        rwa [← Bool.not_eq_true, Option.isNone_iff_eq_none]
      rw [if_pos bound, if_neg fun admits => free admits.2, occupied]
      exact (Int64.add_zero _).symm
  · rw [if_neg bound, if_neg fun admits => bound admits.1]
    exact (Int64.add_zero _).symm

/-- A handle that is accepted moves the gauge up. -/
theorem get_liveHandlers_step (registry : Registry μ) (call : Call μ) (labels : LabelSet) :
    (registry.step call).registry.ledger.liveHandlers.get labels =
      registry.ledger.liveHandlers.get labels +
        Int64.ofInt (population (registry.accepted? call).toList labels) := by
  cases call with
  | register scope domain handle =>
    rw [accepted?_register, ledger_step]
    exact registry.get_liveHandlers_passed scope handle labels
  | install scope handle =>
    rw [accepted?_install, ledger_step]
    exact registry.get_liveHandlers_passed scope handle labels
  -- A release moves the gauge when the handle is released, not when its scope is vacated.
  | release scope domain =>
    rw [accepted?_of_handle?_eq_none _ rfl, ledger_step]
    refine Eq.trans ?_ (Int64.add_zero _).symm
    show (if domain ∈ registry.holdings scope then registry.ledger.noteRelease scope
      else registry.ledger.noteViolation scope).liveHandlers.get labels = _
    split <;> rfl
  | retire | releaseDomain | releaseAll | isRegistered | referenceCount | domainCount | scopes
    | isEmpty | policy =>
    rw [accepted?_of_handle?_eq_none _ rfl, ledger_step]
    exact (Int64.add_zero _).symm

/-- Each retirement that is entered moves it down. -/
theorem get_liveHandlers_finished (registry : Registry μ) (retired : List (Retirement μ))
    (labels : LabelSet) :
    (registry.finished retired).ledger.liveHandlers.get labels =
      registry.ledger.liveHandlers.get labels +
        Int64.ofInt (-population (retired.map (·.handle)) labels) := by
  induction retired generalizing registry with
  | nil => simp [finished, population]
  | cons retirement rest ih =>
    show ((registry.note _).finished rest).ledger.liveHandlers.get labels = _
    rw [ih]
    show (registry.ledger.liveHandlers.decrement (byScope retirement.handle.scope)).get labels + _
      = _
    rw [Gauge.decrement, Gauge.get_add, population, population, List.map_cons, List.countP_cons,
      Int64.add_assoc]
    congr 1
    by_cases same : labels = byScope retirement.handle.scope
    · simp only [same, if_true, decide_true, Nat.cast_add, Nat.cast_one, neg_add,
        Int64.ofInt_add, Int64.add_comm]
      rfl
    · simp [same, Ne.symm same]

/-- A call that is over has moved the gauge by as much as the number of handlers has changed. -/
theorem liveHandlers_step (registry : Registry μ) (call : Call μ) (labels : LabelSet) :
    let after := (registry.step call).registry.finished (registry.step call).retired
    after.ledger.liveHandlers.get labels =
      registry.ledger.liveHandlers.get labels +
        Int64.ofInt (population after.handlers.values labels -
          population registry.handlers.values labels) := by
  intro after
  have conserved := (registry.handlers_step_perm call).countP_eq
    (fun handle => decide (byScope handle.scope = labels))
  rw [List.countP_append, List.countP_append] at conserved
  have same_handlers : after.handlers = (registry.step call).registry.handlers :=
    handlers_finished _ _
  -- Accepted and there before is there after or retired, so the two ways to count the change agree.
  have moved : (population after.handlers.values labels : Int) -
        population registry.handlers.values labels =
      population (registry.accepted? call).toList labels +
        -population ((registry.step call).retired.map (·.handle)) labels := by
    rw [same_handlers]
    unfold population
    change _ = _ + List.countP _ (registry.removed call) at conserved
    unfold removed at conserved
    omega
  rw [get_liveHandlers_finished, get_liveHandlers_step, moved, Int64.ofInt_add, Int64.add_assoc]

/-- Calls one after another move the gauge by as much as the number of handlers changes. -/
theorem liveHandlers_flat (registry : Registry μ) (calls : List (Call μ)) (labels : LabelSet) :
    (registry.flat calls).2.ledger.liveHandlers.get labels =
      registry.ledger.liveHandlers.get labels +
        Int64.ofInt (population (registry.flat calls).2.handlers.values labels -
          population registry.handlers.values labels) := by
  induction calls generalizing registry with
  | nil => simp [flat]
  | cons call rest ih =>
    have first := registry.liveHandlers_step call labels
    rw [flat_cons, Prod.map_snd, id, ih, first, Int64.add_assoc, ← Int64.ofInt_add]
    congr 2
    omega

end Registry

end Switchboard
