import Switchboard.Proofs.Registry.Holdings
import Switchboard.Registry.World

/-!
# `Switchboard.Proofs.Registry.Step`: what each operation does to the maps

One group of lemmas for each operation says what becomes of the handlers, the references, the pins
and which handles leave. Nothing later opens an operation again.

`Registry.Admits` names the case in which a handle is taken in, and `Registry.lastReference` that in
which a release takes the handler with it, as `Registry.dependsOn` does for the release of a whole
domain.
-/

set_option autoImplicit false

namespace Switchboard

open Metrics

variable {μ : Type}

/-- The registry does not depend on what is made of the answer. -/
@[simp]
theorem Effect.registry_map {α β : Type} (f : α → β) (effect : Effect μ α) :
    (effect.map f).registry = effect.registry := rfl

/-- What is made of the answer. -/
@[simp]
theorem Effect.answer_map {α β : Type} (f : α → β) (effect : Effect μ α) :
    (effect.map f).answer = f effect.answer := rfl

/-- The retired handles do not depend on what is made of the answer. -/
@[simp]
theorem Effect.retired_map {α β : Type} (f : α → β) (effect : Effect μ α) :
    (effect.map f).retired = effect.retired := rfl

namespace Registry

/-! ### Parts of the operations -/

/-- A note changes no handler. -/
@[simp]
theorem handlers_note (registry : Registry μ) (entry : Ledger → Ledger) :
    (registry.note entry).handlers = registry.handlers := rfl

/-- A note changes no count. -/
@[simp]
theorem counts_note (registry : Registry μ) (entry : Ledger → Ledger) :
    (registry.note entry).counts = registry.counts := rfl

/-- A note pins no scope. -/
@[simp]
theorem pinned_note (registry : Registry μ) (entry : Ledger → Ledger) :
    (registry.note entry).pinned = registry.pinned := rfl

/-- A note changes the references of no scope. -/
@[simp]
theorem holdings_note (registry : Registry μ) (entry : Ledger → Ledger) (scope : Scope) :
    (registry.note entry).holdings scope = registry.holdings scope := rfl

/-- A note changes the references of no domain. -/
@[simp]
theorem domainCount_note (registry : Registry μ) (entry : Ledger → Ledger) (scope : Scope)
    (domain : Domain) :
    (registry.note entry).domainCount scope domain = registry.domainCount scope domain := rfl

/-- A note leaves every slot as it is. -/
@[simp]
theorem handler?_note (registry : Registry μ) (entry : Ledger → Ledger) (scope : Scope) :
    (registry.note entry).handler? scope = registry.handler? scope := rfl

/-- A scope has a handler if there is one in its slot. -/
theorem contains_handlers (registry : Registry μ) (scope : Scope) :
    registry.handlers.contains scope = (registry.handler? scope).isSome := by
  rw [handler?, Std.ExtTreeMap.isSome_getElem?_eq_contains]

/-- A free slot is filled, and an occupied one is left alone. -/
theorem handlers_fill (registry : Registry μ) (scope : Scope) (handle : Handle μ) :
    (registry.fill scope handle).registry.handlers =
      if (registry.handler? scope).isNone then registry.handlers.insert scope handle
      else registry.handlers := by
  simp only [fill, contains_handlers, handlers_note]
  cases registry.handler? scope <;> rfl

/-- A handle goes into a free slot and leaves an occupied one as it is. -/
theorem handler?_fill (registry : Registry μ) (scope other : Scope) (handle : Handle μ) :
    (registry.fill scope handle).registry.handler? other =
      if other = scope then some ((registry.handler? scope).getD handle)
      else registry.handler? other := by
  rw [handler?, handlers_fill]
  cases h : registry.handler? scope with
  | none =>
    show (registry.handlers.insert scope handle)[other]? = _
    rw [Std.ExtTreeMap.getElem?_insert]
    by_cases same : other = scope
    · simp [same]
    · simp [same, Ne.symm same, handler?]
  | some old =>
    show registry.handler? other = _
    by_cases same : other = scope
    · simp [same, h]
    · simp [same]

/-- Filling a slot takes no reference. -/
@[simp]
theorem counts_fill (registry : Registry μ) (scope : Scope) (handle : Handle μ) :
    (registry.fill scope handle).registry.counts = registry.counts := rfl

/-- Filling a slot pins no scope. -/
@[simp]
theorem pinned_fill (registry : Registry μ) (scope : Scope) (handle : Handle μ) :
    (registry.fill scope handle).registry.pinned = registry.pinned := rfl

/-- Nobody leaves when a slot is filled. -/
@[simp]
theorem retired_fill (registry : Registry μ) (scope : Scope) (handle : Handle μ) :
    (registry.fill scope handle).retired = [] := rfl

/-- The answer says whether the slot was free. -/
theorem answer_fill (registry : Registry μ) (scope : Scope) (handle : Handle μ) :
    (registry.fill scope handle).answer = (registry.handler? scope).isNone := by
  simp only [fill, contains_handlers]
  cases registry.handler? scope <;> rfl

/-- A slot that is vacated is free, and nothing else changes. -/
theorem registry_vacate (registry : Registry μ) (scope : Scope) (reason : Reason) :
    (registry.vacate scope reason).registry =
      { registry with handlers := registry.handlers.erase scope } := by
  unfold vacate
  cases h : registry.handlers[scope]? with
  | none => rw [erase_eq_self h]
  | some handle => rfl

/-- The slot is free afterwards. -/
theorem handlers_vacate (registry : Registry μ) (scope : Scope) (reason : Reason) :
    (registry.vacate scope reason).registry.handlers = registry.handlers.erase scope := by
  rw [registry_vacate]

/-- References are not dropped when a slot is vacated. -/
theorem counts_vacate (registry : Registry μ) (scope : Scope) (reason : Reason) :
    (registry.vacate scope reason).registry.counts = registry.counts := by
  rw [registry_vacate]

/-- Pins are not taken away when a slot is vacated. -/
theorem pinned_vacate (registry : Registry μ) (scope : Scope) (reason : Reason) :
    (registry.vacate scope reason).registry.pinned = registry.pinned := by
  rw [registry_vacate]

/-- The occupant of a slot is what leaves it. -/
theorem retired_vacate (registry : Registry μ) (scope : Scope) (reason : Reason) :
    (registry.vacate scope reason).retired
      = (registry.handler? scope).toList.map (⟨·, reason⟩) := by
  unfold vacate handler?
  cases registry.handlers[scope]? <;> rfl

/-- The answer says whether somebody was in the slot. -/
theorem answer_vacate (registry : Registry μ) (scope : Scope) (reason : Reason) :
    (registry.vacate scope reason).answer = (registry.handler? scope).isSome := by
  unfold vacate handler?
  cases registry.handlers[scope]? <;> rfl

/-! ### Taking in -/

/-- Whether a handle that is passed for a scope goes into its slot. -/
abbrev Admits (registry : Registry μ) (scope : Scope) (handle : Handle μ) : Prop :=
  handle.scope = scope ∧ registry.handler? scope = none

/-- A handle that is bound to its scope is accepted. -/
theorem register_of_eq {registry : Registry μ} {scope : Scope} {handle : Handle μ}
    (bound : handle.scope = scope) (domain : Domain) :
    registry.register scope domain handle =
      { registry with
        counts := registry.counts.insert scope ((registry.holdings scope).take domain) }.fill
          scope handle :=
  if_pos bound

/-- A handle that is bound to another scope is refused. -/
theorem register_of_ne {registry : Registry μ} {scope : Scope} {handle : Handle μ}
    (other : handle.scope ≠ scope) (domain : Domain) :
    registry.register scope domain handle = registry.refuse scope false :=
  if_neg other

/-- A handle that is bound to the scope pins it, whether or not the slot is free. -/
theorem install_of_eq {registry : Registry μ} {scope : Scope} {handle : Handle μ}
    (bound : handle.scope = scope) :
    registry.install scope handle =
      { registry with pinned := registry.pinned.insert scope }.fill scope handle :=
  if_pos bound

/-- A handle that is bound to another scope is refused. -/
theorem install_of_ne {registry : Registry μ} {scope : Scope} {handle : Handle μ}
    (other : handle.scope ≠ scope) :
    registry.install scope handle = registry.refuse scope false :=
  if_neg other

/-- The holdings on a scope for which others were listed. -/
theorem getD_getElem?_insert (counts : Std.ExtTreeMap Scope Holdings) (scope other : Scope)
    (held : Holdings) :
    (counts.insert scope held)[other]?.getD ∅ =
      if other = scope then held else counts[other]?.getD ∅ := by
  rw [Std.ExtTreeMap.getElem?_insert]
  by_cases same : other = scope
  · simp [same]
  · simp [same, Ne.symm same]

/-- The holdings on a scope after another one's were taken off the list. -/
theorem getD_getElem?_erase (counts : Std.ExtTreeMap Scope Holdings) (scope other : Scope) :
    (counts.erase scope)[other]?.getD ∅ = if other = scope then ∅ else counts[other]?.getD ∅ := by
  rw [Std.ExtTreeMap.getElem?_erase]
  by_cases same : other = scope
  · simp [same]
  · simp [same, Ne.symm same]

section Register

variable {registry : Registry μ} {scope : Scope} {handle : Handle μ}
  (bound : handle.scope = scope) (domain : Domain)

include bound

/-- A registration takes one reference, on its own scope. -/
theorem holdings_register (other : Scope) :
    (registry.register scope domain handle).registry.holdings other =
      if other = scope then (registry.holdings scope).take domain
      else registry.holdings other := by
  rw [register_of_eq bound]
  exact getD_getElem?_insert _ _ _ _

/-- A registration gives its scope an entry. -/
theorem mem_counts_register (other : Scope) :
    other ∈ (registry.register scope domain handle).registry.counts ↔
      other = scope ∨ other ∈ registry.counts := by
  rw [register_of_eq bound, counts_fill, Std.ExtTreeMap.mem_insert,
    Std.LawfulEqCmp.compare_eq_iff_eq, eq_comm]

/-- A registration pins nothing. -/
theorem pinned_register :
    (registry.register scope domain handle).registry.pinned = registry.pinned := by
  rw [register_of_eq bound, pinned_fill]

/-- A registration fills the slot of its scope if it is free. -/
theorem handler?_register (other : Scope) :
    (registry.register scope domain handle).registry.handler? other =
      if other = scope then some ((registry.handler? scope).getD handle)
      else registry.handler? other := by
  rw [register_of_eq bound]
  exact handler?_fill _ _ _ _

end Register

/-- Nobody leaves by a registration. -/
theorem retired_register (registry : Registry μ) (scope : Scope) (domain : Domain)
    (handle : Handle μ) : (registry.register scope domain handle).retired = [] := by
  unfold register
  split <;> rfl

/-- The handle goes in if it is admitted. -/
theorem handlers_register (registry : Registry μ) (scope : Scope) (domain : Domain)
    (handle : Handle μ) :
    (registry.register scope domain handle).registry.handlers =
      if registry.Admits scope handle then registry.handlers.insert scope handle
      else registry.handlers := by
  by_cases bound : handle.scope = scope
  · rw [register_of_eq bound, handlers_fill]
    simp [Admits, bound, handler?]
  · rw [register_of_ne bound, if_neg (fun admits => bound admits.1)]
    rfl

/-- A registration tells whether the handle was admitted. -/
theorem answer_register (registry : Registry μ) (scope : Scope) (domain : Domain)
    (handle : Handle μ) :
    (registry.register scope domain handle).answer = decide (registry.Admits scope handle) := by
  by_cases bound : handle.scope = scope
  · rw [register_of_eq bound, answer_fill]
    show (registry.handler? scope).isNone = _
    rw [Bool.eq_iff_iff, decide_eq_true_iff, Option.isNone_iff_eq_none]
    exact ⟨fun free => ⟨bound, free⟩, fun admits => admits.2⟩
  · rw [register_of_ne bound, decide_eq_false (fun admits => bound admits.1)]
    rfl

section Install

variable {registry : Registry μ} {scope : Scope} {handle : Handle μ}
  (bound : handle.scope = scope)

include bound

/-- An installation takes no reference. -/
theorem counts_install :
    (registry.install scope handle).registry.counts = registry.counts := by
  rw [install_of_eq bound, counts_fill]

/-- An installation pins its scope. -/
theorem mem_pinned_install (other : Scope) :
    other ∈ (registry.install scope handle).registry.pinned ↔
      other = scope ∨ other ∈ registry.pinned := by
  rw [install_of_eq bound, pinned_fill, Std.ExtTreeSet.mem_insert,
    Std.LawfulEqCmp.compare_eq_iff_eq, eq_comm]

/-- An installation fills the slot of its scope if it is free. -/
theorem handler?_install (other : Scope) :
    (registry.install scope handle).registry.handler? other =
      if other = scope then some ((registry.handler? scope).getD handle)
      else registry.handler? other := by
  rw [install_of_eq bound]
  exact handler?_fill _ _ _ _

end Install

/-- Nobody leaves by an installation. -/
theorem retired_install (registry : Registry μ) (scope : Scope) (handle : Handle μ) :
    (registry.install scope handle).retired = [] := by
  unfold install
  split <;> rfl

/-- The handle goes in if it is admitted. -/
theorem handlers_install (registry : Registry μ) (scope : Scope) (handle : Handle μ) :
    (registry.install scope handle).registry.handlers =
      if registry.Admits scope handle then registry.handlers.insert scope handle
      else registry.handlers := by
  by_cases bound : handle.scope = scope
  · rw [install_of_eq bound, handlers_fill]
    simp [Admits, bound, handler?]
  · rw [install_of_ne bound, if_neg (fun admits => bound admits.1)]
    rfl

/-- The answer says whether the handle was admitted. -/
theorem answer_install (registry : Registry μ) (scope : Scope) (handle : Handle μ) :
    (registry.install scope handle).answer = decide (registry.Admits scope handle) := by
  by_cases bound : handle.scope = scope
  · rw [install_of_eq bound, answer_fill]
    show (registry.handler? scope).isNone = _
    rw [Bool.eq_iff_iff, decide_eq_true_iff, Option.isNone_iff_eq_none]
    exact ⟨fun free => ⟨bound, free⟩, fun admits => admits.2⟩
  · rw [install_of_ne bound, decide_eq_false (fun admits => bound admits.1)]
    rfl

/-! ### Releasing one reference -/

/-- Whether a release drops the last reference on a scope that is not pinned. -/
def lastReference (registry : Registry μ) (scope : Scope) (domain : Domain) : Bool :=
  (registry.holdings scope).contains domain && ((registry.holdings scope).drop domain).isEmpty &&
    !registry.pinned.contains scope

/-- A reference that the domain does not hold is refused as the policy says. -/
theorem release_of_notMem {registry : Registry μ} {scope : Scope} {domain : Domain}
    (absent : domain ∉ registry.holdings scope) :
    registry.release scope domain
      = registry.refuse scope (unregistered registry.policy scope domain) := by
  simp only [release]
  rw [if_neg (by simpa using absent)]

/-- The registry with one reference less. A scope without references is taken off the list. -/
def withoutReference (registry : Registry μ) (scope : Scope) (domain : Domain) : Registry μ :=
  { registry.note (·.noteRelease scope) with
    counts :=
      if ((registry.holdings scope).drop domain).isEmpty then registry.counts.erase scope
      else registry.counts.insert scope ((registry.holdings scope).drop domain) }

/-- A release drops the reference, and the handler goes with the last one. -/
theorem release_of_mem {registry : Registry μ} {scope : Scope} {domain : Domain}
    (held : domain ∈ registry.holdings scope) :
    registry.release scope domain =
      if registry.lastReference scope domain
      then ((registry.withoutReference scope domain).vacate scope .lastReference).map .ok
      else { registry := registry.withoutReference scope domain, answer := .ok false } := by
  simp only [release, lastReference, withoutReference, Std.ExtTreeMap.contains_iff_mem, held,
    if_true]
  -- The pin only matters when nobody holds a reference any more.
  by_cases last : ((registry.holdings scope).drop domain).isEmpty = true
  · by_cases pin : registry.pinned.contains scope = true
    · simp [last, pin]
    · simp [last, pin, held]
  · simp [last]

/-- Whoever holds no reference does not hold the last one. -/
theorem lastReference_of_notMem {registry : Registry μ} {scope : Scope} {domain : Domain}
    (absent : domain ∉ registry.holdings scope) :
    registry.lastReference scope domain = false := by
  have not_held : (registry.holdings scope).contains domain = false := by
    rwa [← Bool.not_eq_true, Std.ExtTreeMap.contains_iff_mem]
  rw [lastReference, not_held, Bool.false_and, Bool.false_and]

/-- The counts after a release are those without the reference, whether or not the handler
leaves. -/
theorem counts_release {registry : Registry μ} {scope : Scope} {domain : Domain}
    (held : domain ∈ registry.holdings scope) :
    (registry.release scope domain).registry.counts
      = (registry.withoutReference scope domain).counts := by
  rw [release_of_mem held]
  split
  · rw [Effect.registry_map, counts_vacate]
  · rfl

/-- A release drops one reference of the domain if it holds any. -/
theorem holdings_release (registry : Registry μ) (scope other : Scope) (domain : Domain) :
    (registry.release scope domain).registry.holdings other =
      if other = scope ∧ domain ∈ registry.holdings scope
      then (registry.holdings scope).drop domain
      else registry.holdings other := by
  by_cases held : domain ∈ registry.holdings scope
  · simp only [held, and_true]
    rw [holdings, counts_release held, withoutReference]
    by_cases last : ((registry.holdings scope).drop domain).isEmpty = true
    · have none_left : (registry.holdings scope).drop domain = ∅ :=
        Std.ExtTreeMap.isEmpty_iff.mp last
      simp only [last, if_true]
      rw [none_left]
      exact getD_getElem?_erase _ _ _
    · simp only [last]
      exact getD_getElem?_insert _ _ _ _
  · rw [release_of_notMem held, if_neg (fun both => held both.2)]
    rfl

/-- The scope keeps its entry until nobody is left on it. -/
theorem mem_counts_release {registry : Registry μ} {scope : Scope} {domain : Domain}
    (held : domain ∈ registry.holdings scope) (other : Scope) :
    other ∈ (registry.release scope domain).registry.counts ↔
      if other = scope then (registry.holdings scope).drop domain ≠ ∅
      else other ∈ registry.counts := by
  have apart : compare scope other = .eq ↔ other = scope := by
    rw [Std.LawfulEqCmp.compare_eq_iff_eq, eq_comm]
  rw [counts_release held, withoutReference]
  by_cases last : (registry.holdings scope).drop domain = ∅
  · simp only [Std.ExtTreeMap.isEmpty_iff.mpr last, if_true]
    rw [Std.ExtTreeMap.mem_erase, ne_eq, apart]
    by_cases same : other = scope <;> simp [same, last]
  · simp only [Std.ExtTreeMap.isEmpty_eq_false_iff.mpr last, Bool.false_eq_true, if_false]
    rw [Std.ExtTreeMap.mem_insert, apart]
    by_cases same : other = scope <;> simp [same, last]

/-- A release changes no pin. -/
theorem pinned_release (registry : Registry μ) (scope : Scope) (domain : Domain) :
    (registry.release scope domain).registry.pinned = registry.pinned := by
  by_cases held : domain ∈ registry.holdings scope
  · rw [release_of_mem held]
    split
    · rw [Effect.registry_map, pinned_vacate]
      rfl
    · rfl
  · rw [release_of_notMem held]
    rfl

/-- The handler leaves with the last reference. -/
theorem handlers_release (registry : Registry μ) (scope : Scope) (domain : Domain) :
    (registry.release scope domain).registry.handlers =
      if registry.lastReference scope domain then registry.handlers.erase scope
      else registry.handlers := by
  by_cases held : domain ∈ registry.holdings scope
  · rw [release_of_mem held]
    split
    · rw [Effect.registry_map, handlers_vacate]
      rfl
    · rfl
  · rw [release_of_notMem held, lastReference_of_notMem held]
    rfl

/-- After the last reference the slot is free, and all others are as they were. -/
theorem handler?_release (registry : Registry μ) (scope other : Scope) (domain : Domain) :
    (registry.release scope domain).registry.handler? other =
      if other = scope ∧ registry.lastReference scope domain = true then none
      else registry.handler? other := by
  rw [handler?, handlers_release]
  by_cases last : registry.lastReference scope domain = true
  · rw [if_pos last, Std.ExtTreeMap.getElem?_erase]
    by_cases same : other = scope
    · simp [same, last]
    · simp [same, Ne.symm same, handler?]
  · rw [if_neg last, if_neg (fun both => last both.2)]
    rfl

/-- Whoever leaves by a release leaves with the last reference. -/
theorem retired_release (registry : Registry μ) (scope : Scope) (domain : Domain) :
    (registry.release scope domain).retired =
      if registry.lastReference scope domain
      then (registry.handler? scope).toList.map (⟨·, .lastReference⟩)
      else [] := by
  by_cases held : domain ∈ registry.holdings scope
  · rw [release_of_mem held]
    split
    · rw [Effect.retired_map, retired_vacate]
      rfl
    · rfl
  · rw [release_of_notMem held, lastReference_of_notMem held]
    rfl

/-- A release tells whether the handler left. -/
theorem answer_release (registry : Registry μ) (scope : Scope) (domain : Domain) :
    (registry.release scope domain).answer =
      if domain ∈ registry.holdings scope
      then .ok (registry.lastReference scope domain && (registry.handler? scope).isSome)
      else unregistered registry.policy scope domain := by
  by_cases held : domain ∈ registry.holdings scope
  · rw [release_of_mem held, if_pos held]
    split
    · rename_i last
      rw [Effect.answer_map, answer_vacate, last, Bool.true_and]
      rfl
    · rename_i more
      rw [Bool.eq_false_of_not_eq_true more, Bool.false_and]
  · rw [release_of_notMem held, if_neg held]
    rfl

/-! ### Retiring a scope -/

/-- A retirement drops all references on the scope. -/
theorem holdings_retire (registry : Registry μ) (scope other : Scope) :
    (registry.retire scope).registry.holdings other =
      if other = scope then ∅ else registry.holdings other := by
  rw [retire, holdings, counts_vacate]
  exact getD_getElem?_erase _ _ _

/-- A retired scope has no entry. -/
theorem mem_counts_retire (registry : Registry μ) (scope other : Scope) :
    other ∈ (registry.retire scope).registry.counts ↔ other ≠ scope ∧ other ∈ registry.counts := by
  rw [retire, counts_vacate, Std.ExtTreeMap.mem_erase, ne_eq, ne_eq,
    Std.LawfulEqCmp.compare_eq_iff_eq, eq_comm]

/-- A retired scope is not pinned. -/
theorem mem_pinned_retire (registry : Registry μ) (scope other : Scope) :
    other ∈ (registry.retire scope).registry.pinned ↔ other ≠ scope ∧ other ∈ registry.pinned := by
  rw [retire, pinned_vacate, Std.ExtTreeSet.mem_erase, ne_eq, ne_eq,
    Std.LawfulEqCmp.compare_eq_iff_eq, eq_comm]

/-- The handler of a retired scope leaves. -/
theorem handlers_retire (registry : Registry μ) (scope : Scope) :
    (registry.retire scope).registry.handlers = registry.handlers.erase scope := by
  rw [retire, handlers_vacate]

/-- The slot of a retired scope is free. -/
theorem handler?_retire (registry : Registry μ) (scope other : Scope) :
    (registry.retire scope).registry.handler? other =
      if other = scope then none else registry.handler? other := by
  rw [handler?, handlers_retire, Std.ExtTreeMap.getElem?_erase]
  by_cases same : other = scope
  · simp [same]
  · simp [same, Ne.symm same, handler?]

/-- Whoever is in the slot leaves, and is forced to. -/
theorem retired_retire (registry : Registry μ) (scope : Scope) :
    (registry.retire scope).retired = (registry.handler? scope).toList.map (⟨·, .forced⟩) := by
  rw [retire, retired_vacate]
  rfl

/-- The answer says whether somebody had to leave. -/
theorem answer_retire (registry : Registry μ) (scope : Scope) :
    (registry.retire scope).answer = (registry.handler? scope).isSome := by
  rw [retire, answer_vacate]
  rfl

/-! ### Releasing a domain -/

/-- A domain that is released is taken off every list. -/
theorem holdings_releaseDomain (registry : Registry μ) (domain : Domain) (scope : Scope) :
    (registry.releaseDomain domain).registry.holdings scope
      = (registry.holdings scope).erase domain := by
  simp only [releaseDomain, holdings, Std.ExtTreeMap.getElem?_filterMap']
  cases h : registry.counts[scope]? with
  | none => simp
  | some held =>
    rw [Option.bind_some, Option.getD_some]
    -- A scope that only the domain holds is taken off the list, which is as if its holdings were
    -- empty.
    by_cases only : held.onlyHeldBy domain = true
    · have none_left : (held.erase domain).isEmpty = true := (Bool.and_eq_true _ _ ▸ only).2
      rw [if_pos only, Std.ExtTreeMap.isEmpty_iff.mp none_left]
      rfl
    · rw [if_neg only, Option.getD_some]

/-- The scopes on which the domain was alone lose their entries. -/
theorem mem_counts_releaseDomain (registry : Registry μ) (domain : Domain) (scope : Scope) :
    scope ∈ (registry.releaseDomain domain).registry.counts ↔
      scope ∈ registry.counts ∧ (registry.holdings scope).onlyHeldBy domain = false := by
  simp only [releaseDomain, Std.ExtTreeMap.mem_iff_isSome_getElem?,
    Std.ExtTreeMap.getElem?_filterMap', holdings]
  cases registry.counts[scope]? with
  | none => simp
  | some held => cases h : held.onlyHeldBy domain <;> simp [h]

/-- Handlers that depended on the domain leave. -/
theorem handler?_releaseDomain (registry : Registry μ) (domain : Domain) (scope : Scope) :
    (registry.releaseDomain domain).registry.handler? scope =
      if registry.dependsOn domain scope then none else registry.handler? scope := by
  simp only [releaseDomain, handler?, Std.ExtTreeMap.getElem?_filter']
  cases registry.handlers[scope]? with
  | none => simp
  | some handle => cases registry.dependsOn domain scope <;> simp

/-- The handlers that leave with a domain are those that depend on it. -/
theorem mem_retired_releaseDomain (registry : Registry μ) (domain : Domain)
    (retirement : Retirement μ) :
    retirement ∈ (registry.releaseDomain domain).retired ↔
      retirement.reason = .lastReference ∧ ∃ scope, registry.dependsOn domain scope = true ∧
        registry.handler? scope = some retirement.handle := by
  simp only [releaseDomain, values_eq_map_toList, List.mem_map, Prod.exists,
    Std.ExtTreeMap.mem_toList_iff_getElem?_eq_some, Std.ExtTreeMap.getElem?_filter',
    Option.filter_eq_some_iff, handler?]
  constructor
  · rintro ⟨_, ⟨scope, handle, ⟨found, depends⟩, rfl⟩, rfl⟩
    exact ⟨rfl, scope, depends, found⟩
  · rintro ⟨reason, scope, depends, found⟩
    exact ⟨retirement.handle, ⟨scope, _, ⟨found, depends⟩, rfl⟩, by rw [← reason]⟩

/-- The scopes that are counted are those on which the domain is listed. -/
theorem mem_keys_filter_contains (registry : Registry μ) (domain : Domain) (scope : Scope) :
    scope ∈ (registry.counts.filter fun _ held => held.contains domain).keys ↔
      domain ∈ registry.holdings scope := by
  rw [Std.ExtTreeMap.mem_keys, Std.ExtTreeMap.mem_iff_isSome_getElem?,
    Std.ExtTreeMap.getElem?_filter', holdings]
  cases registry.counts[scope]? with
  | none => simp
  | some held => simp [Option.filter]

/-! ### Releasing everything -/

/-- Nobody holds a reference when everything was released. -/
@[simp]
theorem holdings_releaseAll (registry : Registry μ) (scope : Scope) :
    registry.releaseAll.registry.holdings scope = ∅ := by
  simp [releaseAll, holdings]

/-- Every slot is free when everything was released. -/
@[simp]
theorem handler?_releaseAll (registry : Registry μ) (scope : Scope) :
    registry.releaseAll.registry.handler? scope = none := by
  simp [releaseAll, handler?]

/-- Every handler is forced to leave. -/
theorem mem_retired_releaseAll (registry : Registry μ) (retirement : Retirement μ) :
    retirement ∈ registry.releaseAll.retired ↔
      retirement.reason = .forced ∧ ∃ scope, registry.handler? scope = some retirement.handle := by
  simp only [releaseAll, values_eq_map_toList, List.mem_map, Prod.exists,
    Std.ExtTreeMap.mem_toList_iff_getElem?_eq_some, handler?]
  constructor
  · rintro ⟨_, ⟨scope, handle, found, rfl⟩, rfl⟩
    exact ⟨rfl, scope, found⟩
  · rintro ⟨reason, scope, found⟩
    exact ⟨retirement.handle, ⟨scope, _, found, rfl⟩, by rw [← reason]⟩

/-! ### Counts of single domains -/

/-- A registration counts one reference more for the domain. -/
theorem domainCount_register {registry : Registry μ} {scope : Scope} {handle : Handle μ}
    (bound : handle.scope = scope) (domain : Domain) (other : Scope) (holder : Domain) :
    (registry.register scope domain handle).registry.domainCount other holder =
      if other = scope ∧ holder = domain then registry.domainCount scope domain + 1
      else registry.domainCount other holder := by
  rw [domainCount, holdings_register bound]
  by_cases same : other = scope
  · rw [if_pos same, Holdings.of_take, same]
    simp only [true_and]
    rfl
  · rw [if_neg same, if_neg (fun both => same both.1)]
    rfl

/-- A release counts one reference less for the domain if it holds any. -/
theorem domainCount_release (registry : Registry μ) (scope : Scope) (domain : Domain)
    (other : Scope) (holder : Domain) :
    (registry.release scope domain).registry.domainCount other holder =
      if (other = scope ∧ holder = domain) ∧ domain ∈ registry.holdings scope
      then registry.domainCount scope domain - 1
      else registry.domainCount other holder := by
  rw [domainCount, holdings_release]
  by_cases held : domain ∈ registry.holdings scope
  · by_cases same : other = scope
    · rw [if_pos ⟨same, held⟩, Holdings.of_drop, same]
      simp only [true_and, held, and_true]
      rfl
    · rw [if_neg (fun both => same both.1), if_neg (fun all => same all.1.1)]
      rfl
  · rw [if_neg (fun both => held both.2), if_neg (fun all => held all.2)]
    rfl

/-- Nobody has a count on a retired scope. -/
theorem domainCount_retire (registry : Registry μ) (scope other : Scope) (holder : Domain) :
    (registry.retire scope).registry.domainCount other holder =
      if other = scope then 0 else registry.domainCount other holder := by
  rw [domainCount, holdings_retire]
  by_cases same : other = scope
  · rw [if_pos same, if_pos same, Holdings.of_empty]
  · rw [if_neg same, if_neg same]
    rfl

/-- A released domain has no count on any scope. -/
theorem domainCount_releaseDomain (registry : Registry μ) (domain : Domain) (other : Scope)
    (holder : Domain) :
    (registry.releaseDomain domain).registry.domainCount other holder =
      if holder = domain then 0 else registry.domainCount other holder := by
  rw [domainCount, holdings_releaseDomain, Holdings.of_erase]
  rfl

/-- There are no counts when everything was released. -/
@[simp]
theorem domainCount_releaseAll (registry : Registry μ) (scope : Scope) (domain : Domain) :
    registry.releaseAll.registry.domainCount scope domain = 0 := by
  rw [domainCount, holdings_releaseAll, Holdings.of_empty]

end Registry

end Switchboard
