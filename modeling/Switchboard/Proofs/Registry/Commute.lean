import Switchboard.Proofs.Registry.Entries
import Switchboard.Proofs.Registry.Policy

/-!
# `Switchboard.Proofs.Registry.Commute`: calls that can change places

Two calls are independent if they address different scopes, or if they release different domains
(`Call.Independent`). Made one after the other in either order, they leave the same registry with
the same ledger, are answered in the same way and retire the same handles (`perform_comm`).

For calls that address scopes, everything follows from two facts about a single call. It leaves
other scopes as they are (`sameAt_step_of_ne`), and what it does depends only on what is kept on its
own scope (`answer_step_congr` and the lemmas behind it). Two domains may share scopes. There it
depends on the order which of the two releases retires the handler, but not whether one of them does
(`onlyHeldBy_or_onlyHeldBy_erase`).
-/

set_option autoImplicit false

namespace Switchboard

open Metrics

variable {μ : Type}

/-- The scope that a call addresses. -/
def Call.target? : Call μ → Option Scope
  | .register scope _ _ | .install scope _ | .release scope _ | .retire scope => some scope
  | _ => none

/-- Neither call has to do with the other one. -/
inductive Call.Independent : Call μ → Call μ → Prop
  /-- They address different scopes. -/
  | scopes {first second : Call μ} {scope other : Scope} :
    first.target? = some scope → second.target? = some other → scope ≠ other →
    Independent first second
  /-- They release different domains. -/
  | domains {domain other : Domain} :
    domain ≠ other → Independent (.releaseDomain domain) (.releaseDomain other)

namespace Holdings

/-- There are holders, and all of them are among two domains. -/
def OnlyAmong (held : Holdings) (domain other : Domain) : Prop :=
  (domain ∈ held ∨ other ∈ held) ∧ (held.erase domain).erase other = ∅

/-- It does not matter which of two domains is named first. -/
theorem onlyAmong_comm {held : Holdings} (domain other : Domain) :
    held.OnlyAmong domain other ↔ held.OnlyAmong other domain := by
  unfold OnlyAmong
  rw [or_comm, erase_comm]

/-- If two domains leave a scope one after the other, one of them is the last exactly if there is no
third one. -/
theorem onlyHeldBy_or_onlyHeldBy_erase (held : Holdings) {domain other : Domain}
    (apart : domain ≠ other) :
    (held.onlyHeldBy domain = true ∨ onlyHeldBy (held.erase domain) other = true) ↔
      held.OnlyAmong domain other := by
  have still : other ∈ held.erase domain ↔ other ∈ held := by
    rw [Std.ExtTreeMap.mem_erase, ne_eq, Std.LawfulEqCmp.compare_eq_iff_eq]
    exact and_iff_right apart
  simp only [OnlyAmong, onlyHeldBy, Bool.and_eq_true, Std.ExtTreeMap.isEmpty_iff,
    Std.ExtTreeMap.contains_iff_mem, still]
  constructor
  · rintro (⟨there, alone⟩ | ⟨there, alone⟩)
    · refine ⟨Or.inl there, ?_⟩
      rw [alone]
      exact Std.ExtTreeMap.erase_empty
    · exact ⟨Or.inr there, alone⟩
  · rintro ⟨either, alone⟩
    by_cases there : other ∈ held
    · exact Or.inr ⟨there, alone⟩
    · -- Without the other domain, the second erasure takes nothing away.
      have nothing := erase_eq_self (Std.ExtTreeMap.getElem?_eq_none (mt still.mp there))
      rw [nothing] at alone
      exact Or.inl ⟨either.resolve_right there, alone⟩

end Holdings

namespace Registry

/-! ### What is kept on a scope -/

/-- Two registries keep the same on a scope. -/
structure SameAt (registry other : Registry μ) (scope : Scope) : Prop where
  occupant : registry.handler? scope = other.handler? scope
  holdings : registry.holdings scope = other.holdings scope
  listed : scope ∈ registry.counts ↔ scope ∈ other.counts
  pinned : scope ∈ registry.pinned ↔ scope ∈ other.pinned

namespace SameAt

variable {registry other third : Registry μ} {scope : Scope}

/-- Every registry is the same as itself at every scope. -/
theorem refl (registry : Registry μ) (scope : Scope) : SameAt registry registry scope :=
  ⟨rfl, rfl, .rfl, .rfl⟩

/-- What is the same at a scope is so the other way round. -/
theorem symm (same : SameAt registry other scope) : SameAt other registry scope :=
  ⟨same.occupant.symm, same.holdings.symm, same.listed.symm, same.pinned.symm⟩

/-- What is the same at a scope as a third registry is the same there. -/
theorem trans (same : SameAt registry other scope) (more : SameAt other third scope) :
    SameAt registry third scope :=
  ⟨same.occupant.trans more.occupant, same.holdings.trans more.holdings,
    same.listed.trans more.listed, same.pinned.trans more.pinned⟩

/-- Where two registries are the same, so are the last references. -/
theorem lastReference (same : SameAt registry other scope) (domain : Domain) :
    registry.lastReference scope domain = other.lastReference scope domain := by
  have pinned : registry.pinned.contains scope = other.pinned.contains scope := by
    rw [Bool.eq_iff_iff, ← Std.ExtTreeSet.mem_iff_contains, ← Std.ExtTreeSet.mem_iff_contains]
    exact same.pinned
  unfold Registry.lastReference
  rw [same.holdings, pinned]

end SameAt

attribute [ext] Registry

/-- Registries that keep the same on every scope differ in their policies and ledgers at most. -/
theorem eq_of_sameAt {registry other : Registry μ} (policy : registry.policy = other.policy)
    (ledger : registry.ledger = other.ledger) (same : ∀ scope, SameAt registry other scope) :
    registry = other := by
  have handlers : registry.handlers = other.handlers :=
    Std.ExtTreeMap.ext_getElem? fun {scope} => (same scope).occupant
  have counts : registry.counts = other.counts := by
    apply Std.ExtTreeMap.ext_getElem?
    intro scope
    have listed := (same scope).listed
    have held := (same scope).holdings
    unfold holdings at held
    rw [Std.ExtTreeMap.mem_iff_isSome_getElem?, Std.ExtTreeMap.mem_iff_isSome_getElem?] at listed
    -- The holdings of a scope do not tell an entry without domains from no entry.
    cases here : registry.counts[scope]? with
    | none =>
      cases there : other.counts[scope]? with
      | none => rfl
      | some more => simp [here, there] at listed
    | some some_held =>
      cases there : other.counts[scope]? with
      | none => simp [here, there] at listed
      | some more =>
        rw [here, there] at held
        exact congrArg some held
  have pinned : registry.pinned = other.pinned :=
    Std.ExtTreeSet.ext_mem fun scope => (same scope).pinned
  exact Registry.ext policy handlers counts pinned ledger

/-! ### Calls that address a scope -/

section Target

variable {registry other : Registry μ} {call : Call μ} {target : Scope}

/-- What other scopes keep stays as it is. -/
theorem sameAt_step_of_ne (registry : Registry μ) (targeted : call.target? = some target)
    {scope : Scope} (apart : scope ≠ target) :
    SameAt (registry.step call).registry registry scope := by
  cases call with
  | register goal domain handle =>
    obtain rfl := Option.some.inj targeted
    show SameAt (registry.register goal domain handle).registry registry scope
    by_cases bound : handle.scope = goal
    · refine ⟨?_, ?_, ?_, ?_⟩
      · rw [handler?_register bound, if_neg apart]
      · rw [holdings_register bound, if_neg apart]
      · simp [mem_counts_register bound, apart]
      · rw [pinned_register bound]
    · -- A handle that is refused leaves every scope as it is.
      rw [register_of_ne bound]
      exact ⟨rfl, rfl, .rfl, .rfl⟩
  | install goal handle =>
    obtain rfl := Option.some.inj targeted
    show SameAt (registry.install goal handle).registry registry scope
    by_cases bound : handle.scope = goal
    · refine ⟨?_, ?_, ?_, ?_⟩
      · rw [handler?_install bound, if_neg apart]
      · rw [holdings, counts_install bound, holdings]
      · rw [counts_install bound]
      · simp [mem_pinned_install bound, apart]
    · rw [install_of_ne bound]
      exact ⟨rfl, rfl, .rfl, .rfl⟩
  | release goal domain =>
    obtain rfl := Option.some.inj targeted
    show SameAt (registry.release goal domain).registry registry scope
    refine ⟨?_, ?_, ?_, ?_⟩
    · rw [handler?_release, if_neg fun both => apart both.1]
    · rw [holdings_release, if_neg fun both => apart both.1]
    · -- Without a reference there is nothing to give back.
      by_cases held : domain ∈ registry.holdings goal
      · rw [mem_counts_release held, if_neg apart]
      · rw [release_of_notMem held]
        rfl
    · rw [pinned_release]
  | retire goal =>
    obtain rfl := Option.some.inj targeted
    show SameAt (registry.retire goal).registry registry scope
    refine ⟨?_, ?_, ?_, ?_⟩
    · rw [handler?_retire, if_neg apart]
    · rw [holdings_retire, if_neg apart]
    · simp [mem_counts_retire, apart]
    · simp [mem_pinned_retire, apart]
  | releaseDomain | releaseAll | isRegistered | referenceCount | domainCount | scopes | isEmpty
  | policy => exact absurd targeted (by simp [Call.target?])

/-- What a call leaves on its own scope depends on what it finds there. -/
theorem sameAt_step_target (targeted : call.target? = some target)
    (same : SameAt registry other target) :
    SameAt (registry.step call).registry (other.step call).registry target := by
  cases call with
  | register goal domain handle =>
    obtain rfl := Option.some.inj targeted
    show SameAt (registry.register goal domain handle).registry
      (other.register goal domain handle).registry goal
    -- Whether a handle is refused is not for the registry to decide, so both take it or both
    -- refuse.
    by_cases bound : handle.scope = goal
    · refine ⟨?_, ?_, ?_, ?_⟩
      · rw [handler?_register bound, handler?_register bound, same.occupant]
      · rw [holdings_register bound, holdings_register bound, same.holdings]
      · rw [mem_counts_register bound, mem_counts_register bound, same.listed]
      · rw [pinned_register bound, pinned_register bound, same.pinned]
    · rw [register_of_ne bound, register_of_ne bound]
      exact ⟨same.occupant, same.holdings, same.listed, same.pinned⟩
  | install goal handle =>
    obtain rfl := Option.some.inj targeted
    show SameAt (registry.install goal handle).registry (other.install goal handle).registry goal
    by_cases bound : handle.scope = goal
    · refine ⟨?_, ?_, ?_, ?_⟩
      · rw [handler?_install bound, handler?_install bound, same.occupant]
      · rw [holdings, counts_install bound, holdings, counts_install bound]
        exact same.holdings
      · rw [counts_install bound, counts_install bound, same.listed]
      · rw [mem_pinned_install bound, mem_pinned_install bound, same.pinned]
    · rw [install_of_ne bound, install_of_ne bound]
      exact ⟨same.occupant, same.holdings, same.listed, same.pinned⟩
  | release goal domain =>
    obtain rfl := Option.some.inj targeted
    show SameAt (registry.release goal domain).registry (other.release goal domain).registry goal
    refine ⟨?_, ?_, ?_, ?_⟩
    · rw [handler?_release, handler?_release, same.lastReference, same.occupant]
    · rw [holdings_release, holdings_release, same.holdings]
    · -- The scope is listed on as long as another reference is held, which both see alike.
      by_cases held : domain ∈ registry.holdings goal
      · rw [mem_counts_release held, mem_counts_release (same.holdings ▸ held), if_pos rfl,
          if_pos rfl, same.holdings]
      · rw [release_of_notMem held, release_of_notMem (same.holdings ▸ held)]
        exact same.listed
    · rw [pinned_release, pinned_release, same.pinned]
  | retire goal =>
    obtain rfl := Option.some.inj targeted
    show SameAt (registry.retire goal).registry (other.retire goal).registry goal
    refine ⟨?_, ?_, ?_, ?_⟩
    · rw [handler?_retire, handler?_retire, if_pos rfl, if_pos rfl]
    · rw [holdings_retire, holdings_retire, if_pos rfl, if_pos rfl]
    · rw [mem_counts_retire, mem_counts_retire, same.listed]
    · rw [mem_pinned_retire, mem_pinned_retire, same.pinned]
  | releaseDomain | releaseAll | isRegistered | referenceCount | domainCount | scopes | isEmpty
  | policy => exact absurd targeted (by simp [Call.target?])

/-- What a call leaves on any scope depends on what it finds there. -/
theorem SameAt.step (targeted : call.target? = some target) {scope : Scope}
    (same : SameAt registry other scope) :
    SameAt (registry.step call).registry (other.step call).registry scope := by
  by_cases here : scope = target
  · subst here
    exact sameAt_step_target targeted same
  · exact (sameAt_step_of_ne registry targeted here).trans
      (same.trans (sameAt_step_of_ne other targeted here).symm)

/-- A call on one scope is answered by what is there, under the same policy. -/
theorem answer_step_congr (targeted : call.target? = some target)
    (same : SameAt registry other target) (policy : registry.policy = other.policy) :
    (registry.step call).answer = (other.step call).answer := by
  -- Only what the scope keeps and the policy go into an answer.
  cases call with
  | register goal domain handle =>
    obtain rfl := Option.some.inj targeted
    show Answer.flag (registry.register goal domain handle).answer =
      .flag (other.register goal domain handle).answer
    simp only [answer_register, Admits, same.occupant]
  | install goal handle =>
    obtain rfl := Option.some.inj targeted
    show Answer.flag (registry.install goal handle).answer =
      .flag (other.install goal handle).answer
    simp only [answer_install, Admits, same.occupant]
  | release goal domain =>
    obtain rfl := Option.some.inj targeted
    show Answer.ofRelease (registry.release goal domain).answer =
      .ofRelease (other.release goal domain).answer
    rw [answer_release, answer_release, same.holdings, same.lastReference, same.occupant, policy]
  | retire goal =>
    obtain rfl := Option.some.inj targeted
    show Answer.flag (registry.retire goal).answer = .flag (other.retire goal).answer
    rw [answer_retire, answer_retire, same.occupant]
  | releaseDomain | releaseAll | isRegistered | referenceCount | domainCount | scopes | isEmpty
  | policy => exact absurd targeted (by simp [Call.target?])

/-- A call on one scope retires whoever is there. -/
theorem retired_step_congr (targeted : call.target? = some target)
    (same : SameAt registry other target) :
    (registry.step call).retired = (other.step call).retired := by
  cases call with
  | register goal domain handle =>
    exact (retired_register registry goal domain handle).trans
      (retired_register other goal domain handle).symm
  | install goal handle =>
    exact (retired_install registry goal handle).trans (retired_install other goal handle).symm
  | release goal domain =>
    obtain rfl := Option.some.inj targeted
    show (registry.release goal domain).retired = (other.release goal domain).retired
    rw [retired_release, retired_release, same.lastReference, same.occupant]
  | retire goal =>
    obtain rfl := Option.some.inj targeted
    show (registry.retire goal).retired = (other.retire goal).retired
    rw [retired_retire, retired_retire, same.occupant]
  | releaseDomain | releaseAll | isRegistered | referenceCount | domainCount | scopes | isEmpty
  | policy => exact absurd targeted (by simp [Call.target?])

/-- What a call on one scope enters into the ledger is decided there. -/
theorem entry_congr (targeted : call.target? = some target)
    (same : SameAt registry other target) : registry.entry call = other.entry call := by
  funext ledger
  cases call with
  | register goal domain handle =>
    obtain rfl := Option.some.inj targeted
    simp only [entry, same.occupant]
  | install goal handle =>
    obtain rfl := Option.some.inj targeted
    simp only [entry, same.occupant]
  | release goal domain =>
    obtain rfl := Option.some.inj targeted
    simp only [entry, same.holdings]
  | retire | releaseDomain | releaseAll | isRegistered | referenceCount | domainCount | scopes
  | isEmpty | policy => rfl

end Target

/-! ### Entries -/

/-- An entry that can change places with all others can do so with that of a handle. -/
theorem commute_passed {entry : Ledger → Ledger} (movable : Ledger.Movable entry) (scope : Scope)
    (handle : Handle μ) (free : Bool) : Function.Commute entry
      fun ledger => if handle.scope = scope then ledger.noteRegistration scope free
        else ledger.noteViolation scope := by
  by_cases bound : handle.scope = scope
  · simp only [bound, if_true]
    exact movable.registration scope free
  · simp only [bound, if_false]
    exact movable.violation scope

/-- An entry that can change places with all others can do so with that of a call. -/
theorem commute_entry {entry : Ledger → Ledger} (movable : Ledger.Movable entry)
    (registry : Registry μ) (call : Call μ) : Function.Commute entry (registry.entry call) := by
  cases call with
  | register scope domain handle =>
    exact commute_passed movable scope handle (registry.handler? scope).isNone
  | install scope handle =>
    exact commute_passed movable scope handle (registry.handler? scope).isNone
  | release scope domain =>
    show Function.Commute entry fun ledger => if domain ∈ registry.holdings scope then
      ledger.noteRelease scope else ledger.noteViolation scope
    by_cases held : domain ∈ registry.holdings scope
    · simp only [held, if_true]
      exact movable.release scope
    · simp only [held, if_false]
      exact movable.violation scope
  | retire | releaseDomain | releaseAll | isRegistered | referenceCount | domainCount | scopes
  | isEmpty | policy => exact fun _ => rfl

/-- The entry of a call can change places with all others. -/
theorem movable_entry (registry : Registry μ) (call : Call μ) :
    Ledger.Movable (registry.entry call) where
  registration scope installed :=
    (commute_entry (Ledger.movable_noteRegistration scope installed) registry call).symm
  release scope := (commute_entry (Ledger.movable_noteRelease scope) registry call).symm
  retirement scope reason :=
    (commute_entry (Ledger.movable_noteRetirement scope reason) registry call).symm
  violation scope := (commute_entry (Ledger.movable_noteViolation scope) registry call).symm

/-! ### Domains -/

/-- The call that releases a domain does what the operation does. -/
theorem step_releaseDomain (registry : Registry μ) (domain : Domain) :
    registry.step (.releaseDomain domain) = (registry.releaseDomain domain).map .count := rfl

/-- The release of a domain changes no policy. -/
theorem policy_releaseDomain (registry : Registry μ) (domain : Domain) :
    (registry.releaseDomain domain).registry.policy = registry.policy := rfl

/-- The release of a domain enters nothing before the first retirement. -/
theorem ledger_releaseDomain (registry : Registry μ) (domain : Domain) :
    (registry.releaseDomain domain).registry.ledger = registry.ledger := rfl

/-- The release of a domain changes no pin. -/
theorem pinned_releaseDomain (registry : Registry μ) (domain : Domain) :
    (registry.releaseDomain domain).registry.pinned = registry.pinned := rfl

/-- One of two domains takes the handler of a scope with it, if no third one holds it and it is not
pinned. -/
theorem dependsOn_or_dependsOn_releaseDomain (registry : Registry μ) {domain other : Domain}
    (apart : domain ≠ other) (scope : Scope) :
    (registry.dependsOn domain scope = true ∨
        (registry.releaseDomain domain).registry.dependsOn other scope = true) ↔
      (registry.holdings scope).OnlyAmong domain other ∧ scope ∉ registry.pinned := by
  simp only [dependsOn, holdings_releaseDomain, pinned_releaseDomain, Bool.and_eq_true,
    ← or_and_right, Holdings.onlyHeldBy_or_onlyHeldBy_erase _ apart, Bool.not_eq_true',
    ← Bool.not_eq_true, ← Std.ExtTreeSet.mem_iff_contains]

/-- When two domains were released, those have left who depended on the first, or on the second
then. -/
theorem handler?_releaseDomain_releaseDomain (registry : Registry μ) (domain other : Domain)
    (scope : Scope) :
    ((registry.releaseDomain domain).registry.releaseDomain other).registry.handler? scope =
      if registry.dependsOn domain scope = true ∨
        (registry.releaseDomain domain).registry.dependsOn other scope = true then none
      else registry.handler? scope := by
  rw [handler?_releaseDomain, handler?_releaseDomain]
  by_cases first : registry.dependsOn domain scope = true
  · simp [first]
  · simp [first]

/-- When two domains were released, the scopes have lost their entries that only the two held. -/
theorem mem_counts_releaseDomain_releaseDomain (registry : Registry μ) {domain other : Domain}
    (apart : domain ≠ other) (scope : Scope) :
    scope ∈ ((registry.releaseDomain domain).registry.releaseDomain other).registry.counts ↔
      scope ∈ registry.counts ∧ ¬(registry.holdings scope).OnlyAmong domain other := by
  rw [mem_counts_releaseDomain, mem_counts_releaseDomain, holdings_releaseDomain, and_assoc,
    ← Holdings.onlyHeldBy_or_onlyHeldBy_erase _ apart, not_or, Bool.not_eq_true, Bool.not_eq_true]

/-- What two domains leave on a scope does not depend on which of them is released first. -/
theorem sameAt_releaseDomain_comm (registry : Registry μ) {domain other : Domain}
    (apart : domain ≠ other) (scope : Scope) :
    SameAt ((registry.releaseDomain domain).registry.releaseDomain other).registry
      ((registry.releaseDomain other).registry.releaseDomain domain).registry scope where
  occupant := by
    rw [handler?_releaseDomain_releaseDomain, handler?_releaseDomain_releaseDomain]
    refine if_congr ?_ rfl rfl
    rw [dependsOn_or_dependsOn_releaseDomain registry apart,
      dependsOn_or_dependsOn_releaseDomain registry apart.symm, Holdings.onlyAmong_comm]
  holdings := by
    rw [holdings_releaseDomain, holdings_releaseDomain, holdings_releaseDomain,
      holdings_releaseDomain]
    exact erase_comm _ _ _
  listed := by
    rw [mem_counts_releaseDomain_releaseDomain registry apart,
      mem_counts_releaseDomain_releaseDomain registry apart.symm, Holdings.onlyAmong_comm]
  pinned := by
    rw [pinned_releaseDomain, pinned_releaseDomain, pinned_releaseDomain, pinned_releaseDomain]

/-- The release of a domain counts the scopes on which the domain is listed. -/
theorem answer_releaseDomain_congr {registry other : Registry μ} {domain : Domain}
    (same : ∀ scope, domain ∈ registry.holdings scope ↔ domain ∈ other.holdings scope) :
    (registry.releaseDomain domain).answer = (other.releaseDomain domain).answer := by
  show (registry.counts.filter fun _ held => held.contains domain).size =
    (other.counts.filter fun _ held => held.contains domain).size
  rw [← Std.ExtTreeMap.length_keys, ← Std.ExtTreeMap.length_keys]
  -- Counted are keys, and none is there twice.
  refine ((List.perm_ext_iff_of_nodup Std.ExtTreeMap.nodup_keys
    Std.ExtTreeMap.nodup_keys).mpr fun scope => ?_).length_eq
  rw [mem_keys_filter_contains, mem_keys_filter_contains]
  exact same scope

/-- Which scopes a domain holds does not depend on the release of another one. -/
theorem answer_releaseDomain_releaseDomain (registry : Registry μ) {domain other : Domain}
    (apart : domain ≠ other) :
    ((registry.releaseDomain domain).registry.releaseDomain other).answer =
      (registry.releaseDomain other).answer := by
  apply answer_releaseDomain_congr
  intro scope
  rw [holdings_releaseDomain, Std.ExtTreeMap.mem_erase, ne_eq, Std.LawfulEqCmp.compare_eq_iff_eq]
  exact and_iff_right apart

/-- All that leave with a domain leave for the same reason. -/
theorem retired_releaseDomain (registry : Registry μ) (domain : Domain) :
    (registry.step (.releaseDomain domain)).retired =
      (registry.removed (.releaseDomain domain)).map (⟨·, .lastReference⟩) := by
  simp [removed, step, releaseDomain, Effect.map, Function.comp_def]

/-- The handlers that leave with two domains are those that were there and are not any more. -/
theorem removed_releaseDomain_perm (registry : Registry μ) (domain other : Domain) :
    registry.handlers.values.Perm
      (((registry.releaseDomain domain).registry.releaseDomain other).registry.handlers.values ++
        (registry.removed (.releaseDomain domain) ++
          (registry.releaseDomain domain).registry.removed (.releaseDomain other))) := by
  -- The conservation law of one call, twice. Neither of the calls brings a handle.
  have first := registry.handlers_step_perm (.releaseDomain domain)
  have second := (registry.releaseDomain domain).registry.handlers_step_perm (.releaseDomain other)
  rw [accepted?_of_handle?_eq_none _ rfl, Option.toList_none, List.nil_append, step_releaseDomain,
    Effect.registry_map] at first second
  refine first.trans ((second.append_right _).trans ?_)
  rw [List.append_assoc]
  exact List.perm_append_comm.append_left _

/-! ### Two calls in either order -/

/-- Two calls that are made one after the other do the same in either order. -/
structure Commuting (registry : Registry μ) (first second : Call μ) : Prop where
  same : ((registry.step first).registry.step second).registry =
    ((registry.step second).registry.step first).registry
  answer_second : ((registry.step first).registry.step second).answer =
    (registry.step second).answer
  answer_first : ((registry.step second).registry.step first).answer =
    (registry.step first).answer
  retired : ((registry.step first).retired ++
      ((registry.step first).registry.step second).retired).Perm
    ((registry.step second).retired ++ ((registry.step second).registry.step first).retired)

/-- Calls on two scopes commute. -/
theorem commuting_of_targets (registry : Registry μ) {first second : Call μ} {scope other : Scope}
    (at_first : first.target? = some scope) (at_second : second.target? = some other)
    (apart : scope ≠ other) : Commuting registry first second := by
  -- Each call finds its own scope as it would have found it in the other order.
  have spared : SameAt (registry.step first).registry registry other :=
    sameAt_step_of_ne registry at_first apart.symm
  have spared' : SameAt (registry.step second).registry registry scope :=
    sameAt_step_of_ne registry at_second apart
  have policy := registry.policy_step first
  have policy' := registry.policy_step second
  refine ⟨?_, answer_step_congr at_second spared policy,
    answer_step_congr at_first spared' policy', ?_⟩
  · refine eq_of_sameAt ?_ ?_ fun place => ?_
    · rw [policy_step, policy_step, policy_step, policy_step]
    · rw [ledger_step, ledger_step, ledger_step, ledger_step, entry_congr at_second spared,
        entry_congr at_first spared']
      exact (commute_entry (registry.movable_entry second) registry first) registry.ledger
    · -- One of the calls does not address the place, so only the other one matters there.
      by_cases there : place = other
      · subst there
        have later := (registry.step second).registry |>.sameAt_step_of_ne at_first apart.symm
        exact (spared.step at_second).trans later.symm
      · have later := (registry.step first).registry |>.sameAt_step_of_ne at_second there
        have before := registry.sameAt_step_of_ne at_second there
        exact later.trans (before.symm.step at_first)
  · rw [retired_step_congr at_second spared, retired_step_congr at_first spared']
    exact List.perm_append_comm

/-- The releases of two domains commute. -/
theorem commuting_of_domains (registry : Registry μ) {domain other : Domain}
    (apart : domain ≠ other) :
    Commuting registry (.releaseDomain domain) (.releaseDomain other) := by
  have same : ((registry.releaseDomain domain).registry.releaseDomain other).registry =
      ((registry.releaseDomain other).registry.releaseDomain domain).registry := by
    apply eq_of_sameAt
    · rw [policy_releaseDomain, policy_releaseDomain, policy_releaseDomain, policy_releaseDomain]
    · rw [ledger_releaseDomain, ledger_releaseDomain, ledger_releaseDomain, ledger_releaseDomain]
    · exact registry.sameAt_releaseDomain_comm apart
  -- In both orders those leave that were there and are not any more.
  have one := registry.removed_releaseDomain_perm domain other
  have another := registry.removed_releaseDomain_perm other domain
  rw [← same] at another
  have leave := (List.perm_append_left_iff _).mp (one.symm.trans another)
  refine ⟨?_, ?_, ?_, ?_⟩
  · rw [step_releaseDomain, step_releaseDomain, step_releaseDomain, step_releaseDomain]
    exact same
  · rw [step_releaseDomain, step_releaseDomain, step_releaseDomain]
    exact congrArg Answer.count (registry.answer_releaseDomain_releaseDomain apart)
  · rw [step_releaseDomain, step_releaseDomain, step_releaseDomain]
    exact congrArg Answer.count (registry.answer_releaseDomain_releaseDomain apart.symm)
  · rw [retired_releaseDomain, retired_releaseDomain, retired_releaseDomain, retired_releaseDomain,
      ← List.map_append, ← List.map_append, step_releaseDomain, step_releaseDomain,
      Effect.registry_map, Effect.registry_map]
    exact leave.map _

/-- Independent calls commute. -/
theorem Commuting.of_independent (registry : Registry μ) {first second : Call μ}
    (independent : first.Independent second) : Commuting registry first second := by
  cases independent with
  | scopes at_first at_second apart => exact commuting_of_targets registry at_first at_second apart
  | domains apart => exact commuting_of_domains registry apart

/-- Two calls one after the other: retirements may as well be entered at the end. -/
theorem registry_perform_perform {ε : Type} {onRelease : Release ε μ}
    (detached : onRelease.Detached) (world : World ε μ) (first second : Call μ) :
    ((world.perform onRelease first).2.perform onRelease second).2.registry =
      ((world.registry.step first).registry.step second).registry.finished
        ((world.registry.step first).retired ++
          ((world.registry.step first).registry.step second).retired) := by
  rw [registry_perform_of_detached detached, registry_perform_of_detached detached, step_finished,
    finished_append]

/-- Independent calls commute, whatever the registry holds. Among middlewares that leave the
registry alone, the two orders lead to the same registry: handlers, counts, pins and ledger. Each of
the calls is answered in the same way in both orders, and the same handles are retired, some perhaps
by the other call. -/
theorem perform_comm {ε : Type} {onRelease : Release ε μ} (detached : onRelease.Detached)
    (world : World ε μ) {first second : Call μ} (independent : first.Independent second) :
    let afterFirst := (world.perform onRelease first).2
    let afterSecond := (world.perform onRelease second).2
    (afterFirst.perform onRelease second).2.registry =
        (afterSecond.perform onRelease first).2.registry ∧
      (afterSecond.perform onRelease first).1 = (world.perform onRelease first).1 ∧
      (afterFirst.perform onRelease second).1 = (world.perform onRelease second).1 ∧
      (world.registry.removed first ++ afterFirst.registry.removed second).Perm
        (world.registry.removed second ++ afterSecond.registry.removed first) := by
  intro afterFirst afterSecond
  have commuting := Commuting.of_independent world.registry independent
  have found : afterFirst.registry = (world.registry.step first).registry.finished
      (world.registry.step first).retired := registry_perform_of_detached detached world first
  have found' : afterSecond.registry = (world.registry.step second).registry.finished
      (world.registry.step second).retired := registry_perform_of_detached detached world second
  -- The second call finds the entries of the first one's retirements, which it does not look at.
  refine ⟨?_, ?_, ?_, ?_⟩
  · rw [registry_perform_perform detached, registry_perform_perform detached, commuting.same]
    exact finished_perm _ commuting.retired
  · show (afterSecond.registry.step first).answer = (world.registry.step first).answer
    rw [found', step_finished]
    exact commuting.answer_first
  · show (afterFirst.registry.step second).answer = (world.registry.step second).answer
    rw [found, step_finished]
    exact commuting.answer_second
  · have leave := commuting.retired.map (·.handle)
    rw [List.map_append, List.map_append] at leave
    unfold removed
    rw [found, found', step_finished, step_finished]
    exact leave

/-- A guest and a host share the wallet. -/
def sharedWallet : World (List Nat) Nat where
  registry := (((Registry.empty .strict).register ⟨Scope.wallet⟩ ⟨"guest"⟩
    ⟨⟨Scope.wallet⟩, 0⟩).registry.register ⟨Scope.wallet⟩ ⟨"host"⟩ ⟨⟨Scope.wallet⟩, 1⟩).registry
  outside := []

/-- Its handler leaves with the host or with the guest, whoever is released last. -/
theorem perform_comm_of_sharedWallet :
    let log : Release (List Nat) Nat :=
      { effect := fun middleware world => world.mapOutside (· ++ [middleware]) }
    let guest : Call Nat := .releaseDomain ⟨"guest"⟩
    let host : Call Nat := .releaseDomain ⟨"host"⟩
    log.Detached ∧ guest.Independent host ∧
      ((sharedWallet.perform log guest).2.perform log host).2.registry =
        ((sharedWallet.perform log host).2.perform log guest).2.registry ∧
      sharedWallet.registry.removed guest = [] ∧ sharedWallet.registry.removed host = [] ∧
      (sharedWallet.perform log guest).2.registry.removed host = [⟨⟨Scope.wallet⟩, 0⟩] ∧
      (sharedWallet.perform log host).2.registry.removed guest = [⟨⟨Scope.wallet⟩, 0⟩] := by
  intro log guest host
  have detached : log.Detached := fun _ _ => rfl
  have independent : guest.Independent host := .domains (by decide)
  obtain ⟨same, -, -, leave⟩ := perform_comm detached sharedWallet independent
  have stays : sharedWallet.registry.removed guest = [] := by decide +kernel
  have stays' : sharedWallet.registry.removed host = [] := by decide +kernel
  have leaves : (sharedWallet.perform log guest).2.registry.removed host =
      [⟨⟨Scope.wallet⟩, 0⟩] := by
    decide +kernel
  rw [stays, stays', leaves, List.nil_append, List.nil_append] at leave
  exact ⟨detached, independent, same, stays, stays', leaves, (List.singleton_perm.mp leave).symm⟩

end Registry

end Switchboard
