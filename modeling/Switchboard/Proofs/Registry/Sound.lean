import Switchboard.Proofs.Registry.Step

/-!
# `Switchboard.Proofs.Registry.Sound`: what every registry satisfies

`Registry.Sound` ties the three maps of a registry together: a scope is listed exactly while
somebody holds references on it, whoever is listed holds at least one, and a scope has a handler
exactly if it is listed or pinned. The empty registry is sound (`Sound.empty`) and every call keeps
it so (`Sound.step`), as long as there is room for the references taken (`Registry.HasRoom`). What
is said about handlers needs no room (`Staffed.step`).

The references on a scope grow by at most those that a call takes (`references_step_le`), so room
for a call is all that has to be asked for.
-/

set_option autoImplicit false

namespace Switchboard

variable {μ : Type}

/-- Whether a call takes a reference on a scope. -/
def Call.takesOn (scope : Scope) : Call μ → Bool
  | .register target _ handle => decide (target = scope) && decide (handle.scope = target)
  | _ => false

namespace Registry

/-- The references on a scope, of all domains together and without bound. -/
def references (registry : Registry μ) (scope : Scope) : Nat := (registry.holdings scope).sum

/-- Calls can be made without ever having `2 ^ 32` references on a scope. -/
def HasRoom (registry : Registry μ) (calls : List (Call μ)) : Prop :=
  ∀ scope, registry.references scope + calls.countP (·.takesOn scope) < 2 ^ 32

/-- The three maps are in step with each other. -/
structure Sound (registry : Registry μ) : Prop where
  /-- A scope on which nobody holds a reference is not listed. -/
  held : ∀ scope ∈ registry.counts, registry.holdings scope ≠ ∅
  /-- A domain that holds no reference is not listed. -/
  proper : ∀ scope, (registry.holdings scope).Proper
  /-- A scope has a handler if references are held on it or it is pinned. -/
  occupied : ∀ scope,
    (registry.handler? scope).isSome ↔ scope ∈ registry.counts ∨ scope ∈ registry.pinned
  /-- Every handler serves its own scope. -/
  bound : ∀ scope handle, registry.handler? scope = some handle → handle.scope = scope

/-- A scope on which a domain is listed has an entry. -/
theorem mem_counts_of_mem_holdings {registry : Registry μ} {scope : Scope} {domain : Domain}
    (held : domain ∈ registry.holdings scope) : scope ∈ registry.counts := by
  by_contra absent
  rw [holdings, Std.ExtTreeMap.getElem?_eq_none absent] at held
  exact Std.ExtTreeMap.not_mem_empty held

/-- Room for one more reference on the scope that a registration is for. -/
theorem HasRoom.register {registry : Registry μ} {scope : Scope} {domain : Domain}
    {handle : Handle μ} (room : registry.HasRoom [.register scope domain handle])
    (bound : handle.scope = scope) : (registry.holdings scope).sum + 1 < 2 ^ 32 := by
  simpa [Call.takesOn, bound, references] using room scope

/-! ### Handlers where they belong -/

/-- What is known of the handlers without counting references: a scope has one if it is listed or
pinned, and it serves that scope. -/
structure Staffed (registry : Registry μ) : Prop where
  occupied : ∀ scope,
    (registry.handler? scope).isSome ↔ scope ∈ registry.counts ∨ scope ∈ registry.pinned
  bound : ∀ scope handle, registry.handler? scope = some handle → handle.scope = scope

namespace Staffed

/-- A new registry is staffed. -/
theorem empty (policy : ReleasePolicy) : (Registry.empty policy : Registry μ).Staffed where
  occupied _ := by simp [Registry.empty, handler?]
  bound _ _ found := by simp [Registry.empty, handler?] at found

variable {registry : Registry μ}

/-- What is entered into the ledger does not matter. -/
theorem note (staffed : registry.Staffed) (entry : Metrics.Ledger → Metrics.Ledger) :
    (registry.note entry).Staffed :=
  ⟨staffed.occupied, staffed.bound⟩

/-- A slot that was filled with a handle of its scope is served by a handle of its scope. -/
theorem scope_getD (staffed : registry.Staffed) {scope : Scope} {handle : Handle μ}
    (bound : handle.scope = scope) : ((registry.handler? scope).getD handle).scope = scope := by
  cases h : registry.handler? scope with
  | none => exact bound
  | some old => exact staffed.bound scope old h

/-- A registration fills the slot of the scope that gets an entry. -/
theorem register (staffed : registry.Staffed) (scope : Scope) (domain : Domain)
    (handle : Handle μ) : (registry.register scope domain handle).registry.Staffed := by
  by_cases bound : handle.scope = scope
  · refine ⟨?_, ?_⟩
    · intro other
      rw [handler?_register bound, mem_counts_register bound, pinned_register bound]
      by_cases same : other = scope
      · simp [same]
      · simpa [same] using staffed.occupied other
    · intro other occupant found
      rw [handler?_register bound] at found
      by_cases same : other = scope
      · rw [if_pos same, Option.some.injEq] at found
        rw [← found, same]
        exact staffed.scope_getD bound
      · rw [if_neg same] at found
        exact staffed.bound other occupant found
  · rw [register_of_ne bound]
    exact staffed.note (·.noteViolation scope)

/-- An installation fills the slot of the scope that is pinned. -/
theorem install (staffed : registry.Staffed) (scope : Scope) (handle : Handle μ) :
    (registry.install scope handle).registry.Staffed := by
  by_cases bound : handle.scope = scope
  · refine ⟨?_, ?_⟩
    · intro other
      rw [handler?_install bound, counts_install bound, mem_pinned_install bound]
      by_cases same : other = scope
      · simp [same]
      · simpa [same] using staffed.occupied other
    · intro other occupant found
      rw [handler?_install bound] at found
      by_cases same : other = scope
      · rw [if_pos same, Option.some.injEq] at found
        rw [← found, same]
        exact staffed.scope_getD bound
      · rw [if_neg same] at found
        exact staffed.bound other occupant found
  · rw [install_of_ne bound]
    exact staffed.note (·.noteViolation scope)

/-- A release vacates a slot only with the entry of its scope. -/
theorem release (staffed : registry.Staffed) (scope : Scope) (domain : Domain) :
    (registry.release scope domain).registry.Staffed := by
  by_cases held : domain ∈ registry.holdings scope
  · refine ⟨?_, ?_⟩
    · intro other
      rw [handler?_release, mem_counts_release held, pinned_release]
      by_cases same : other = scope
      · -- The handler leaves exactly if the scope is neither held nor pinned afterwards.
        subst same
        have listed := (staffed.occupied other).mpr (Or.inl (mem_counts_of_mem_holdings held))
        rw [Std.ExtTreeSet.mem_iff_contains]
        by_cases last : (registry.holdings other).drop domain = ∅
        · cases pin : registry.pinned.contains other <;>
            simp [lastReference, held, last, pin, listed]
        · simp [lastReference, last, listed]
      · simpa [same] using staffed.occupied other
    · intro other occupant found
      rw [handler?_release, Option.ite_none_left_eq_some] at found
      exact staffed.bound other occupant found.2
  · rw [release_of_notMem held]
    exact staffed.note (·.noteViolation scope)

/-- A retirement takes away everything that belongs to its scope. -/
theorem retire (staffed : registry.Staffed) (scope : Scope) :
    (registry.retire scope).registry.Staffed := by
  refine ⟨?_, ?_⟩
  · intro other
    rw [handler?_retire, mem_counts_retire, mem_pinned_retire]
    by_cases same : other = scope
    · simp [same]
    · simpa [same] using staffed.occupied other
  · intro other occupant found
    rw [handler?_retire, Option.ite_none_left_eq_some] at found
    exact staffed.bound other occupant found.2

/-- The release of a domain vacates the slots of the scopes that lose their entries. -/
theorem releaseDomain (staffed : registry.Staffed) (domain : Domain) :
    (registry.releaseDomain domain).registry.Staffed := by
  refine ⟨?_, ?_⟩
  · intro scope
    rw [handler?_releaseDomain, mem_counts_releaseDomain]
    show _ ↔ _ ∨ scope ∈ registry.pinned
    unfold dependsOn
    -- A handler that leaves was held by the domain alone and not pinned, and so is not missed.
    have occupied := staffed.occupied scope
    by_cases only : (registry.holdings scope).onlyHeldBy domain = true
    · have held : domain ∈ registry.holdings scope :=
        Std.ExtTreeMap.contains_iff_mem.mp ((Bool.and_eq_true _ _ ▸ only).1)
      have listed := mem_counts_of_mem_holdings held
      rw [Std.ExtTreeSet.mem_iff_contains] at occupied ⊢
      cases pin : registry.pinned.contains scope <;> simp [only, pin, listed, occupied]
    · simpa [only] using occupied
  · intro scope occupant found
    rw [handler?_releaseDomain, Option.ite_none_left_eq_some] at found
    exact staffed.bound scope occupant found.2

/-- When everything was released nothing is left to be staffed. -/
theorem releaseAll (registry : Registry μ) : registry.releaseAll.registry.Staffed where
  occupied _ := by simp [Registry.releaseAll, handler?]
  bound scope _ found := by simp at found

/-- Every call leaves the handlers where they belong, also if counts have wrapped around. -/
theorem step (staffed : registry.Staffed) (call : Call μ) :
    (registry.step call).registry.Staffed := by
  cases call with
  | register scope domain handle => exact staffed.register scope domain handle
  | install scope handle => exact staffed.install scope handle
  | release scope domain => exact staffed.release scope domain
  | retire scope => exact staffed.retire scope
  | releaseDomain domain => exact staffed.releaseDomain domain
  | releaseAll => exact releaseAll registry
  | isRegistered | referenceCount | domainCount | scopes | isEmpty | policy => exact staffed

end Staffed

/-! ### Soundness -/

namespace Sound

variable {registry : Registry μ}

/-- A sound registry is staffed. -/
theorem staffed (sound : registry.Sound) : registry.Staffed := ⟨sound.occupied, sound.bound⟩

/-- Soundness is to be staffed, with proper lists and none of them empty. -/
theorem of_staffed (staffed : registry.Staffed)
    (held : ∀ scope ∈ registry.counts, registry.holdings scope ≠ ∅)
    (proper : ∀ scope, (registry.holdings scope).Proper) : registry.Sound :=
  ⟨held, proper, staffed.occupied, staffed.bound⟩

/-- A new registry is sound. -/
theorem empty (policy : ReleasePolicy) : (Registry.empty policy : Registry μ).Sound := by
  refine .of_staffed (.empty policy) (fun _ listed => absurd listed Std.ExtTreeMap.not_mem_empty)
    fun _ => ?_
  simp only [Registry.empty, holdings, Std.ExtTreeMap.getElem?_empty, Option.getD_none]
  exact Holdings.Proper.empty

/-- What is entered into the ledger does not matter. -/
theorem note (sound : registry.Sound) (entry : Metrics.Ledger → Metrics.Ledger) :
    (registry.note entry).Sound :=
  ⟨sound.held, sound.proper, sound.occupied, sound.bound⟩

/-- To be refused changes nothing but the ledger. -/
theorem refuse {α : Type} (sound : registry.Sound) (scope : Scope) (answer : α) :
    (registry.refuse scope answer).registry.Sound :=
  sound.note (·.noteViolation scope)

/-- A registration keeps a registry sound, as long as there is room. -/
theorem register (sound : registry.Sound) (scope : Scope) (domain : Domain) (handle : Handle μ)
    (room : registry.HasRoom [.register scope domain handle]) :
    (registry.register scope domain handle).registry.Sound := by
  by_cases bound : handle.scope = scope
  · -- Only the scope itself changes: it is listed and held afterwards.
    refine .of_staffed (sound.staffed.register scope domain handle) ?_ ?_
    · intro other listed
      rw [mem_counts_register bound] at listed
      rw [holdings_register bound]
      by_cases same : other = scope
      · rw [if_pos same]
        exact Std.ExtTreeMap.insert_ne_empty
      · rw [if_neg same]
        exact sound.held other (listed.resolve_left same)
    · intro other
      rw [holdings_register bound]
      by_cases same : other = scope
      · rw [if_pos same]
        exact (sound.proper scope).take domain (room.register bound)
      · rw [if_neg same]
        exact sound.proper other
  · rw [register_of_ne bound]
    exact sound.refuse scope false

/-- An installation keeps a registry sound. -/
theorem install (sound : registry.Sound) (scope : Scope) (handle : Handle μ) :
    (registry.install scope handle).registry.Sound := by
  by_cases bound : handle.scope = scope
  · -- No reference is taken, so that only pins and handlers change.
    have same_counts : (registry.install scope handle).registry.counts = registry.counts :=
      counts_install bound
    have same_holdings : ∀ other,
        (registry.install scope handle).registry.holdings other = registry.holdings other := by
      intro other
      rw [holdings, same_counts]
      rfl
    refine .of_staffed (sound.staffed.install scope handle) ?_ ?_
    · intro other listed
      rw [same_counts] at listed
      rw [same_holdings]
      exact sound.held other listed
    · intro other
      rw [same_holdings]
      exact sound.proper other
  · rw [install_of_ne bound]
    exact sound.refuse scope false

/-- A release keeps a registry sound. -/
theorem release (sound : registry.Sound) (scope : Scope) (domain : Domain) :
    (registry.release scope domain).registry.Sound := by
  by_cases held : domain ∈ registry.holdings scope
  · refine .of_staffed (sound.staffed.release scope domain) ?_ ?_
    · intro other listed
      rw [mem_counts_release held] at listed
      rw [holdings_release]
      by_cases same : other = scope
      · rw [if_pos same] at listed
        rwa [if_pos ⟨same, held⟩]
      · rw [if_neg same] at listed
        rw [if_neg (fun both => same both.1)]
        exact sound.held other listed
    · intro other
      rw [holdings_release]
      split
      · exact (sound.proper scope).drop domain
      · exact sound.proper other
  · rw [release_of_notMem held]
    exact sound.refuse scope _

/-- A retirement keeps a registry sound. -/
theorem retire (sound : registry.Sound) (scope : Scope) :
    (registry.retire scope).registry.Sound := by
  refine .of_staffed (sound.staffed.retire scope) ?_ ?_
  · intro other listed
    rw [mem_counts_retire] at listed
    rw [holdings_retire, if_neg listed.1]
    exact sound.held other listed.2
  · intro other
    rw [holdings_retire]
    split
    · exact Holdings.Proper.empty
    · exact sound.proper other

/-- The release of a domain keeps a registry sound. -/
theorem releaseDomain (sound : registry.Sound) (domain : Domain) :
    (registry.releaseDomain domain).registry.Sound := by
  refine .of_staffed (sound.staffed.releaseDomain domain) ?_ ?_
  · intro scope listed none_left
    rw [mem_counts_releaseDomain] at listed
    rw [holdings_releaseDomain] at none_left
    obtain ⟨listed, not_only⟩ := listed
    -- Somebody holds references on a listed scope, and it is not the domain.
    apply sound.held scope listed
    rw [Std.ExtTreeMap.eq_empty_iff_forall_not_mem]
    intro other member
    by_cases same : other = domain
    · subst same
      rw [Holdings.onlyHeldBy, none_left, Std.ExtTreeMap.contains_iff_mem.mpr member] at not_only
      simp at not_only
    · have still : other ∈ (registry.holdings scope).erase domain := by
        rw [Std.ExtTreeMap.mem_erase, ne_eq, Std.LawfulEqCmp.compare_eq_iff_eq]
        exact ⟨Ne.symm same, member⟩
      rw [none_left] at still
      exact Std.ExtTreeMap.not_mem_empty still
  · intro scope
    rw [holdings_releaseDomain]
    exact (sound.proper scope).erase domain

/-- A registry from which everything was released is sound. -/
theorem releaseAll (registry : Registry μ) : registry.releaseAll.registry.Sound := by
  refine .of_staffed (.releaseAll registry)
    (fun _ listed => absurd listed Std.ExtTreeMap.not_mem_empty) fun scope => ?_
  rw [holdings_releaseAll]
  exact Holdings.Proper.empty

/-- Every call keeps a registry sound. -/
theorem step (sound : registry.Sound) (call : Call μ) (room : registry.HasRoom [call]) :
    (registry.step call).registry.Sound := by
  cases call with
  | register scope domain handle => exact sound.register scope domain handle room
  | install scope handle => exact sound.install scope handle
  | release scope domain => exact sound.release scope domain
  | retire scope => exact sound.retire scope
  | releaseDomain domain => exact sound.releaseDomain domain
  | releaseAll => exact releaseAll registry
  | isRegistered | referenceCount | domainCount | scopes | isEmpty | policy => exact sound

/-- A call adds to the references on a scope only what it takes itself. -/
theorem references_step_le (sound : registry.Sound) (call : Call μ)
    (room : registry.HasRoom [call]) (scope : Scope) :
    (registry.step call).registry.references scope ≤
      registry.references scope + [call].countP (·.takesOn scope) := by
  -- Only a registration that is not refused takes a reference. All other calls drop some or none.
  cases call with
  | register target domain handle =>
    by_cases bound : handle.scope = target
    · show ((registry.register target domain handle).registry.holdings scope).sum ≤ _
      rw [holdings_register bound]
      by_cases same : scope = target
      · subst same
        rw [if_pos rfl, Holdings.sum_take _ _ (room.register bound)]
        simp [Call.takesOn, bound, references]
      · rw [if_neg same]
        exact Nat.le_add_right _ _
    · show ((registry.register target domain handle).registry.holdings scope).sum ≤ _
      rw [register_of_ne bound]
      exact Nat.le_add_right _ _
  | install target handle =>
    show ((registry.install target handle).registry.holdings scope).sum ≤ _
    by_cases bound : handle.scope = target
    · rw [install_of_eq bound]
      exact Nat.le_add_right _ _
    · rw [install_of_ne bound]
      exact Nat.le_add_right _ _
  | release target domain =>
    show ((registry.release target domain).registry.holdings scope).sum ≤ _
    rw [holdings_release]
    split
    · rename_i both
      rw [both.1]
      have less := Holdings.sum_drop _ _ (sound.proper target domain both.2)
      unfold references
      omega
    · exact Nat.le_add_right _ _
  | retire target =>
    show ((registry.retire target).registry.holdings scope).sum ≤ _
    rw [holdings_retire]
    split
    · rw [Holdings.sum_empty]
      exact Nat.zero_le _
    · exact Nat.le_add_right _ _
  | releaseDomain domain =>
    show ((registry.releaseDomain domain).registry.holdings scope).sum ≤ _
    rw [holdings_releaseDomain]
    exact Nat.le_trans (Holdings.sum_erase_le _ domain) (Nat.le_add_right _ _)
  | releaseAll =>
    show (registry.releaseAll.registry.holdings scope).sum ≤ _
    rw [holdings_releaseAll, Holdings.sum_empty]
    exact Nat.zero_le _
  | isRegistered | referenceCount | domainCount | scopes | isEmpty | policy =>
    exact Nat.le_add_right _ _

/-- After a call for which there was room, references still fit into thirty-two bits. -/
theorem references_step_lt (sound : registry.Sound) (call : Call μ)
    (room : registry.HasRoom [call]) (scope : Scope) :
    (registry.step call).registry.references scope < 2 ^ 32 :=
  Nat.lt_of_le_of_lt (sound.references_step_le call room scope) (room scope)

/-! ### What can be asked of a sound registry -/

/-- A scope has a handler if it has an entry or is pinned. -/
theorem mem_handlers_iff (sound : registry.Sound) (scope : Scope) :
    scope ∈ registry.handlers ↔ scope ∈ registry.counts ∨ scope ∈ registry.pinned := by
  rw [Std.ExtTreeMap.mem_iff_isSome_getElem?]
  exact sound.occupied scope

/-- The listed scopes are those on which somebody holds a reference. -/
theorem mem_counts_iff (sound : registry.Sound) (scope : Scope) :
    scope ∈ registry.counts ↔ ∃ domain, registry.domainCount scope domain ≠ 0 := by
  constructor
  · intro listed
    have somebody := sound.held scope listed
    rw [ne_eq, Std.ExtTreeMap.eq_empty_iff_forall_not_mem, not_forall_not] at somebody
    obtain ⟨domain, member⟩ := somebody
    exact ⟨domain, sound.proper scope domain member⟩
  · rintro ⟨domain, held⟩
    exact mem_counts_of_mem_holdings (Holdings.mem_of_of_ne_zero held)

/-- The release of a domain answers with the number of scopes that it held. -/
theorem answer_releaseDomain (sound : registry.Sound) {domain : Domain} {scopes : Finset Scope}
    (all : ∀ scope, scope ∈ scopes ↔ registry.domainCount scope domain ≠ 0) :
    (registry.releaseDomain domain).answer = scopes.card := by
  show (registry.counts.filter fun _ held => held.contains domain).size = scopes.card
  rw [← Std.ExtTreeMap.length_keys, ← List.toFinset_card_of_nodup Std.ExtTreeMap.nodup_keys]
  congr 1
  ext scope
  rw [List.mem_toFinset, mem_keys_filter_contains, all, (sound.proper scope).mem_iff]
  rfl

/-- A scope with references has a handler. -/
theorem isRegistered_of_referenceCount_pos (sound : registry.Sound) {scope : Scope}
    (positive : 0 < registry.referenceCount scope) : registry.isRegistered scope = true := by
  have listed : scope ∈ registry.counts := by
    by_contra absent
    rw [referenceCount, holdings, Std.ExtTreeMap.getElem?_eq_none absent, Option.getD_none,
      Holdings.total, Std.ExtTreeMap.toList_eq_nil_iff.mpr rfl] at positive
    exact absurd positive (UInt32.lt_irrefl 0)
  exact Std.ExtTreeMap.contains_iff_mem.mpr ((sound.mem_handlers_iff scope).mpr (Or.inl listed))

/-- A registry that says it is empty has no pins either. -/
theorem eq_empty_of_isEmpty (sound : registry.Sound) (empty : registry.isEmpty = true) :
    registry = { Registry.empty registry.policy with ledger := registry.ledger } := by
  obtain ⟨no_handler, no_count⟩ := Bool.and_eq_true_iff.mp empty
  rw [Std.ExtTreeMap.isEmpty_iff] at no_handler no_count
  have no_pin : registry.pinned = ∅ := by
    rw [Std.ExtTreeSet.eq_empty_iff_forall_not_mem]
    intro scope pinned
    have occupied := (sound.mem_handlers_iff scope).mpr (Or.inr pinned)
    rw [no_handler] at occupied
    exact Std.ExtTreeMap.not_mem_empty occupied
  obtain ⟨policy, handlers, counts, pinned, ledger⟩ := registry
  subst no_handler no_count no_pin
  rfl

end Sound

/-- The scopes that are listed are those with a handler. -/
theorem mem_scopes_iff (registry : Registry μ) (scope : Scope) :
    scope ∈ registry.scopes ↔ registry.isRegistered scope = true := by
  rw [scopes, Std.ExtTreeMap.mem_keys, isRegistered, Std.ExtTreeMap.contains_iff_mem]

end Registry

end Switchboard
