import Switchboard.Proofs.Registry.Sound

/-!
# `Switchboard.Proofs.Registry.Conservation`: handles that come and go

`Registry.handlers_step_perm` is the conservation law of a call: the handle that it puts in and
those that were there are those that stay and those that leave. `Sound.ends_of_mem_removed` says by
which calls a handle can leave.
-/

set_option autoImplicit false

namespace Switchboard

variable {μ : Type}

/-- The handle that a call passes to the registry. -/
def Call.handle? : Call μ → Option (Handle μ)
  | .register _ _ handle | .install _ handle => some handle
  | _ => none

namespace Registry

/-- The handle that a registry accepts by a call. -/
def accepted? (registry : Registry μ) (call : Call μ) : Option (Handle μ) :=
  if (registry.step call).answer = .flag true then call.handle? else none

/-- The handles that a call removes. -/
def removed (registry : Registry μ) (call : Call μ) : List (Handle μ) :=
  (registry.step call).retired.map (·.handle)

/-! ### The conservation law of a call -/

/-- A registration accepts its handle if it is admitted. -/
theorem accepted?_register (registry : Registry μ) (scope : Scope) (domain : Domain)
    (handle : Handle μ) :
    registry.accepted? (.register scope domain handle) =
      if registry.Admits scope handle then some handle else none := by
  have answer : (registry.step (.register scope domain handle)).answer =
      .flag (decide (registry.Admits scope handle)) :=
    congrArg Answer.flag (answer_register registry scope domain handle)
  rw [accepted?, answer]
  simp [Call.handle?]

/-- An installation accepts its handle if it is admitted. -/
theorem accepted?_install (registry : Registry μ) (scope : Scope) (handle : Handle μ) :
    registry.accepted? (.install scope handle) =
      if registry.Admits scope handle then some handle else none := by
  have answer : (registry.step (.install scope handle)).answer =
      .flag (decide (registry.Admits scope handle)) :=
    congrArg Answer.flag (answer_install registry scope handle)
  rw [accepted?, answer]
  simp [Call.handle?]

/-- What is accepted was passed. -/
theorem handle?_of_accepted? {registry : Registry μ} {call : Call μ} {handle : Handle μ}
    (accepted : registry.accepted? call = some handle) : call.handle? = some handle := by
  unfold accepted? at accepted
  split at accepted
  · exact accepted
  · exact absurd accepted (by simp)

/-- Nothing is accepted by a call that passes no handle. -/
theorem accepted?_of_handle?_eq_none (registry : Registry μ) {call : Call μ}
    (passes_none : call.handle? = none) : registry.accepted? call = none := by
  rw [accepted?, passes_none, ite_self]

/-- The handler of a scope after a handle was passed is this handle or was there before. -/
theorem passed_or_handler?_of_admit {registry : Registry μ} {target scope : Scope}
    {passed handle : Handle μ}
    (slot : (if registry.Admits target passed then registry.handlers.insert target passed
      else registry.handlers)[scope]? = some handle) :
    handle.scope = scope ∧
        (if registry.Admits target passed then some passed else none) = some handle ∨
      registry.handler? scope = some handle := by
  by_cases admits : registry.Admits target passed
  · rw [if_pos admits, Std.ExtTreeMap.getElem?_insert] at slot
    by_cases here : target = scope
    · subst here
      rw [if_pos Std.ReflCmp.compare_self] at slot
      obtain rfl := Option.some.inj slot
      exact Or.inl ⟨admits.1, if_pos admits⟩
    · rw [if_neg fun same => here (Std.LawfulEqCmp.eq_of_compare same)] at slot
      exact Or.inr slot
  · rw [if_neg admits] at slot
    exact Or.inr slot

/-- The handler of a scope after a call was passed to it and accepted, or was there before. -/
theorem accepted_or_handler?_of_step {registry : Registry μ} {call : Call μ} {scope : Scope}
    {handle : Handle μ}
    (occupied : (registry.step call).registry.handler? scope = some handle) :
    handle.scope = scope ∧ registry.accepted? call = some handle ∨
      registry.handler? scope = some handle := by
  cases call with
  | register target domain passed =>
    rw [accepted?_register]
    apply passed_or_handler?_of_admit
    rw [← registry.handlers_register target domain passed]
    exact occupied
  | install target passed =>
    rw [accepted?_install]
    apply passed_or_handler?_of_admit
    rw [← registry.handlers_install target passed]
    exact occupied
  -- Calls that drop references only empty slots.
  | release target domain =>
    change (registry.release target domain).registry.handler? scope = some handle at occupied
    rw [handler?_release, Option.ite_none_left_eq_some] at occupied
    exact Or.inr occupied.2
  | retire target =>
    change (registry.retire target).registry.handler? scope = some handle at occupied
    rw [handler?_retire, Option.ite_none_left_eq_some] at occupied
    exact Or.inr occupied.2
  | releaseDomain domain =>
    change (registry.releaseDomain domain).registry.handler? scope = some handle at occupied
    rw [handler?_releaseDomain, Option.ite_none_left_eq_some] at occupied
    exact Or.inr occupied.2
  | releaseAll =>
    change registry.releaseAll.registry.handler? scope = some handle at occupied
    rw [handler?_releaseAll] at occupied
    exact absurd occupied (by simp)
  | isRegistered | referenceCount | domainCount | scopes | isEmpty | policy => exact Or.inr occupied

/-- The handle that goes into a slot is one more, and otherwise there are as many as before. -/
theorem values_admit_perm (registry : Registry μ) (scope : Scope) (handle : Handle μ) :
    ((if registry.Admits scope handle then some handle else none).toList ++
      registry.handlers.values).Perm
        (if registry.Admits scope handle then registry.handlers.insert scope handle
          else registry.handlers).values := by
  by_cases admits : registry.Admits scope handle
  · rw [if_pos admits, if_pos admits]
    exact (values_insert_perm admits.2 handle).symm
  · rw [if_neg admits, if_neg admits]
    exact .refl _

/-- The handle that a call puts in and those that were there are those that stay and those that
leave. -/
theorem handlers_step_perm (registry : Registry μ) (call : Call μ) :
    ((registry.accepted? call).toList ++ registry.handlers.values).Perm
      ((registry.step call).registry.handlers.values ++ registry.removed call) := by
  cases call with
  | register scope domain handle =>
    show List.Perm _ ((registry.register scope domain handle).registry.handlers.values ++
      (registry.register scope domain handle).retired.map _)
    rw [accepted?_register, handlers_register, retired_register, List.map_nil, List.append_nil]
    exact registry.values_admit_perm scope handle
  | install scope handle =>
    show List.Perm _ ((registry.install scope handle).registry.handlers.values ++
      (registry.install scope handle).retired.map _)
    rw [accepted?_install, handlers_install, retired_install, List.map_nil, List.append_nil]
    exact registry.values_admit_perm scope handle
  | release scope domain =>
    show List.Perm ((registry.accepted? _).toList ++ _)
      ((registry.release scope domain).registry.handlers.values ++
        (registry.release scope domain).retired.map _)
    rw [accepted?_of_handle?_eq_none _ rfl, handlers_release, retired_release]
    split
    · -- The occupant of the slot goes from the one list to the other.
      rw [List.map_map]
      exact (values_perm_erase registry.handlers scope).trans
        ((List.perm_append_comm).trans (by simp [Function.comp_def, handler?]))
    · simp
  | retire scope =>
    show List.Perm ((registry.accepted? _).toList ++ _)
      ((registry.retire scope).registry.handlers.values ++ (registry.retire scope).retired.map _)
    rw [accepted?_of_handle?_eq_none _ rfl, handlers_retire, retired_retire, List.map_map]
    exact (values_perm_erase registry.handlers scope).trans
      ((List.perm_append_comm).trans (by simp [Function.comp_def, handler?]))
  -- The handlers that depend on the domain are filtered out, and they are those that leave.
  | releaseDomain domain =>
    rw [accepted?_of_handle?_eq_none _ rfl]
    refine (values_filter_perm registry.handlers (registry.dependsOn domain)).symm.trans ?_
    refine List.perm_append_comm.trans ?_
    simp [removed, step, releaseDomain, Effect.map, Function.comp_def]
  | releaseAll =>
    rw [accepted?_of_handle?_eq_none _ rfl]
    simp [removed, step, releaseAll, Effect.map, Function.comp_def]
  | isRegistered | referenceCount | domainCount | scopes | isEmpty | policy =>
    simp [accepted?, Call.handle?, removed, step]

/-- The handlers are those that are in some slot. -/
theorem mem_values_iff (registry : Registry μ) (handle : Handle μ) :
    handle ∈ registry.handlers.values ↔ ∃ scope, registry.handler? scope = some handle := by
  simp only [values_eq_map_toList, List.mem_map, Prod.exists,
    Std.ExtTreeMap.mem_toList_iff_getElem?_eq_some, exists_eq_right, handler?]

/-- No two handlers of a sound registry serve the same scope. -/
theorem Sound.nodup_scopes {registry : Registry μ} (sound : registry.Sound) :
    (registry.handlers.values.map (·.scope)).Nodup := by
  -- Handlers are bound to their slots, and slots are keys.
  have slots : registry.handlers.values.map (·.scope) = registry.handlers.keys := by
    rw [values_eq_map_toList, List.map_map, ← Std.ExtTreeMap.map_fst_toList_eq_keys]
    apply List.map_congr_left
    rintro ⟨scope, handle⟩ member
    exact sound.bound scope handle (Std.ExtTreeMap.mem_toList_iff_getElem?_eq_some.mp member)
  rw [slots]
  exact Std.ExtTreeMap.nodup_keys

/-- Without handlers and without a new one there are none afterwards. -/
theorem handlers_step_eq_empty {registry : Registry μ} {call : Call μ}
    (none_left : registry.handlers = ∅) (none_accepted : registry.accepted? call = none) :
    (registry.step call).registry.handlers = ∅ := by
  have conserved := registry.handlers_step_perm call
  rw [none_left, none_accepted, values_empty] at conserved
  have none_stay := (List.append_eq_nil_iff.mp conserved.nil_eq.symm).1
  rwa [values_eq_map_toList, List.map_eq_nil_iff, Std.ExtTreeMap.toList_eq_nil_iff] at none_stay

/-- A call that passes no handle pins nothing. -/
theorem pinned_step_eq_empty {registry : Registry μ} {call : Call μ}
    (unpinned : registry.pinned = ∅) (passes_none : call.handle? = none) :
    (registry.step call).registry.pinned = ∅ := by
  cases call with
  | register | install => exact absurd passes_none (by simp [Call.handle?])
  | release scope domain => exact (pinned_release registry scope domain).trans unpinned
  | retire scope =>
    show (registry.retire scope).registry.pinned = ∅
    rw [Std.ExtTreeSet.eq_empty_iff_forall_not_mem]
    intro other
    rw [mem_pinned_retire, unpinned]
    exact fun both => Std.ExtTreeSet.not_mem_empty both.2
  | releaseAll => rfl
  | releaseDomain | isRegistered | referenceCount | domainCount | scopes | isEmpty | policy =>
    exact unpinned

/-! ### Why a handle leaves -/

/-- No domain but one holds references on a scope, and the scope is not pinned. -/
def HeldOnlyBy (registry : Registry μ) (scope : Scope) (domain : Domain) : Prop :=
  (∀ other, other ≠ domain → registry.domainCount scope other = 0) ∧ scope ∉ registry.pinned

/-- What a call has to be for the handler of a scope to leave by it: the scope is retired or
everything is, or the last references are dropped and the scope is not pinned. -/
def Ends (registry : Registry μ) (scope : Scope) : Call μ → Prop
  | .retire target => target = scope
  | .releaseAll => True
  | .release target domain =>
    target = scope ∧ registry.domainCount scope domain = 1 ∧ registry.HeldOnlyBy scope domain
  | .releaseDomain domain =>
    registry.domainCount scope domain ≠ 0 ∧ registry.HeldOnlyBy scope domain
  | _ => False

/-- The last reference on a scope ends its handler. -/
theorem ends_release {registry : Registry μ} {scope : Scope} {domain : Domain}
    (last : registry.lastReference scope domain = true) :
    registry.Ends scope (.release scope domain) := by
  simp only [lastReference, Bool.and_eq_true, Bool.not_eq_true', Std.ExtTreeMap.isEmpty_iff] at last
  obtain ⟨⟨held, none_left⟩, free⟩ := last
  -- Nobody is left after the drop, so nobody but the domain was there before it.
  have gone (other : Domain) : other ∉ (registry.holdings scope).drop domain := by
    rw [none_left]
    exact Std.ExtTreeMap.not_mem_empty
  refine ⟨rfl, ?_, fun other differ => ?_, ?_⟩
  · have one_held := gone domain
    rw [Holdings.mem_drop, if_pos rfl, not_not] at one_held
    rw [domainCount, ← UInt32.sub_add_cancel (Holdings.of _ domain) 1, one_held]
    rfl
  · have none_held := gone other
    rw [Holdings.mem_drop, if_neg differ] at none_held
    exact Holdings.of_eq_zero_of_notMem none_held
  · rw [Std.ExtTreeSet.mem_iff_contains, free]
    exact Bool.false_ne_true

/-- The release of a domain ends the handlers that depend on it. -/
theorem Sound.ends_releaseDomain {registry : Registry μ} (sound : registry.Sound) {scope : Scope}
    {domain : Domain} (depends : registry.dependsOn domain scope = true) :
    registry.Ends scope (.releaseDomain domain) := by
  simp only [dependsOn, Holdings.onlyHeldBy, Bool.and_eq_true, Bool.not_eq_true',
    Std.ExtTreeMap.isEmpty_iff, Std.ExtTreeMap.contains_iff_mem] at depends
  obtain ⟨⟨held, none_left⟩, free⟩ := depends
  refine ⟨sound.proper scope domain held, fun other differ => ?_, ?_⟩
  · have same := Holdings.of_erase (registry.holdings scope) domain other
    rw [none_left, Holdings.of_empty, if_neg differ] at same
    exact same.symm
  · rw [Std.ExtTreeSet.mem_iff_contains, free]
    exact Bool.false_ne_true

/-- A handle that leaves was the handler of its scope, and the call was one that ends it. -/
theorem Sound.ends_of_mem_removed {registry : Registry μ} (sound : registry.Sound) {call : Call μ}
    {handle : Handle μ} (leaves : handle ∈ registry.removed call) :
    registry.handler? handle.scope = some handle ∧ registry.Ends handle.scope call := by
  obtain ⟨retirement, member, rfl⟩ := List.mem_map.mp leaves
  cases call with
  | register scope domain handle =>
    change retirement ∈ (registry.register scope domain handle).retired at member
    rw [retired_register] at member
    exact absurd member List.not_mem_nil
  | install scope handle =>
    change retirement ∈ (registry.install scope handle).retired at member
    rw [retired_install] at member
    exact absurd member List.not_mem_nil
  | release scope domain =>
    change retirement ∈ (registry.release scope domain).retired at member
    rw [retired_release] at member
    split at member
    · rename_i last
      obtain ⟨occupant, found, rfl⟩ := List.mem_map.mp member
      rw [Option.mem_toList] at found
      obtain rfl := sound.bound scope occupant found
      exact ⟨found, ends_release last⟩
    · exact absurd member List.not_mem_nil
  | retire scope =>
    change retirement ∈ (registry.retire scope).retired at member
    rw [retired_retire] at member
    obtain ⟨occupant, found, rfl⟩ := List.mem_map.mp member
    rw [Option.mem_toList] at found
    obtain rfl := sound.bound scope occupant found
    exact ⟨found, rfl⟩
  | releaseDomain domain =>
    obtain ⟨-, scope, depends, found⟩ := (mem_retired_releaseDomain registry domain _).mp member
    obtain rfl := sound.bound scope _ found
    exact ⟨found, sound.ends_releaseDomain depends⟩
  | releaseAll =>
    obtain ⟨-, scope, found⟩ := (mem_retired_releaseAll registry _).mp member
    obtain rfl := sound.bound scope _ found
    exact ⟨found, trivial⟩
  | isRegistered | referenceCount | domainCount | scopes | isEmpty | policy =>
    exact absurd member List.not_mem_nil

/-- A handler stays in its slot through every call that does not end its scope. -/
theorem Sound.handler?_step_of_not_ends {registry : Registry μ} (sound : registry.Sound)
    {call : Call μ} (room : registry.HasRoom [call]) {scope : Scope} {handle : Handle μ}
    (occupied : registry.handler? scope = some handle) (spared : ¬registry.Ends scope call) :
    (registry.step call).registry.handler? scope = some handle := by
  obtain rfl := sound.bound scope handle occupied
  have before : handle ∈ (registry.accepted? call).toList ++ registry.handlers.values :=
    List.mem_append_right _ ((registry.mem_values_iff handle).mpr ⟨_, occupied⟩)
  -- By conservation the handler stays or leaves, and only the calls that end its scope remove it.
  rcases List.mem_append.mp ((registry.handlers_step_perm call).mem_iff.mp before) with
    stays | leaves
  · obtain ⟨slot, found⟩ := (Registry.mem_values_iff _ handle).mp stays
    rwa [(sound.step call room).bound slot handle found]
  · exact absurd (sound.ends_of_mem_removed leaves).2 spared

end Registry

end Switchboard
