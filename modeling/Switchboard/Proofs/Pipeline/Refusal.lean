import Switchboard.Proofs.Registry.Departures
import Switchboard.Proofs.Registry.Owing

/-!
# `Switchboard.Proofs.Pipeline.Refusal`: connections with handles that are refused

A factory may return a handle that is bound to another scope than the one it was asked for. Such a
handle is refused and takes no reference, but its scope is listed with the others, and when the
connection fails a reference is given back there as well.

`Reachable.connect_gives_back` says what this comes to in every story that can be reached. A
connection that succeeds adds one reference for every handle that was not refused. One that fails
takes away a reference for every handle that was, as far as the domain held any before the
connection, and a handler that was there before leaves if nothing else keeps it.
-/

set_option autoImplicit false

namespace Switchboard

variable {μ : Type}

/-- How many of the handles for a scope are bound to another one. These are refused. -/
def refused (built : List (Scope × Handle μ)) (scope : Scope) : Nat :=
  built.countP fun entry => entry.1 = scope ∧ entry.2.scope ≠ scope

/-- Every handle is registered or refused. -/
theorem granted_add_refused (built : List (Scope × Handle μ)) (scope : Scope) :
    granted built scope + refused built scope = (built.map Prod.fst).count scope := by
  induction built with
  | nil => rfl
  | cons entry rest ih =>
    rw [granted_cons, refused, List.countP_cons, List.map_cons, List.count_cons, ← ih, refused]
    by_cases here : entry.1 = scope <;> by_cases bound : entry.2.scope = scope <;>
      simp [here, bound] <;> omega

namespace Registry

/-- The slot of a scope is free if no domain holds references and it is not pinned. -/
theorem Sound.handler?_eq_none_iff {registry : Registry μ} (sound : registry.Sound)
    (scope : Scope) :
    registry.handler? scope = none ↔
      (∀ holder, registry.domainCount scope holder = 0) ∧ scope ∉ registry.pinned := by
  rw [← Option.not_isSome_iff_eq_none, sound.occupied, not_or, sound.mem_counts_iff, not_exists]
  simp only [not_not]

/-- Retirements are entered without changing a count. -/
theorem domainCount_finished (registry : Registry μ) (retired : List (Retirement μ))
    (scope : Scope) (domain : Domain) :
    (registry.finished retired).domainCount scope domain = registry.domainCount scope domain := by
  obtain ⟨ledger, same⟩ := registry.finished_eq retired
  rw [same]
  rfl

section GivenBack

variable {registry : Registry μ} (sound : registry.Sound) {domain : Domain}
  {built : List (Scope × Handle μ)} (room : registry.HasRoom (registrations domain built))

include sound room

/-- When all scopes are given back, also those whose handles were refused, that many references of
the domain are missing. -/
theorem Sound.toNat_domainCount_given_back (scope : Scope) (holder : Domain) :
    let registered := registry.after (registrations domain built)
    ((registered.after (releases domain (built.map Prod.fst))).domainCount scope holder).toNat =
      (registry.domainCount scope holder).toNat -
        if holder = domain then refused built scope else 0 := by
  intro registered
  have taken := sound.toNat_domainCount_after_registrations room scope holder
  have given_back := (sound.after room).toNat_domainCount_after_releases domain
    (built.map Prod.fst) scope holder
  have all := granted_add_refused built scope
  rw [given_back, taken]
  split <;> omega

/-- Whoever was in a slot has then left if the domain alone kept it there and misses all of its
references. -/
theorem Sound.mem_departures_given_back_iff {scope : Scope} {handle : Handle μ}
    (occupied : registry.handler? scope = some handle) :
    let registered := registry.after (registrations domain built)
    handle ∈ (registered.departures (releases domain (built.map Prod.fst))).map (·.handle) ↔
      registry.HeldOnlyBy scope domain ∧
        (registry.domainCount scope domain).toNat ≤ refused built scope := by
  intro registered
  let after := registered.after (releases domain (built.map Prod.fst))
  have sound_registered : registered.Sound := sound.after room
  have sound_after : after.Sound :=
    sound_registered.after_releases domain (built.map Prod.fst)
  have occupied_still : registered.handler? scope = some handle :=
    registry.handler?_after_registrations domain built occupied
  have pinned : after.pinned = registry.pinned :=
    (pinned_after_releases domain (built.map Prod.fst)).trans
      (registry.pinned_after_registrations domain built)
  have counts := sound.toNat_domainCount_given_back room scope
  rw [sound_registered.mem_departures_iff (passes_none_of_releases domain _) occupied_still,
    sound_after.handler?_eq_none_iff, pinned, HeldOnlyBy]
  -- The slot is free afterwards if nobody has a reference left and it is not pinned. Only the count
  -- of the domain itself has changed.
  constructor
  · rintro ⟨none_held, unpinned⟩
    have none_left (holder : Domain) :
        (registry.domainCount scope holder).toNat -
          (if holder = domain then refused built scope else 0) = 0 := by
      rw [← counts holder]
      exact congrArg UInt32.toNat (none_held holder)
    refine ⟨⟨fun other differ => UInt32.toNat_inj.mp ?_, unpinned⟩, ?_⟩
    · have left := none_left other
      rwa [if_neg differ, Nat.sub_zero] at left
    · have left := none_left domain
      rw [if_pos rfl] at left
      omega
  · rintro ⟨⟨alone, unpinned⟩, missing⟩
    refine ⟨fun holder => UInt32.toNat_inj.mp ((counts holder).trans ?_), unpinned⟩
    by_cases same : holder = domain
    · rw [if_pos same, same, UInt32.toNat_zero]
      omega
    · rw [alone holder same]
      simp

/-- Whoever was in a slot before the registrations is still there when all scopes are given back,
or is gone. -/
theorem Sound.occupant_given_back {gone : List (Handle μ)}
    (departed : gone.Perm (((registry.after (registrations domain built)).departures
      (releases domain (built.map Prod.fst))).map (·.handle)))
    {scope : Scope} {handle : Handle μ} (occupied : registry.handler? scope = some handle) :
    let after := (registry.after (registrations domain built)).after
      (releases domain (built.map Prod.fst))
    (handle ∈ gone ↔ registry.HeldOnlyBy scope domain ∧
      (registry.domainCount scope domain).toNat ≤ refused built scope) ∧
    (handle ∈ gone → after.handler? scope = none) ∧
    (handle ∉ gone → after.handler? scope = some handle) := by
  intro after
  have passes_none := passes_none_of_releases (μ := μ) domain (built.map Prod.fst)
  have occupied_still := registry.handler?_after_registrations domain built occupied
  rw [departed.mem_iff]
  exact ⟨sound.mem_departures_given_back_iff room occupied,
    ((sound.after room).mem_departures_iff passes_none occupied_still).mp,
    (sound.after room).handler?_after_of_notMem passes_none occupied_still⟩

end GivenBack

end Registry

namespace Chronicle

/-- A connection that fails leaves the registry as the registrations did and the releases that give
back every scope. Those who leave are released, if they have nothing to do. -/
theorem connect_of_error_of_inert {script : Script μ} (depth : Nat) {story : Story μ}
    {build : Scope → List (Entry μ) → Except Failure (Handle μ)} (domain : Domain)
    {scopes : List Scope}
    (inert : script.InertIn (Pipeline.registered (builder build) domain scopes story).registry)
    {failure : Failure}
    (result : ((builder build).assemble scopes story.outside).result = .error failure) :
    let built := ((builder build).assemble scopes story.outside).built
    let registered := story.registry.after (registrations domain built)
    let calls : List (Call μ) := Registry.releases domain (built.map Prod.fst)
    let connected := ((script.pipeline depth).connect (builder build) domain scopes story).2
    ∃ (asked : List Scope) (gone : List (Handle μ)),
      gone.Perm ((registered.departures calls).map (·.handle)) ∧
      connected.outside =
        story.outside ++ asked.map .asked ++ gone.map (.released ·.middleware) ∧
      connected.registry = (registered.after calls).finished (registered.departures calls) := by
  intro built registered calls connected
  have passes_none : ∀ call ∈ calls, call.handle? = none :=
    Registry.passes_none_of_releases domain _
  obtain ⟨asked, written⟩ := outside_assemble_builder build scopes story.outside
  -- The releases pass no handles, so whoever leaves was there after the registrations.
  obtain ⟨gone, perm, given_back⟩ :=
    giveBack_of_quiet depth domain (inert.departures passes_none)
  have world : connected = _ := (Pipeline.world_connect_of_error _ _ _ result).trans given_back
  refine ⟨asked, gone.map (·.handle), perm.map _, ?_, ?_⟩
  · rw [world, List.map_map]
    exact congrArg (· ++ _) written
  · rw [world]
    exact Registry.registry_flat _ _

/-- A connection in any story that can be reached, with any factory, as long as those who leave have
nothing to do.

If it succeeds, the domain holds one more reference for each handle that was not refused. If it
fails, the domain has lost one for each handle that was refused, as long as it held any. Nobody
else's count changes. Of the handlers that were there before the connection, those have left and
were released that were kept by the domain alone and by no more references than it has lost; the
others are still in their slots. -/
theorem Reachable.connect_gives_back {script : Script μ} {depth : Nat} {policy : ReleasePolicy}
    {story : Story μ} (reachable : Reachable script depth policy story)
    (roomy : Roomy story.outside)
    (build : Scope → List (Entry μ) → Except Failure (Handle μ)) (domain : Domain)
    (scopes : List Scope)
    (room : story.registry.HasRoom
      (registrations domain ((builder build).assemble scopes story.outside).built))
    (inert : script.InertIn
      (Pipeline.registered (builder build) domain scopes story).registry) :
    let built := ((builder build).assemble scopes story.outside).built
    let connected := (script.pipeline depth).connect (builder build) domain scopes story
    let after := connected.2.registry
    (∀ count, connected.1 = .ok count → ∀ scope,
      (after.domainCount scope domain).toNat =
        (story.registry.domainCount scope domain).toNat + granted built scope) ∧
    (∀ failure, connected.1 = .error failure → ∀ scope,
      (after.domainCount scope domain).toNat =
        (story.registry.domainCount scope domain).toNat - refused built scope) ∧
    (∀ scope holder, holder ≠ domain →
      after.domainCount scope holder = story.registry.domainCount scope holder) ∧
    ∃ (asked : List Scope) (gone : List (Handle μ)),
      connected.2.outside =
        story.outside ++ asked.map .asked ++ gone.map (.released ·.middleware) ∧
      ∀ scope handle, story.registry.handler? scope = some handle →
        (handle ∈ gone ↔ (∃ failure, connected.1 = .error failure) ∧
          story.registry.HeldOnlyBy scope domain ∧
          (story.registry.domainCount scope domain).toNat ≤ refused built scope) ∧
        (handle ∈ gone → after.handler? scope = none) ∧
        (handle ∉ gone → after.handler? scope = some handle) := by
  intro built connected after
  have sound := (reachable.settled roomy).sound
  have answer : connected.1 = _ :=
    Pipeline.result_connect (script.pipeline depth) (builder build) domain scopes story
  -- A connection that succeeds has registered and nothing else; one that fails has given back too.
  cases result : ((builder build).assemble scopes story.outside).result with
  | ok _ =>
    rw [result] at answer
    have succeeds (failure : Failure) : connected.1 ≠ .error failure := by
      rw [answer]
      simp [Except.map]
    have taken := sound.toNat_domainCount_after_registrations room
    obtain ⟨asked, written⟩ := outside_assemble_builder build scopes story.outside
    have world : connected.2 = Pipeline.registered (builder build) domain scopes story :=
      Pipeline.world_connect_of_ok _ _ _ result
    have registry : after = story.registry.after (registrations domain built) :=
      congrArg World.registry world
    -- Nobody leaves, so the second claim is empty and the handlers are those from before.
    refine ⟨fun _ _ scope => ?_, fun failure error => absurd error (succeeds failure),
      fun scope holder differ => UInt32.toNat_inj.mp ?_, asked, [], ?_,
      fun scope handle occupied => ⟨?_, ?_, fun _ => ?_⟩⟩
    · rw [registry, taken, if_pos rfl]
    · rw [registry, taken, if_neg differ, Nat.add_zero]
    · rw [world, List.map_nil, List.append_nil]
      exact written
    · simp [succeeds]
    · exact fun absurdity => absurd absurdity List.not_mem_nil
    · rw [registry]
      exact story.registry.handler?_after_registrations domain built occupied
  | error failure =>
    rw [result] at answer
    have fails : connected.1 = .error failure := answer
    obtain ⟨asked, gone, departed, written, registry⟩ :=
      connect_of_error_of_inert depth domain inert result
    change after = _ at registry
    have given_back := sound.toNat_domainCount_given_back room
    refine ⟨fun _ ok => absurd (fails.symm.trans ok) (by simp), fun _ _ scope => ?_,
      fun scope holder differ => UInt32.toNat_inj.mp ?_, asked, gone, written,
      fun scope handle occupied => ?_⟩
    · rw [registry, Registry.domainCount_finished]
      exact (given_back scope domain).trans (by rw [if_pos rfl])
    · rw [registry, Registry.domainCount_finished]
      exact (given_back scope holder).trans (by rw [if_neg differ, Nat.sub_zero])
    · obtain ⟨leaves_iff, vacant, stays⟩ := sound.occupant_given_back room departed occupied
      rw [registry, Registry.handler?_finished]
      exact ⟨leaves_iff.trans ⟨fun why => ⟨⟨failure, fails⟩, why⟩, fun why => why.2⟩,
        vacant, stays⟩

/-- A wallet on which a guest holds one reference. -/
def oneGuest : Story Nat :=
  tell .silent 0 .strict [.call (.register ⟨Scope.wallet⟩ ⟨"guest"⟩ ⟨⟨Scope.wallet⟩, 0⟩)]

/-- The guest asks for the wallet once more and for another scope. For the wallet there is a handle
of a third scope, and for the other scope there is none. -/
def misboundConnection : Except Failure Nat × Story Nat :=
  (Script.silent.pipeline 0).connect
    (builder fun scope _ =>
      if scope = ⟨Scope.wallet⟩ then .ok ⟨⟨"eip155:1"⟩, 1⟩ else .error (.internal "broken"))
    ⟨"guest"⟩ [⟨Scope.wallet⟩, ⟨"eip155:9"⟩] oneGuest

/-- One handle is refused, and the one reference that the guest held before is gone. -/
theorem connect_gives_back_of_misbound :
    Roomy oneGuest.outside ∧ misboundConnection.1 = .error (.internal "broken") ∧
      oneGuest.registry.domainCount ⟨Scope.wallet⟩ ⟨"guest"⟩ = 1 ∧
      (misboundConnection.2.registry.domainCount ⟨Scope.wallet⟩ ⟨"guest"⟩).toNat = 1 - 1 := by
  have short : Short oneGuest :=
    Short.stepwise.holds .silent 0 .strict (fun _ => .start _) _ (by decide +kernel)
  have one_entry : oneGuest.outside.length = 1 := by decide +kernel
  have room (calls : List (Call Nat)) (few_calls : calls.length ≤ 2) :
      oneGuest.registry.HasRoom calls := by
    intro scope
    have few := short.few scope
    have at_most := List.countP_le_length (l := calls) (p := (·.takesOn scope))
    omega
  have fails : misboundConnection.1 = .error (.internal "broken") := by decide +kernel
  have one_held : oneGuest.registry.domainCount ⟨Scope.wallet⟩ ⟨"guest"⟩ = 1 := by decide +kernel
  have reachable : Reachable .silent 0 .strict oneGuest := reachable_run .start _
  obtain ⟨-, lost, -, -⟩ := reachable.connect_gives_back short.roomy
    (fun scope _ =>
      if scope = ⟨Scope.wallet⟩ then .ok ⟨⟨"eip155:1"⟩, 1⟩ else .error (.internal "broken"))
    ⟨"guest"⟩ [⟨Scope.wallet⟩, ⟨"eip155:9"⟩] (room _ (by decide +kernel)) fun _ _ _ _ => rfl
  refine ⟨short.roomy, fails, one_held, (lost _ fails ⟨Scope.wallet⟩).trans ?_⟩
  rw [one_held]
  decide +kernel

/-- The connection fails and takes away the reference that the guest had before, and with it the
handler that was registered before. -/
theorem misbound_connection_takes_too_much :
    let scope : Scope := ⟨Scope.wallet⟩
    let domain : Domain := ⟨"guest"⟩
    Reachable .silent 0 .strict oneGuest ∧ oneGuest.outside.length < 2 ^ 32 ∧
      misboundConnection.1 = .error (.internal "broken") ∧
      oneGuest.registry.handler? scope = some ⟨scope, 0⟩ ∧
      ¬(oneGuest.registry.domainCount scope domain ≤
          misboundConnection.2.registry.domainCount scope domain) ∧
      released misboundConnection.2.outside = [0] :=
  ⟨reachable_run .start _, by decide +kernel, by decide +kernel, by decide +kernel,
    by decide +kernel, by decide +kernel⟩

end Chronicle

end Switchboard
