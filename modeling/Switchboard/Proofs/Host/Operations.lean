import Mathlib.Data.List.TakeWhile
import Switchboard.Host.Basic
import Switchboard.Proofs.Config.Catalogue
import Switchboard.Proofs.Preset

/-!
# `Switchboard.Proofs.Host.Operations`: what the operations of a host do

Among presets a call is answered with a listed result (`handle_eq`), and a connection to listed
scopes counts one reference for each (`toNat_domainCount_registered`). When a scope is not listed,
giving back undoes that exactly (`domainCount_connect_of_unlisted`).
-/

set_option autoImplicit false

namespace Switchboard

open Rpc Json Metrics

/-- A connection succeeds if presets can be built for all of its scopes. -/
theorem Catalogue.result_connect (catalogue : Catalogue) (domain : Domain) (scopes : List Scope)
    (world : World Preset.Pool Preset) :
    (Host.pipeline.connect catalogue.build domain scopes world).1 =
      match scopes.find? (!catalogue.lists ·) with
      | none => .ok scopes.length
      | some scope =>
        .error (.invalidScope ("no middleware configured for " ++ scope.text)) := by
  rw [Pipeline.result_connect, (catalogue.assemble_builds scopes world.outside).result]
  cases scopes.find? (!catalogue.lists ·) <;> rfl

/-- A session that is connected names only scopes for which presets can be built. -/
theorem Host.connectSession_eq_ok {host after : Host} {session : SessionEntry}
    (connected : host.connectSession session = .ok after) :
    (session.scopes.map Scope.mk).find? (!host.catalogue.lists ·) = none ∧
      after = (host.connect ⟨session.domain⟩ (session.scopes.map Scope.mk)).2 := by
  obtain ⟨scopes, read, made⟩ := bind_eq_ok connected
  obtain rfl := Config.mapM_parseOrFail_eq_ok read
  have result := host.catalogue.result_connect ⟨session.domain⟩ (session.scopes.map Scope.mk)
    host.world
  simp only [Host.connect, Host.withWorld] at made
  cases found : (session.scopes.map Scope.mk).find? (!host.catalogue.lists ·) with
  | some unlisted =>
    rw [found] at result
    rw [result] at made
    exact absurd made (by simp)
  | none =>
    rw [found] at result
    rw [result] at made
    exact ⟨rfl, (Except.ok.inj made).symm⟩

namespace Preset.Stocked

variable {catalogue : Catalogue} {taken : Nat} {world : World Pool Preset}

/-! ### Calls -/

/-- The response to a request for which there may be a result. -/
def respondWith (request : Request) : Option Value → Response
  | some result => (Response.forRequest request).setResult result
  | none => (Response.forRequest request).setFailure (.methodNotFound request.method)

/-- A preset in front of the last stage answers with its result, unless it was released. -/
theorem handle_preset_eq {preset : Preset} (live : preset.isReleased world.outside = false)
    (request : Request) :
    Preset.behaviour.handle preset Stage.methodNotFound request (.forRequest request) world =
      ⟨.ok (), respondWith request preset.results[request.method]?, world⟩ := by
  have answer : preset.answer? world.outside request.method =
      .ok preset.results[request.method]? := by
    rw [answer?, live]
    rfl
  show Preset.handle id preset _ request _ world = _
  unfold Preset.handle
  rw [id, answer]
  cases preset.results[request.method]? <;> rfl

/-- A call is answered by the preset that occupies its scope. Only the dispatch and its duration are
entered into the ledger. -/
theorem handle_eq (stocked : Stocked catalogue taken world) (request : Request) :
    ∃ outcome, Host.pipeline.handle request world =
      (respondWith request ((request.scope.bind world.registry.handler?).bind
          fun handle => handle.middleware.results[request.method]?),
        world.mapRegistry
          (·.note fun ledger => (ledger.noteDispatch outcome).noteDuration ⟨0⟩)) := by
  unfold Pipeline.handle Stage.dispatch Stage.chosen?
  cases chosen : request.scope.bind world.registry.handler? with
  | none => exact ⟨.passthrough, rfl⟩
  | some handle =>
    obtain ⟨scope, -, found⟩ := Option.bind_eq_some_iff.mp chosen
    have live := stocked.tracked.not_released
      ((world.registry.mem_values_iff handle).mpr ⟨scope, found⟩)
    have stage := handle_preset_eq live request
    refine ⟨.handled, ?_⟩
    simp only [Host.pipeline, stage]
    rfl

/-! ### Connections -/

/-- The counts after a call are those of the registry's step. -/
theorem domainCount_perform (world : World Pool Preset) (call : Call Preset) (scope : Scope)
    (holder : Domain) :
    (world.perform behaviour.release call).2.registry.domainCount scope holder =
      (world.registry.step call).registry.domainCount scope holder := by
  obtain ⟨entry, finished⟩ := perform_eq world call
  rw [finished, Registry.domainCount_note]

/-- The stock stays as it is while references are given back. -/
theorem giveBack (stocked : Stocked catalogue taken world) (small : taken < 2 ^ 32)
    (domain : Domain) (scopes : List Scope) :
    Stocked catalogue taken (Host.pipeline.giveBack domain scopes world) := by
  induction scopes generalizing world with
  | nil => exact stocked
  | cons scope rest ih =>
    have passes_none : (Call.release scope domain : Call Preset).handle? = none := rfl
    exact ih (stocked.perform passes_none small)

/-- A release takes one reference off, if there is one. -/
theorem toNat_domainCount_release (stocked : Stocked catalogue taken world) (target : Scope)
    (domain : Domain) (scope : Scope) (holder : Domain) :
    ((world.perform behaviour.release (.release target domain)).2.registry.domainCount
        scope holder).toNat =
      (world.registry.domainCount scope holder).toNat -
        if scope = target ∧ holder = domain then 1 else 0 := by
  rw [domainCount_perform]
  show ((world.registry.release target domain).registry.domainCount scope holder).toNat = _
  rw [Registry.domainCount_release]
  by_cases here : scope = target ∧ holder = domain
  · obtain ⟨rfl, rfl⟩ := here
    by_cases held : holder ∈ world.registry.holdings scope
    · have less := Holdings.toNat_of_sub_one _ holder (stocked.sound.proper scope holder held)
      rw [if_pos ⟨⟨rfl, rfl⟩, held⟩, if_pos ⟨rfl, rfl⟩]
      exact Nat.eq_sub_of_add_eq less
    · have none_held : world.registry.domainCount scope holder = 0 :=
        Holdings.of_eq_zero_of_notMem held
      rw [if_neg (fun both => held both.2), none_held, UInt32.toNat_zero, Nat.zero_sub]
  · rw [if_neg (fun both => here both.1), if_neg here]
    rfl

/-- As many references are given back as scopes are listed. -/
theorem toNat_domainCount_giveBack (stocked : Stocked catalogue taken world)
    (small : taken < 2 ^ 32) (domain : Domain) (scopes : List Scope) (scope : Scope)
    (holder : Domain) :
    ((Host.pipeline.giveBack domain scopes world).registry.domainCount scope holder).toNat =
      (world.registry.domainCount scope holder).toNat -
        if holder = domain then scopes.count scope else 0 := by
  induction scopes generalizing world with
  | nil => simp [Pipeline.giveBack]
  | cons target rest ih =>
    have first := stocked.toNat_domainCount_release target domain scope holder
    have passes_none : (Call.release target domain : Call Preset).handle? = none := rfl
    have later := ih (stocked.perform passes_none small)
    show ((Host.pipeline.giveBack domain rest
      (world.perform behaviour.release (.release target domain)).2).registry.domainCount
        scope holder).toNat = _
    rw [later, first, List.count_cons]
    by_cases same : holder = domain
    · by_cases here : scope = target
      · simp [same, here]
        omega
      · simp [same, here, Ne.symm here]
    · simp [same]

/-- Every scope that is registered counts one reference more. -/
theorem toNat_domainCount_registered (stocked : Stocked catalogue taken world) (domain : Domain)
    (scopes : List Scope)
    (small : taken + (scopes.takeWhile catalogue.lists).length < 2 ^ 32) (scope : Scope)
    (holder : Domain) :
    ((Pipeline.registered catalogue.build domain scopes world).registry.domainCount
        scope holder).toNat =
      (world.registry.domainCount scope holder).toNat +
        if holder = domain then (scopes.takeWhile catalogue.lists).count scope else 0 := by
  have builds := catalogue.assemble_builds scopes world.outside
  rw [← builds.scopes] at small ⊢
  rw [List.length_map] at small
  refine stocked.sound.toNat_domainCount_after builds.bound (stocked.room _ ?_) scope holder
  rwa [registrations, List.length_map]

/-- A connection adds to the stock what it builds. -/
theorem connect (stocked : Stocked catalogue taken world) (domain : Domain) (scopes : List Scope)
    (small : taken + (scopes.takeWhile catalogue.lists).length < 2 ^ 32) :
    Stocked catalogue (taken + (scopes.takeWhile catalogue.lists).length)
      (Host.pipeline.connect catalogue.build domain scopes world).2 := by
  have registered := stocked.registered domain scopes small
  cases result : (Factory.assemble catalogue.build scopes world.outside).result with
  | ok _ =>
    rw [Pipeline.world_connect_of_ok _ _ _ result]
    exact registered
  | error failure =>
    rw [Pipeline.world_connect_of_error _ _ _ result]
    exact registered.giveBack small domain _

/-- A domain that connects to listed scopes holds them afterwards. -/
theorem domainCount_connect_of_all (stocked : Stocked catalogue taken world) (domain : Domain)
    {scopes : List Scope} (all : scopes.find? (!catalogue.lists ·) = none)
    (small : taken + (scopes.takeWhile catalogue.lists).length < 2 ^ 32) (scope : Scope)
    (holder : Domain) :
    (Host.pipeline.connect catalogue.build domain scopes world).2.registry.domainCount scope holder
        ≠ 0 ↔
      world.registry.domainCount scope holder ≠ 0 ∨ (scope ∈ scopes ∧ holder = domain) := by
  -- No scope stops the connection, so all of them are registered.
  have whole : scopes.takeWhile catalogue.lists = scopes := by
    rw [List.takeWhile_eq_self_iff]
    simpa using all
  have ok : (Factory.assemble catalogue.build scopes world.outside).result = .ok () := by
    rw [(catalogue.assemble_builds scopes world.outside).result, all]
  have more := stocked.toNat_domainCount_registered domain scopes small scope holder
  rw [whole] at more
  rw [Pipeline.world_connect_of_ok _ _ _ ok, ne_eq, ne_eq, ← UInt32.toNat_inj, ← UInt32.toNat_inj,
    more, UInt32.toNat_zero]
  by_cases same : holder = domain
  · rw [if_pos same, ← List.count_pos_iff]
    simp only [same, and_true]
    omega
  · simp [same]

/-- After a connection that fails every domain holds as much as before. -/
theorem domainCount_connect_of_unlisted (stocked : Stocked catalogue taken world)
    (domain : Domain) {scopes : List Scope} {unlisted : Scope}
    (found : scopes.find? (!catalogue.lists ·) = some unlisted)
    (small : taken + (scopes.takeWhile catalogue.lists).length < 2 ^ 32) (scope : Scope)
    (holder : Domain) :
    (Host.pipeline.connect catalogue.build domain scopes world).2.registry.domainCount scope holder
      = world.registry.domainCount scope holder := by
  have builds := catalogue.assemble_builds scopes world.outside
  have error : (Factory.assemble catalogue.build scopes world.outside).result =
      .error (.invalidScope ("no middleware configured for " ++ unlisted.text)) := by
    rw [builds.result, found]
  have more := stocked.toNat_domainCount_registered domain scopes small scope holder
  have less := (stocked.registered domain scopes small).toNat_domainCount_giveBack small domain
    (scopes.takeWhile catalogue.lists) scope holder
  -- Exactly the scopes before the unlisted one were registered, and exactly those are given back.
  rw [Pipeline.world_connect_of_error _ _ _ error, builds.scopes, ← UInt32.toNat_inj, less, more,
    Nat.add_sub_cancel]

end Preset.Stocked

end Switchboard
