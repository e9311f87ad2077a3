import Switchboard.Proofs.Host.Simulation
import Switchboard.Proofs.Host.Start
import Switchboard.Proofs.Rpc.Inbound

/-!
# `Switchboard.Proofs.Host.Untroubled`: a host gives itself no trouble

A registry guards against being used in the wrong way: it refuses handles that are bound to other
scopes, and notes a violation when a reference is released that nobody holds. A preset guards
against being asked after its release. The host of a valid configuration never comes up against
these guards, whatever lines it is given (`untroubled_of_start`).

`Steady` is the invariant behind it. It adds two facts to `Mirrors`: no violation has been noted,
and only domains with a name hold anything, which the decoder of lines sees to. A connection that
fails owes each reference that it has to give back, so giving it back cannot fail either
(`Preset.Stocked.owing_registered`).
-/

set_option autoImplicit false

namespace Switchboard

open Rpc Metrics

/-- Presets do nothing to the registry when they are released. -/
theorem Host.detached : Host.pipeline.behaviour.release.Detached := fun _ _ => rfl

namespace Preset.Stocked

variable {catalogue : Catalogue} {taken : Nat} {world : World Pool Preset}
  (stocked : Stocked catalogue taken world) (domain : Domain) (scopes : List Scope)
  (small : taken + (scopes.takeWhile catalogue.lists).length < 2 ^ 32)

include stocked small

/-- A connection owes a reference for each scope that it was given a preset for. -/
theorem owing_registered : ∃ fresh, world.registry.Owing domain fresh
    (scopes.takeWhile catalogue.lists)
    (Pipeline.registered catalogue.build domain scopes world).registry := by
  have builds := catalogue.assemble_builds scopes world.outside
  rw [← builds.scopes] at small ⊢
  rw [List.length_map] at small
  refine ⟨_, .registered stocked.sound builds.bound (stocked.room _ ?_)⟩
  rwa [registrations, List.length_map]

/-- When the connection is undone, no reference is given back that is not held. -/
theorem release_of_owing {given rest : List Scope} {scope : Scope}
    (cut : scopes.takeWhile catalogue.lists = given ++ scope :: rest) :
    let found := (Host.pipeline.giveBack domain given
      (Pipeline.registered catalogue.build domain scopes world)).registry
    (∃ left, (found.release scope domain).answer = .ok left) ∧
      (found.release scope domain).registry.ledger.contractViolations =
        world.registry.ledger.contractViolations := by
  intro found
  obtain ⟨fresh, owing⟩ := stocked.owing_registered domain scopes small
  rw [cut] at owing
  have owes := owing.giveBack Host.detached stocked.sound given
  obtain ⟨answers, -, less⟩ := owes.release stocked.sound
  exact ⟨answers, less.violations⟩

/-- A connection violates nothing, whether it succeeds or is undone. -/
theorem contractViolations_connect :
    (Host.pipeline.connect catalogue.build domain scopes
        world).2.registry.ledger.contractViolations =
      world.registry.ledger.contractViolations := by
  obtain ⟨fresh, owing⟩ := stocked.owing_registered domain scopes small
  have builds := catalogue.assemble_builds scopes world.outside
  cases result : (Factory.assemble catalogue.build scopes world.outside).result with
  | ok _ =>
    rw [Pipeline.world_connect_of_ok _ _ _ result]
    exact owing.violations
  | error failure =>
    rw [Pipeline.world_connect_of_error _ _ _ result, builds.scopes]
    rw [← List.append_nil (scopes.takeWhile _)] at owing
    exact (owing.giveBack Host.detached stocked.sound _).violations

end Preset.Stocked

/-- The host after lines. -/
def Host.after (host : Host) (lines : List String) : Host :=
  lines.foldl (fun host line => (host.respond line).2) host

/-! ### The invariant -/

/-- A host that mirrors a roster of domains with names, and has noted no violation. -/
structure Steady (config : Config) (taken : Nat) (host : Host) (roster : Roster) : Prop
    extends Mirrors config taken host roster where
  violations : host.world.registry.ledger.contractViolations = .empty
  named : ∀ scope, (scope, ⟨""⟩) ∉ roster

namespace Steady

variable {config : Config} {taken : Nat} {host : Host} {roster : Roster}

/-- A host that has just started is steady. -/
theorem start {host : Host} (valid : config.validate = .ok ())
    (started : Host.start config = .ok host) (few : config.sessionTakings < 2 ^ 32) :
    Steady config config.sessionTakings host config.roster where
  toMirrors := mirrors_of_start valid started few
  violations := by
    obtain ⟨other, started', opened⟩ := Host.exists_opened valid few
    obtain rfl := Except.ok.inj (started.symm.trans started')
    exact opened.violations
  named scope member := by
    obtain ⟨-, -, -, sessions⟩ := (Config.validate_eq_ok_iff config).mp valid
    obtain ⟨session, listed, pair⟩ := List.mem_flatMap.mp (List.mem_toFinset.mp member)
    -- The validation of a session asks for a name.
    have unnamed := (Config.mem_sessionPairs.mp pair).2
    exact (sessions session listed).1 (Domain.mk.inj unnamed).symm

/-- No request violates anything. -/
theorem contractViolations_handle (steady : Steady config taken host roster) (inbound : Inbound)
    (small : taken + config.takings inbound < 2 ^ 32) :
    (host.handle inbound).2.world.registry.ledger.contractViolations = .empty := by
  cases inbound with
  | call request =>
    obtain ⟨outcome, answered⟩ := steady.stocked.handle_eq request
    simp only [Host.handle, Host.withWorld, answered]
    exact steady.violations
  | connect request domain scopes =>
    have fits : taken + (scopes.takeWhile host.catalogue.lists).length < 2 ^ 32 := by
      rwa [steady.lists_eq]
    have connected := steady.stocked.contractViolations_connect domain scopes fits
    have world : (host.handle (.connect request domain scopes)).2.world =
        (Host.pipeline.connect host.catalogue.build domain scopes host.world).2 := by
      simp only [Host.handle, Host.connect, Host.withWorld]
      split <;> rfl
    rw [world, connected]
    exact steady.violations
  | revoke request domain =>
    -- A domain gives up what it holds and no more, so that nothing is violated.
    have settled := Registry.registry_perform_of_detached Host.detached host.world
      (.releaseDomain domain)
    show (host.world.perform Host.pipeline.behaviour.release
      (.releaseDomain domain)).2.registry.ledger.contractViolations = _
    rw [settled, Registry.contractViolations_finished, Registry.ledger_step]
    exact steady.violations

/-- Only domains with a name are added to a roster. -/
theorem named_respond (steady : Steady config taken host roster) (line : String) (scope : Scope) :
    (scope, ⟨""⟩) ∉ (roster.respond config line).2 := by
  unfold Roster.respond
  cases decoded : Inbound.decode line with
  | error failure => exact steady.named scope
  | ok inbound =>
    cases inbound with
    | call request =>
      simp only [Roster.handle]
      split <;> exact steady.named scope
    | connect request domain scopes =>
      simp only [Roster.handle]
      split
      · -- The pairs that are added are those of the domain that was decoded.
        have unnamed := Inbound.ne_empty_of_decode decoded
        simp only [Finset.mem_union, not_or, List.mem_toFinset, List.mem_map, Prod.mk.injEq]
        refine ⟨steady.named scope, ?_⟩
        rintro ⟨other, -, -, same⟩
        exact unnamed same
      · exact steady.named scope
    | revoke request domain =>
      intro member
      exact steady.named scope (Finset.mem_filter.mp member).1

/-- A host stays steady while it answers. -/
theorem respond (steady : Steady config taken host roster) (line : String)
    (small : taken + config.lineTakings line < 2 ^ 32) :
    Steady config (taken + config.lineTakings line) (host.respond line).2
      (roster.respond config line).2 where
  toMirrors := (steady.toMirrors.respond line small).2
  violations := by
    unfold Host.respond
    unfold Config.lineTakings at small
    cases decoded : Inbound.decode line with
    | error failure => exact steady.violations
    | ok inbound =>
      rw [decoded] at small
      exact steady.contractViolations_handle inbound small
  named := steady.named_respond line

/-- Errors in responses are never the host's own. -/
theorem code_respond (steady : Steady config taken host roster) (line : String)
    (small : taken + config.lineTakings line < 2 ^ 32) {error : ErrorObject}
    (failed : (host.respond line).1.error = some error) : error.code ≠ Code.internal.number := by
  -- The roster gives the same response, and its failures can be read off.
  rw [(steady.toMirrors.respond line small).1] at failed
  have reported {code : Int64} {message : String} (foreign : code ≠ Code.internal.number)
      (same : some (⟨code, message, none⟩ : ErrorObject) = some error) :
      error.code ≠ Code.internal.number := by
    obtain rfl := Option.some.inj same
    exact foreign
  unfold Roster.respond at failed
  cases decoded : Inbound.decode line with
  | error failure =>
    rw [decoded] at failed
    have foreign : failure.code.number ≠ Code.internal.number := by
      have code := Inbound.failsWith_decode line failure decoded
      revert code
      cases failure <;> simp [Failure.code, Code.number]
    exact reported foreign failed
  | ok inbound =>
    rw [decoded] at failed
    cases inbound with
    | call request =>
      simp only [Roster.handle] at failed
      split at failed
      · cases failed
      · exact reported (by decide) failed
    | connect request domain scopes =>
      simp only [Roster.handle] at failed
      split at failed
      · cases failed
      · exact reported (by decide) failed
    | revoke request domain => cases failed

/-- The host after lines, and the roster. -/
theorem responds (steady : Steady config taken host roster) {lines : List String}
    (small : taken + (lines.map config.lineTakings).sum < 2 ^ 32) :
    ∃ roster, Steady config (taken + (lines.map config.lineTakings).sum) (host.after lines)
      roster := by
  induction lines generalizing taken host roster with
  | nil => exact ⟨roster, steady⟩
  | cons line rest ih =>
    rw [List.map_cons, List.sum_cons, ← Nat.add_assoc] at small ⊢
    have enough := Nat.lt_of_le_of_lt (Nat.le_add_right _ _) small
    exact ih (steady.respond line enough) small

/-- A shutdown violates nothing either, and nobody holds anything afterwards. -/
theorem shutdown (steady : Steady config taken host roster) (small : taken < 2 ^ 32) :
    Steady config taken host.shutdown.2 ∅ where
  catalogue := steady.catalogue
  stocked := by
    have passes_none : (Call.releaseAll : Call Preset).handle? = none := rfl
    exact steady.stocked.perform passes_none small
  listed scope domain := by
    show _ ↔ (host.world.perform Preset.behaviour.release
      .releaseAll).2.registry.domainCount scope domain ≠ 0
    rw [Preset.Stocked.domainCount_perform]
    show _ ↔ Holdings.of (host.world.registry.releaseAll.registry.holdings scope) domain ≠ 0
    rw [Registry.holdings_releaseAll]
    simp
  violations := by
    have settled := Registry.registry_perform_of_detached Host.detached host.world .releaseAll
    show (host.world.perform Host.pipeline.behaviour.release
      .releaseAll).2.registry.ledger.contractViolations = _
    rw [settled, Registry.contractViolations_finished, Registry.ledger_step]
    exact steady.violations
  named scope := by simp

end Steady

/-! ### Whole runs -/

namespace Host

/-- A host without any trace of trouble. -/
structure Clean (config : Config) (host : Host) : Prop where
  violations : ∀ scope,
    host.world.registry.ledger.contractViolations.get (byScope scope) = 0
  /-- No preset was released twice. -/
  once : host.world.outside.released.Nodup
  configured : ∀ scope, host.world.registry.isRegistered scope = true →
    scope.text ∈ config.scopes.map ScopeEntry.scope
  /-- The domain without a name holds nothing. -/
  unnamed : ∀ scope, host.world.registry.domainCount scope ⟨""⟩ = 0

/-- A connection that failed was undone, and each reference that it had taken could be released. -/
structure Undone (host : Host) (domain : Domain) (scopes : List Scope) : Prop where
  world : (host.connect domain scopes).2.world =
    pipeline.giveBack domain (scopes.takeWhile host.catalogue.lists)
      (Pipeline.registered host.catalogue.build domain scopes host.world)
  released : ∀ given scope rest,
    scopes.takeWhile host.catalogue.lists = given ++ scope :: rest →
    let found := (pipeline.giveBack domain given
      (Pipeline.registered host.catalogue.build domain scopes host.world)).registry
    (∃ left, (found.release scope domain).answer = .ok left) ∧
      (found.release scope domain).registry.ledger.contractViolations =
        host.world.registry.ledger.contractViolations

end Host

namespace Steady

variable {config : Config} {taken : Nat} {host : Host} {roster : Roster}

/-- A steady host is clean. -/
theorem clean (steady : Steady config taken host roster) : host.Clean config where
  violations scope := by
    rw [steady.violations]
    exact Counter.get_empty _
  once := (List.nodup_append'.mp steady.stocked.tracked.nodup).2.1
  configured scope registered := by
    rw [Registry.isRegistered, Registry.contains_handlers, Option.isSome_iff_exists] at registered
    obtain ⟨handle, found⟩ := registered
    have results := steady.results?_eq found
    unfold Config.results? at results
    obtain ⟨entry, listed, -⟩ := Option.map_eq_some_iff.mp results
    have first : config.scopes.find? (fun entry => entry.scope == scope.text) = some entry := listed
    have same : entry.scope = scope.text := by simpa using List.find?_some first
    exact List.mem_map.mpr ⟨entry, List.mem_of_find?_eq_some first, same⟩
  unnamed scope := by
    by_contra held
    exact steady.named scope ((steady.listed scope ⟨""⟩).mpr held)

/-- A connection that a steady host fails leaves nothing behind. -/
theorem undone (steady : Steady config taken host roster) {domain : Domain} {scopes : List Scope}
    (small : taken + (scopes.takeWhile config.lists).length < 2 ^ 32) {failure : Failure}
    (failed : (host.connect domain scopes).1 = .error failure) : host.Undone domain scopes where
  world := by
    have builds := host.catalogue.assemble_builds scopes host.world.outside
    have answer : (host.connect domain scopes).1 = _ :=
      Pipeline.result_connect Host.pipeline host.catalogue.build domain scopes host.world
    rw [failed] at answer
    -- A connection fails exactly when some preset could not be built.
    cases result : (Factory.assemble host.catalogue.build scopes host.world.outside).result with
    | ok _ =>
      rw [result] at answer
      cases answer
    | error failure =>
      rw [← builds.scopes]
      exact Pipeline.world_connect_of_error Host.pipeline host.catalogue.build domain result
  released given scope rest cut := by
    rw [← steady.lists_eq] at small
    exact steady.stocked.release_of_owing domain scopes small cut

end Steady

/-- The error of a preset that is asked after its release. -/
def alreadyReleased (scope : Scope) : ErrorObject :=
  .ofFailure (.internal ("middleware for " ++ scope.text ++ " already released"))

/-- A host of a valid configuration never runs into the guards of its own parts, as long as fewer
than `2 ^ 32` references are taken. Whatever lines it is given, it is clean after each of them and
after a shutdown at the end. No response reports an internal failure, let alone that of a preset
that was released already. Where a connection fails, every reference that it has taken is released
without a failure. -/
theorem untroubled_of_start {config : Config} (valid : config.validate = .ok ())
    (lines : List String)
    (small : config.sessionTakings + (lines.map config.lineTakings).sum < 2 ^ 32) :
    ∃ host, Host.start config = .ok host ∧
      (∀ before after, lines = before ++ after → (host.after before).Clean config) ∧
      (host.after lines).shutdown.2.Clean config ∧
      ∀ before line after, lines = before ++ line :: after →
        let found := host.after before
        (∀ error, (found.respond line).1.error = some error →
          error.code ≠ Code.internal.number ∧ ∀ scope, error ≠ alreadyReleased scope) ∧
        ∀ request domain scopes failure,
          Inbound.decode line = .ok (.connect request domain scopes) →
          (found.connect domain scopes).1 = .error failure → found.Undone domain scopes := by
  have few : config.sessionTakings < 2 ^ 32 := Nat.lt_of_le_of_lt (Nat.le_add_right _ _) small
  obtain ⟨host, started, -⟩ := Host.exists_opened valid few
  have begun := Steady.start valid started few
  -- What lies behind a moment only takes more references.
  have sooner {before after : List String} (cut : lines = before ++ after) :
      config.sessionTakings + (before.map config.lineTakings).sum +
        (after.map config.lineTakings).sum < 2 ^ 32 := by
    rw [cut, List.map_append, List.sum_append] at small
    omega
  refine ⟨host, started, ?_, ?_, ?_⟩
  · intro before after cut
    have room := Nat.lt_of_le_of_lt (Nat.le_add_right _ _) (sooner cut)
    obtain ⟨roster, steady⟩ := begun.responds room
    exact steady.clean
  · obtain ⟨roster, steady⟩ := begun.responds small
    exact (steady.shutdown small).clean
  · intro before line after cut found
    have room := sooner cut
    rw [List.map_cons, List.sum_cons, ← Nat.add_assoc] at room
    have fits := Nat.lt_of_le_of_lt (Nat.le_add_right _ _) room
    obtain ⟨roster, steady⟩ := begun.responds (Nat.lt_of_le_of_lt (Nat.le_add_right _ _) fits)
    constructor
    · intro error failed
      have foreign := steady.code_respond line fits failed
      refine ⟨foreign, ?_⟩
      rintro scope rfl
      exact foreign rfl
    · intro request domain scopes failure decoded failed
      unfold Config.lineTakings at fits
      rw [decoded] at fits
      exact steady.undone fits failed

/-- In an exchange of six lines the guest fails to connect, and that is undone. -/
theorem untroubled_of_exchange :
    walletConfig.validate = .ok () ∧
      walletConfig.sessionTakings + (exchange.map walletConfig.lineTakings).sum < 2 ^ 32 ∧
      ∃ host, Host.start walletConfig = .ok host ∧
        (host.after exchange).shutdown.2.Clean walletConfig ∧
        (host.after (exchange.take 3)).Undone ⟨"guest"⟩ [⟨Scope.wallet⟩, ⟨"abc:1"⟩] := by
  have valid : walletConfig.validate = .ok () := by decide +kernel
  have small :
      walletConfig.sessionTakings + (exchange.map walletConfig.lineTakings).sum < 2 ^ 32 := by
    decide +kernel
  obtain ⟨host, started, -, clean, moments⟩ := untroubled_of_start valid exchange small
  -- The fourth line is the one that names a scope which the host does not have.
  let request : Request :=
    { id := .ofNat 4
      method := connectMethod
      params := some "[\"guest\", [\"wallet\", \"abc:1\"]]" }
  have decoded : Inbound.decode
      "[\"2.0\", 4, \"scopemux_connect\", [\"guest\", [\"wallet\", \"abc:1\"]]]" =
      .ok (.connect request ⟨"guest"⟩ [⟨Scope.wallet⟩, ⟨"abc:1"⟩]) := by
    decide +kernel
  have failed : ((Host.start walletConfig).map fun host => ((host.after (exchange.take 3)).connect
      ⟨"guest"⟩ [⟨Scope.wallet⟩, ⟨"abc:1"⟩]).1) =
      .ok (.error (.invalidScope "no middleware configured for abc:1")) := by
    decide +kernel
  rw [started] at failed
  exact ⟨valid, small, host, started, clean,
    (moments (exchange.take 3) _ (exchange.drop 4) rfl).2 _ _ _ _ decoded (Except.ok.inj failed)⟩

end Switchboard
