import Mathlib.Data.List.Dedup
import Mathlib.Data.List.Sort
import Switchboard.Proofs.Config.Valid
import Switchboard.Proofs.Host.Operations
import Switchboard.Proofs.Host.Roster
import Switchboard.Proofs.Registry.Departures
import Switchboard.Proofs.Registry.Owing

/-!
# `Switchboard.Proofs.Host.Start`: a valid configuration starts

A host starts by connecting the configured sessions one after another. `Opened` says what has come
of the sessions so far, and each further session of a valid configuration can be connected
(`Opened.connectSession`). So none of the failures of `Host.start` can occur, and the host holds
exactly what the sessions name (`start_of_validate`).
-/

set_option autoImplicit false

namespace Switchboard

open Metrics

namespace Config

/-- The scopes that sessions name, each of them once and in ascending order. -/
def sessionScopes (config : Config) : List Scope :=
  (config.sessions.flatMap fun session => session.scopes.map Scope.mk).dedup.insertionSort
    fun a b => (compare a b).isLE

/-- How often sessions of a domain name a scope. -/
def namings (sessions : List SessionEntry) (scope : Scope) (domain : Domain) : Nat :=
  ((sessions.filter (·.domain == domain.text)).map (·.scopes.count scope.text)).sum

/-- One more session names its scopes for its own domain. -/
theorem namings_concat (sessions : List SessionEntry) (session : SessionEntry) (scope : Scope)
    (domain : Domain) :
    namings (sessions ++ [session]) scope domain = namings sessions scope domain +
      if domain = ⟨session.domain⟩ then (session.scopes.map Scope.mk).count scope else 0 := by
  have count : (session.scopes.map Scope.mk).count scope = session.scopes.count scope.text :=
    List.count_map_of_injective session.scopes Scope.mk (fun _ _ => congrArg Scope.text) scope.text
  have same : domain = ⟨session.domain⟩ ↔ session.domain = domain.text := by
    rw [eq_comm, Domain.mk.injEq]
  unfold namings
  by_cases here : session.domain = domain.text
  · simp [here, count]
  · simp [here, same]

/-- A domain has namings on a scope if one of its sessions names it. -/
theorem namings_ne_zero_iff (sessions : List SessionEntry) (scope : Scope) (domain : Domain) :
    namings sessions scope domain ≠ 0 ↔
      ∃ session ∈ sessions, session.domain = domain.text ∧ scope.text ∈ session.scopes := by
  unfold namings
  rw [ne_eq, List.sum_eq_zero_iff]
  simp [List.count_eq_zero, and_assoc]

/-- A scope is listed if and only if sessions of some domain name it. -/
theorem mem_sessionScopes_iff (config : Config) (scope : Scope) :
    scope ∈ config.sessionScopes ↔ ∃ domain, namings config.sessions scope domain ≠ 0 := by
  simp only [sessionScopes, List.mem_insertionSort, List.mem_dedup, List.mem_flatMap, List.mem_map,
    namings_ne_zero_iff]
  constructor
  · rintro ⟨session, listed, text, named, rfl⟩
    exact ⟨⟨session.domain⟩, session, listed, rfl, named⟩
  · rintro ⟨domain, session, listed, -, named⟩
    exact ⟨session, listed, scope.text, named, rfl⟩

/-- No scope is listed twice. -/
theorem nodup_sessionScopes (config : Config) : config.sessionScopes.Nodup :=
  (List.perm_insertionSort _ _).nodup_iff.mpr (List.nodup_dedup _)

/-- Scopes are listed in ascending order. -/
theorem pairwise_sessionScopes (config : Config) :
    config.sessionScopes.Pairwise fun a b => (compare a b).isLE := by
  have trans : IsTrans Scope fun a b => (compare a b).isLE :=
    ⟨fun _ _ _ => Std.TransCmp.isLE_trans⟩
  have total : Std.Total fun a b : Scope => (compare a b).isLE := by
    constructor
    intro a b
    have swap : compare b a = (compare a b).swap := Std.OrientedCmp.eq_swap
    rw [swap]
    cases compare a b <;> simp
  exact List.pairwise_insertionSort _ _

end Config

namespace Registry

variable {μ : Type}

/-- The scopes of a registry are the sorted list of those that have a handler. -/
theorem scopes_eq_of_mem_iff {registry : Registry μ} {scopes : List Scope} (nodup : scopes.Nodup)
    (ascending : scopes.Pairwise fun a b => (compare a b).isLE)
    (same : ∀ scope, scope ∈ registry.scopes ↔ scope ∈ scopes) : registry.scopes = scopes := by
  have perm : registry.scopes.Perm scopes :=
    (List.perm_ext_iff_of_nodup Std.ExtTreeMap.nodup_keys nodup).mpr same
  have ordered : registry.scopes.Pairwise fun a b => (compare a b).isLE :=
    Std.ExtTreeMap.ordered_keys.imp fun less => by rw [less]; rfl
  refine perm.eq_of_pairwise (fun a b _ _ below above => ?_) ordered ascending
  exact Std.LawfulEqCmp.eq_of_compare (Std.OrientedCmp.isLE_antisymm below above)

end Registry

namespace Host

/-- A session is connected if its scopes can be read and have results. -/
theorem connectSession_of_listed {host : Host} {session : SessionEntry}
    (read : session.scopes.mapM Scope.parseOrFail = .ok (session.scopes.map Scope.mk))
    (all : (session.scopes.map Scope.mk).find? (!host.catalogue.lists ·) = none) :
    host.connectSession session =
      .ok (host.connect ⟨session.domain⟩ (session.scopes.map Scope.mk)).2 := by
  have result := host.catalogue.result_connect ⟨session.domain⟩ (session.scopes.map Scope.mk)
    host.world
  rw [all] at result
  unfold connectSession
  rw [read]
  simp only [bind, Except.bind, connect, withWorld, result]

/-- A host of a configuration after some of its sessions. -/
structure Opened (config : Config) (sessions : List SessionEntry) (host : Host) : Prop where
  results : ∀ scope, host.catalogue.results[scope]? = config.results? scope
  stocked : Preset.Stocked host.catalogue (sessions.map (·.scopes.length)).sum host.world
  policy : host.world.registry.policy = config.releasePolicy
  /-- Every domain holds a scope as often as its sessions named it. -/
  counts : ∀ scope domain,
    (host.world.registry.domainCount scope domain).toNat = Config.namings sessions scope domain
  /-- Nothing was refused. -/
  violations : host.world.registry.ledger.contractViolations = .empty

namespace Opened

variable {config : Config} {sessions : List SessionEntry} {host : Host}

/-- Before the first session nothing is registered. -/
theorem start {catalogue : Catalogue} (valid : config.validate = .ok ())
    (built : config.catalogue = .ok catalogue) :
    Opened config [] ⟨config, catalogue, ⟨.empty config.releasePolicy, {}⟩⟩ where
  results := Config.getElem?_results_catalogue valid built
  stocked := .start catalogue config.releasePolicy
  policy := rfl
  counts scope domain := by
    simp [Registry.domainCount, Registry.holdings, Registry.empty, Config.namings]
  violations := rfl

/-- A further session of a valid configuration is connected, and takes what it names. -/
theorem connectSession (opened : Opened config sessions host) (valid : config.validate = .ok ())
    {session : SessionEntry} (listed : session ∈ config.sessions)
    (small : (sessions.map (·.scopes.length)).sum + session.scopes.length < 2 ^ 32) :
    ∃ after, host.connectSession session = .ok after ∧
      Opened config (sessions ++ [session]) after := by
  have read := Config.mapM_parseOrFail_of_validate valid listed
  have lists (scope : Scope) (named : scope ∈ session.scopes.map Scope.mk) :
      host.catalogue.lists scope = true := by
    rw [Catalogue.lists, opened.results]
    exact Config.results?_of_validate valid listed named
  have all : (session.scopes.map Scope.mk).find? (!host.catalogue.lists ·) = none := by
    rw [List.find?_eq_none]
    intro scope named
    simp [lists scope named]
  have whole : (session.scopes.map Scope.mk).takeWhile host.catalogue.lists =
      session.scopes.map Scope.mk :=
    List.takeWhile_eq_self_iff.mpr lists
  have length : ((session.scopes.map Scope.mk).takeWhile host.catalogue.lists).length =
      session.scopes.length := by
    rw [whole, List.length_map]
  -- The connection is a list of registrations, none of which is refused.
  have builds := host.catalogue.assemble_builds (session.scopes.map Scope.mk) host.world.outside
  have ok : (Factory.assemble host.catalogue.build (session.scopes.map Scope.mk)
      host.world.outside).result = .ok () := by
    rw [builds.result, all]
  have world : (host.connect ⟨session.domain⟩ (session.scopes.map Scope.mk)).2.world =
      Pipeline.registered host.catalogue.build ⟨session.domain⟩ (session.scopes.map Scope.mk)
        host.world :=
    Pipeline.world_connect_of_ok Host.pipeline host.catalogue.build ⟨session.domain⟩ ok
  refine ⟨_, connectSession_of_listed read all, opened.results, ?_, ?_, ?_, ?_⟩
  · have stocked := opened.stocked.connect ⟨session.domain⟩ (session.scopes.map Scope.mk)
      (length ▸ small)
    rw [List.map_append, List.sum_append, List.map_singleton, List.sum_singleton, ← length]
    exact stocked
  · rw [world]
    exact (Registry.policy_after _ _).trans opened.policy
  · intro scope domain
    rw [world, opened.stocked.toNat_domainCount_registered _ _ (length ▸ small), whole,
      opened.counts, Config.namings_concat]
  · rw [world]
    exact (Registry.contractViolations_after_registrations _ _ builds.bound).trans
      opened.violations

/-- All further sessions are connected one after another. -/
theorem connectSessions (opened : Opened config sessions host) (valid : config.validate = .ok ())
    {rest : List SessionEntry} (listed : ∀ session ∈ rest, session ∈ config.sessions)
    (small : ((sessions ++ rest).map (·.scopes.length)).sum < 2 ^ 32) :
    ∃ after, rest.foldlM Host.connectSession host = .ok after ∧
      Opened config (sessions ++ rest) after := by
  induction rest generalizing sessions host with
  | nil => exact ⟨host, rfl, by rwa [List.append_nil]⟩
  | cons session rest ih =>
    have room : (sessions.map (·.scopes.length)).sum + session.scopes.length < 2 ^ 32 := by
      rw [List.map_append, List.sum_append, List.map_cons, List.sum_cons] at small
      omega
    obtain ⟨middle, connected, opened⟩ :=
      opened.connectSession valid (listed session List.mem_cons_self) room
    rw [List.append_cons] at small ⊢
    obtain ⟨after, later, opened⟩ :=
      ih opened (fun other member => listed other (List.mem_cons_of_mem _ member)) small
    refine ⟨after, ?_, opened⟩
    rw [List.foldlM_cons, connected]
    exact later

/-- The scopes that have a handler are those that sessions name. -/
theorem scopes_eq {host : Host} (opened : Opened config config.sessions host) :
    host.world.registry.scopes = config.sessionScopes := by
  refine Registry.scopes_eq_of_mem_iff config.nodup_sessionScopes config.pairwise_sessionScopes ?_
  intro scope
  have count (domain : Domain) : host.world.registry.domainCount scope domain ≠ 0 ↔
      Config.namings config.sessions scope domain ≠ 0 := by
    rw [← opened.counts, ne_eq, ← UInt32.toNat_inj, UInt32.toNat_zero]
  rw [Registry.mem_scopes_iff, Registry.isRegistered, Registry.contains_handlers,
    opened.stocked.sound.occupied, opened.stocked.unpinned, opened.stocked.sound.mem_counts_iff,
    config.mem_sessionScopes_iff]
  simp only [count, Std.ExtTreeSet.not_mem_empty, or_false]

end Opened

/-- All sessions of a valid configuration can be connected. -/
theorem exists_opened {config : Config} (valid : config.validate = .ok ())
    (few : config.sessionTakings < 2 ^ 32) :
    ∃ host, Host.start config = .ok host ∧ Opened config config.sessions host := by
  obtain ⟨catalogue, built⟩ := Config.exists_catalogue valid
  obtain ⟨host, connected, opened⟩ :=
    (Opened.start valid built).connectSessions valid (fun _ listed => listed) few
  refine ⟨host, ?_, opened⟩
  unfold start
  rw [built]
  exact connected

/-- A shutdown retires every handler, and leaves nothing. -/
theorem shutdown_eq (host : Host) :
    host.shutdown.1 = host.world.registry.scopes.length ∧
      host.shutdown.2.world.registry.isEmpty = true ∧
      host.shutdown.2.world.registry.pinned = ∅ := by
  obtain ⟨entry, settled⟩ := Preset.settle_eq host.world.registry.releaseAll.retired
    ⟨host.world.registry.releaseAll.registry, host.world.outside⟩
  have after : host.shutdown.2.world.registry =
      host.world.registry.releaseAll.registry.note entry :=
    congrArg World.registry settled
  refine ⟨Std.ExtTreeMap.length_keys.symm, ?_, ?_⟩
  · rw [after]
    rfl
  · rw [after]
    rfl

/-- A valid configuration starts, and so does every one that was loaded, as long as its sessions
name fewer than `2 ^ 32` scopes altogether. The host has the configured policy and a handler for
each scope that a session names. A domain holds a scope as often as all its sessions together name
it. Nothing was refused on the way. A shutdown then retires one handler for each of these scopes and
leaves the registry empty. -/
theorem start_of_validate {config : Config}
    (valid : config.validate = .ok () ∨ ∃ text, Config.loadText text = .ok config)
    (few : config.sessionTakings < 2 ^ 32) :
    ∃ host, Host.start config = .ok host ∧
      host.world.registry.policy = config.releasePolicy ∧
      host.world.registry.scopes = config.sessionScopes ∧
      (∀ scope domain, (host.world.registry.domainCount scope domain).toNat =
        Config.namings config.sessions scope domain) ∧
      host.world.registry.ledger.contractViolations = .empty ∧
      host.shutdown.1 = config.sessionScopes.length ∧
      host.shutdown.2.world.registry.isEmpty = true ∧
      host.shutdown.2.world.registry.pinned = ∅ := by
  -- What was loaded has been validated.
  have checked : config.validate = .ok () := by
    rcases valid with checked | ⟨text, loaded⟩
    · exact checked
    · exact Config.validate_of_loadText loaded
  obtain ⟨host, started, opened⟩ := exists_opened checked few
  obtain ⟨retired, empty, unpinned⟩ := host.shutdown_eq
  rw [opened.scopes_eq] at retired
  exact ⟨host, started, opened.policy, opened.scopes_eq, opened.counts, opened.violations,
    retired, empty, unpinned⟩

/-- Two domains, one of which comes twice and names a scope twice. -/
def sharedScopes : Config :=
  { version := 1
    releasePolicy := .lenient
    scopes := [⟨Scope.wallet, ∅⟩, ⟨"eip155:1", ∅⟩, ⟨"eip155:5", ∅⟩]
    sessions :=
      [⟨"guest", [Scope.wallet, "eip155:1", Scope.wallet]⟩, ⟨"owner", ["eip155:1"]⟩,
        ⟨"guest", [Scope.wallet]⟩] }

/-- The guest holds the wallet three times, and two handlers are retired. -/
theorem start_of_shared_scopes :
    sharedScopes.validate = .ok () ∧ sharedScopes.sessionTakings < 2 ^ 32 ∧
      ∃ host, Host.start sharedScopes = .ok host ∧
        host.world.registry.scopes = [⟨"eip155:1"⟩, ⟨Scope.wallet⟩] ∧
        (host.world.registry.domainCount ⟨Scope.wallet⟩ ⟨"guest"⟩).toNat = 3 ∧
        host.shutdown.1 = 2 := by
  have valid : sharedScopes.validate = .ok () := by decide +kernel
  have few : sharedScopes.sessionTakings < 2 ^ 32 := by decide +kernel
  have sorted : sharedScopes.sessionScopes = [⟨"eip155:1"⟩, ⟨Scope.wallet⟩] := by decide +kernel
  obtain ⟨host, started, -, scopes, counts, -, retired, -, -⟩ :=
    start_of_validate (Or.inl valid) few
  rw [sorted] at scopes retired
  refine ⟨valid, few, host, started, scopes, ?_, retired⟩
  rw [counts]
  decide +kernel

end Host

end Switchboard
