import Switchboard.Proofs.Host.Operations
import Switchboard.Proofs.Host.Roster

/-!
# `Switchboard.Proofs.Host.Simulation`: a host answers as its roster does

`Mirrors` relates a host to a roster: a pair is in the roster exactly if the registry counts a
reference for it. It holds when a host has started (`mirrors_of_start`), and every line keeps it and
is answered alike (`Mirrors.respond`). So all lines are (`converse_eq`).
-/

set_option autoImplicit false

namespace Switchboard

open Rpc Json

/-- A host and the roster that stands for it. -/
structure Mirrors (config : Config) (taken : Nat) (host : Host) (roster : Roster) : Prop where
  catalogue : ∀ scope, host.catalogue.results[scope]? = config.results? scope
  stocked : Preset.Stocked host.catalogue taken host.world
  listed : ∀ scope domain,
    (scope, domain) ∈ roster ↔ host.world.registry.domainCount scope domain ≠ 0

namespace Mirrors

variable {config : Config} {taken : Nat} {host : Host} {roster : Roster}

/-- The catalogue lists what the configuration lists. -/
theorem lists_eq (mirrors : Mirrors config taken host roster) :
    host.catalogue.lists = config.lists := by
  funext scope
  rw [Catalogue.lists, Config.lists, mirrors.catalogue]

/-- The scopes in the roster are those with a handler. -/
theorem mem_image_fst_iff (mirrors : Mirrors config taken host roster) (scope : Scope) :
    scope ∈ roster.image Prod.fst ↔ (host.world.registry.handler? scope).isSome := by
  rw [mirrors.stocked.sound.occupied, mirrors.stocked.unpinned,
    mirrors.stocked.sound.mem_counts_iff]
  simp [mirrors.listed]

/-- A handler has the results that are configured for its scope. -/
theorem results?_eq (mirrors : Mirrors config taken host roster) {scope : Scope}
    {handle : Handle Preset} (found : host.world.registry.handler? scope = some handle) :
    config.results? scope = some handle.middleware.results := by
  have results := mirrors.stocked.results handle
    ((host.world.registry.mem_values_iff handle).mpr ⟨scope, found⟩)
  rwa [mirrors.stocked.sound.bound scope handle found, mirrors.catalogue] at results

/-! ### Calls -/

/-- The handler in a slot has the result that the roster finds in the configuration. -/
theorem result?_eq (mirrors : Mirrors config taken host roster) (request : Request) :
    ((request.scope.bind host.world.registry.handler?).bind
        fun handle => handle.middleware.results[request.method]?) =
      roster.result? config request := by
  unfold Roster.result?
  cases request.scope with
  | none => rfl
  | some scope =>
    rw [Option.bind_some, Option.bind_some]
    -- The roster lists a scope exactly if the host has a handler for it.
    cases found : host.world.registry.handler? scope with
    | none =>
      have nobody : scope ∉ roster.image Prod.fst := by
        rw [mirrors.mem_image_fst_iff, found]
        exact Bool.false_ne_true
      rw [if_neg nobody]
      rfl
    | some handle =>
      have somebody : scope ∈ roster.image Prod.fst := by
        rw [mirrors.mem_image_fst_iff, found]
        rfl
      rw [if_pos somebody, mirrors.results?_eq found]
      rfl

/-- What the ledger says does not matter. -/
theorem note (mirrors : Mirrors config taken host roster)
    (entry : Metrics.Ledger → Metrics.Ledger) :
    Mirrors config taken { host with world := host.world.mapRegistry (·.note entry) } roster :=
  ⟨mirrors.catalogue, mirrors.stocked.note entry, mirrors.listed⟩

/-- A call is answered as the roster does. -/
theorem call (mirrors : Mirrors config taken host roster) (request : Request) :
    (host.handle (.call request)).1 = (roster.handle config (.call request)).1 ∧
      Mirrors config taken (host.handle (.call request)).2
        (roster.handle config (.call request)).2 := by
  obtain ⟨outcome, answered⟩ := mirrors.stocked.handle_eq request
  have same := mirrors.result?_eq request
  have noted := mirrors.note fun ledger => (ledger.noteDispatch outcome).noteDuration ⟨0⟩
  simp only [Host.handle, Roster.handle, Host.withWorld, answered, same]
  cases roster.result? config request <;> exact ⟨rfl, noted⟩

/-! ### Connections and revocations -/

/-- A session is connected as the roster does. -/
theorem connect (mirrors : Mirrors config taken host roster) (request : Request)
    (domain : Domain) (scopes : List Scope)
    (small : taken + (scopes.takeWhile config.lists).length < 2 ^ 32) :
    (host.handle (.connect request domain scopes)).1 =
        (roster.handle config (.connect request domain scopes)).1 ∧
      Mirrors config (taken + (scopes.takeWhile config.lists).length)
        (host.handle (.connect request domain scopes)).2
        (roster.handle config (.connect request domain scopes)).2 := by
  rw [← mirrors.lists_eq] at small ⊢
  have stocked := mirrors.stocked.connect domain scopes small
  have result := host.catalogue.result_connect domain scopes host.world
  -- Both sides go up to the first scope that is not listed.
  cases found : scopes.find? (!host.catalogue.lists ·) with
  | none =>
    have counts := mirrors.stocked.domainCount_connect_of_all domain found small
    rw [found] at result
    simp only [Host.handle, Roster.handle, Host.connect, Host.withWorld, result,
      ← mirrors.lists_eq, found]
    refine ⟨rfl, mirrors.catalogue, stocked, fun scope holder => ?_⟩
    rw [counts, ← mirrors.listed]
    simp [eq_comm]
  | some unlisted =>
    have counts := mirrors.stocked.domainCount_connect_of_unlisted domain found small
    rw [found] at result
    simp only [Host.handle, Roster.handle, Host.connect, Host.withWorld, result,
      ← mirrors.lists_eq, found]
    refine ⟨rfl, mirrors.catalogue, stocked, fun scope holder => ?_⟩
    rw [counts, ← mirrors.listed]

/-- A domain is released as the roster does. -/
theorem revoke (mirrors : Mirrors config taken host roster) (request : Request)
    (domain : Domain) (small : taken < 2 ^ 32) :
    (host.handle (.revoke request domain)).1 =
        (roster.handle config (.revoke request domain)).1 ∧
      Mirrors config taken (host.handle (.revoke request domain)).2
        (roster.handle config (.revoke request domain)).2 := by
  have passes_none : (Call.releaseDomain domain : Call Preset).handle? = none := rfl
  -- The registry counts the scopes on which it drops a reference, the roster its own.
  have held (scope : Scope) : scope ∈ roster.scopesOf domain ↔
      host.world.registry.domainCount scope domain ≠ 0 := by
    rw [Roster.mem_scopesOf, mirrors.listed]
  have count := mirrors.stocked.sound.answer_releaseDomain held
  refine ⟨?_, mirrors.catalogue, mirrors.stocked.perform passes_none small, fun scope holder => ?_⟩
  · show (Response.forRequest request).setResult (Host.countObject "released"
      (host.world.registry.releaseDomain domain).answer) = _
    rw [count]
    rfl
  · show _ ↔ (host.world.perform Preset.behaviour.release
      (.releaseDomain domain)).2.registry.domainCount scope holder ≠ 0
    rw [Preset.Stocked.domainCount_perform]
    show _ ↔ (host.world.registry.releaseDomain domain).registry.domainCount scope holder ≠ 0
    rw [Registry.domainCount_releaseDomain]
    show (scope, holder) ∈ roster.filter (·.2 ≠ domain) ↔ _
    rw [Finset.mem_filter, mirrors.listed]
    by_cases same : holder = domain <;> simp [same]

/-! ### Lines -/

/-- Whatever is understood is answered as the roster does. -/
theorem handle (mirrors : Mirrors config taken host roster) (inbound : Inbound)
    (small : taken + config.takings inbound < 2 ^ 32) :
    (host.handle inbound).1 = (roster.handle config inbound).1 ∧
      Mirrors config (taken + config.takings inbound) (host.handle inbound).2
        (roster.handle config inbound).2 := by
  cases inbound with
  | call request => exact mirrors.call request
  | connect request domain scopes => exact mirrors.connect request domain scopes small
  | revoke request domain => exact mirrors.revoke request domain small

/-- A line is answered as the roster does. -/
theorem respond (mirrors : Mirrors config taken host roster) (line : String)
    (small : taken + config.lineTakings line < 2 ^ 32) :
    (host.respond line).1 = (roster.respond config line).1 ∧
      Mirrors config (taken + config.lineTakings line) (host.respond line).2
        (roster.respond config line).2 := by
  unfold Host.respond Roster.respond
  unfold Config.lineTakings at small ⊢
  cases decoded : Inbound.decode line with
  | error failure => exact ⟨rfl, mirrors⟩
  | ok inbound =>
    rw [decoded] at small
    exact mirrors.handle inbound small

/-- Lines one after another are answered as the roster does. -/
theorem converse_eq (mirrors : Mirrors config taken host roster) {lines : List String}
    (small : taken + (lines.map config.lineTakings).sum < 2 ^ 32) :
    converse Host.respond host lines = converse (Roster.respond config) roster lines := by
  induction lines generalizing taken host roster with
  | nil => rfl
  | cons line rest ih =>
    rw [List.map_cons, List.sum_cons, ← Nat.add_assoc] at small
    obtain ⟨answer, later⟩ := mirrors.respond line (Nat.lt_of_le_of_lt (Nat.le_add_right _ _) small)
    unfold converse
    rw [answer, ih later small]

/-! ### The start -/

/-- A session that is connected at the start adds its pairs. -/
theorem connectSession (mirrors : Mirrors config taken host roster) {session : SessionEntry}
    {after : Host} (connected : host.connectSession session = .ok after)
    (small : taken + session.scopes.length < 2 ^ 32) :
    Mirrors config (taken + session.scopes.length) after
      (roster ∪ (Config.sessionPairs session).toFinset) := by
  obtain ⟨all, rfl⟩ := Host.connectSession_eq_ok connected
  have whole : (session.scopes.map Scope.mk).takeWhile host.catalogue.lists =
      session.scopes.map Scope.mk := by
    rw [List.takeWhile_eq_self_iff]
    simpa using all
  have length : ((session.scopes.map Scope.mk).takeWhile host.catalogue.lists).length =
      session.scopes.length := by
    rw [whole, List.length_map]
  rw [← length] at small ⊢
  refine ⟨mirrors.catalogue, mirrors.stocked.connect _ _ small, fun scope holder => ?_⟩
  show _ ↔ (Host.pipeline.connect _ _ _ _).2.registry.domainCount scope holder ≠ 0
  rw [mirrors.stocked.domainCount_connect_of_all _ all small, ← mirrors.listed,
    Finset.mem_union, List.mem_toFinset, Config.mem_sessionPairs]

/-- Configured sessions are entered into the roster one after another. -/
theorem connectSessions (mirrors : Mirrors config taken host roster)
    {sessions : List SessionEntry} {after : Host}
    (connected : sessions.foldlM Host.connectSession host = .ok after)
    (small : taken + (sessions.map fun session => session.scopes.length).sum < 2 ^ 32) :
    Mirrors config (taken + (sessions.map fun session => session.scopes.length).sum) after
      (roster ∪ (sessions.flatMap Config.sessionPairs).toFinset) := by
  induction sessions generalizing taken host roster with
  | nil =>
    obtain rfl := Except.ok.inj connected
    simpa using mirrors
  | cons session rest ih =>
    rw [List.foldlM_cons] at connected
    obtain ⟨middle, first, later⟩ := bind_eq_ok connected
    rw [List.map_cons, List.sum_cons, ← Nat.add_assoc] at small ⊢
    have enough := Nat.lt_of_le_of_lt (Nat.le_add_right _ _) small
    have all := ih (mirrors.connectSession first enough) later small
    rwa [Finset.union_assoc, ← List.toFinset_append] at all

end Mirrors

/-- A host that has started mirrors the configured sessions. -/
theorem mirrors_of_start {config : Config} {host : Host} (valid : config.validate = .ok ())
    (started : Host.start config = .ok host) (small : config.sessionTakings < 2 ^ 32) :
    Mirrors config config.sessionTakings host config.roster := by
  obtain ⟨catalogue, built, connected⟩ := bind_eq_ok started
  have fresh : Mirrors config 0 ⟨config, catalogue, ⟨.empty config.releasePolicy, {}⟩⟩ ∅ := {
    catalogue := Config.getElem?_results_catalogue valid built
    stocked := .start catalogue config.releasePolicy
    listed := by simp [Registry.domainCount, Registry.holdings, Registry.empty] }
  rw [Config.sessionTakings, ← Nat.zero_add (List.sum _)] at small ⊢
  have all := fresh.connectSessions connected small
  rwa [Finset.empty_union] at all

/-- A host answers every list of lines as the roster of its sessions does, as long as fewer than
`2 ^ 32` references are taken altogether. -/
theorem converse_eq_of_start {config : Config} {host : Host} (valid : config.validate = .ok ())
    (started : Host.start config = .ok host) (lines : List String)
    (small : config.sessionTakings + (lines.map config.lineTakings).sum < 2 ^ 32) :
    converse Host.respond host lines = converse (Roster.respond config) config.roster lines := by
  have enough := Nat.lt_of_le_of_lt (Nat.le_add_right _ _) small
  exact (mirrors_of_start valid started enough).converse_eq small

/-- A host with one scope, which its own session holds from the start. -/
def walletConfig : Config :=
  { version := 1
    scopes := [⟨Scope.wallet, (∅ : Results).insert "ping" (.bool true)⟩]
    sessions := [⟨"owner", [Scope.wallet]⟩] }

/-- A guest comes, the owner goes, the guest calls, a connection fails on its second scope, a method
is unknown, and a line is no request. -/
def exchange : List String :=
  ["[\"2.0\", 1, \"scopemux_connect\", [\"guest\", [\"wallet\", \"wallet\"]]]",
   "[\"2.0\", 2, \"scopemux_revokeSession\", [\"owner\"]]",
   "[\"2.0\", 3, \"ping\", null, \"wallet\"]",
   "[\"2.0\", 4, \"scopemux_connect\", [\"guest\", [\"wallet\", \"abc:1\"]]]",
   "[\"2.0\", 5, \"pong\", null, \"wallet\"]",
   "not a request"]

/-- What a host with one scope answers to these lines. -/
theorem converse_eq_of_exchange :
    walletConfig.validate = .ok () ∧
      walletConfig.sessionTakings + (exchange.map walletConfig.lineTakings).sum < 2 ^ 32 ∧
      ∃ host, Host.start walletConfig = .ok host ∧
        (converse Host.respond host exchange).map Response.encode = [
          "\x7b\"jsonrpc\":\"2.0\",\"id\":1,\"result\":\x7b\"connected\":2\x7d\x7d",
          "\x7b\"jsonrpc\":\"2.0\",\"id\":2,\"result\":\x7b\"released\":1\x7d\x7d",
          "\x7b\"jsonrpc\":\"2.0\",\"id\":3,\"result\":true\x7d",
          "\x7b\"jsonrpc\":\"2.0\",\"id\":4,\"error\":\x7b\"code\":-32602," ++
            "\"message\":\"invalid scope: no middleware configured for abc:1\"\x7d\x7d",
          "\x7b\"jsonrpc\":\"2.0\",\"id\":5,\"error\":\x7b\"code\":-32601," ++
            "\"message\":\"method not found: pong\"\x7d\x7d",
          "\x7b\"jsonrpc\":\"2.0\",\"id\":null,\"error\":\x7b\"code\":-32600," ++
            "\"message\":\"bad request: invalid request json: syntax error\"\x7d\x7d"] := by
  have valid : walletConfig.validate = .ok () := by decide +kernel
  have small :
      walletConfig.sessionTakings + (exchange.map walletConfig.lineTakings).sum < 2 ^ 32 := by
    decide +kernel
  cases started : Host.start walletConfig with
  | error failure =>
    -- The host itself is too large to be written down, but that it starts can be computed.
    have starts : (Host.start walletConfig).isOk = true := by decide +kernel
    rw [started] at starts
    exact absurd starts Bool.false_ne_true
  | ok host =>
    refine ⟨valid, small, host, rfl, ?_⟩
    rw [converse_eq_of_start valid started exchange small]
    decide +kernel

end Switchboard
