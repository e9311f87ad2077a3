import Switchboard.Proofs.Config.Valid
import Switchboard.Proofs.Preset

/-!
# `Switchboard.Proofs.Config.Lookup`: from the entry of a scope to its answers

A host looks a scope up twice. `Config.scope?` goes through the entries and takes the first one; the
catalogue, from which the scope's presets are built, was filled entry by entry and has the last one.
`lookups_agree` says that a valid configuration leads to the same results both ways, all the way to
what a preset answers (`Preset.Serves`).
-/

set_option autoImplicit false

namespace Switchboard

open Rpc

namespace Preset

/-- A preset that serves results. While it is not released, it answers a method with the result
that it has, in place of whatever the response said before, and hands a request for any other one to
the stage that follows. As this may be any
stage, one that keeps count in the world too, it runs once then, and not at all for an answer. -/
def Serves (preset : Preset) (results : Results) : Prop :=
  ∀ {ε μ : Type} (view : ε → Pool) (next : Stage ε μ) (request : Request) (response : Response)
    (world : World ε μ), preset.isReleased (view world.outside) = false →
      (∀ value, results[request.method]? = some value →
        handle view preset next request response world =
          ⟨.ok (), { response with result := some value, error := none }, world⟩) ∧
      (results[request.method]? = none →
        handle view preset next request response world = next request response world)

/-- Every preset serves its own results. -/
theorem serves_results (preset : Preset) : preset.Serves preset.results := by
  intro ε μ view next request response world unreleased
  have answer : preset.answer? (view world.outside) request.method =
      .ok preset.results[request.method]? := by
    rw [answer?, unreleased]
    rfl
  constructor
  · intro value found
    rw [handle, answer, found]
    rfl
  · intro missing
    rw [handle, answer, missing]

end Preset

namespace Config

variable {config : Config} {text : String}

/-- An entry that is found has the results of its scope. -/
theorem results?_eq_some {entry : ScopeEntry} (found : config.scope? text = some entry) :
    config.results? ⟨text⟩ = some entry.results := by
  rw [results?, found]
  rfl

/-- A scope without an entry has no results. -/
theorem results?_eq_none (missing : config.scope? text = none) :
    config.results? ⟨text⟩ = none := by
  rw [results?, missing]
  rfl

/-- For a valid configuration, presets are built for the texts that have an entry, and such a preset
serves the results of the entry. -/
theorem lookups_agree (valid : config.validate = .ok ()) :
    ∃ catalogue, config.catalogue = .ok catalogue ∧ ∀ (text : String) (pool : Preset.Pool),
      ((catalogue.build ⟨text⟩ pool).1.isOk ↔ (config.scope? text).isSome) ∧
      ∀ handle, (catalogue.build ⟨text⟩ pool).1 = .ok handle →
        handle.scope = ⟨text⟩ ∧
          ∃ entry, config.scope? text = some entry ∧ handle.middleware.Serves entry.results := by
  obtain ⟨catalogue, filled⟩ := exists_catalogue valid
  refine ⟨catalogue, filled, fun text pool => ?_⟩
  -- No two entries of a valid configuration have one text, so the last one is the first one.
  have same := getElem?_results_catalogue valid filled ⟨text⟩
  cases found : config.scope? text with
  | none =>
    rw [results?_eq_none found] at same
    rw [catalogue.build_of_not_lists same]
    exact ⟨iff_of_false (by simp [Except.isOk, Except.toBool]) (by simp), nofun⟩
  | some entry =>
    rw [results?_eq_some found] at same
    rw [catalogue.build_of_lists same]
    refine ⟨iff_of_true rfl rfl, ?_⟩
    rintro handle built
    obtain rfl := Except.ok.inj built
    exact ⟨rfl, entry, rfl, Preset.serves_results _⟩

/-- A configuration of two scopes. Only the first has a result for `eth_chainId`, and there is no
preset for a third one. -/
theorem lookups_agree_of_two_scopes :
    let world : World Preset.Pool Preset := ⟨.empty .strict, {}⟩
    let request : Request := { method := "eth_chainId" }
    ∃ (catalogue : Catalogue) (chain wallet : Handle Preset),
      (catalogue.build ⟨"eip155:1"⟩ {}).1 = .ok chain ∧ chain.scope = ⟨"eip155:1"⟩ ∧
      (catalogue.build ⟨Scope.wallet⟩ {}).1 = .ok wallet ∧ wallet.scope = ⟨Scope.wallet⟩ ∧
      ¬(catalogue.build ⟨"eip155:5"⟩ {}).1.isOk ∧
      ∀ response : Response,
        Preset.handle id chain.middleware Stage.methodNotFound request response world =
          ⟨.ok (), { response with result := some (.string "0x1"), error := none }, world⟩ ∧
        Preset.handle id wallet.middleware Stage.methodNotFound request response world =
          Stage.methodNotFound request response world := by
  intro world request
  let results : Results := (∅ : Results).insert "eth_chainId" (.string "0x1")
  let config : Config :=
    { version := 1, scopes := [⟨"eip155:1", results⟩, ⟨Scope.wallet, ∅⟩] }
  have valid : config.validate = .ok () := by decide +kernel
  have first : config.scope? "eip155:1" = some ⟨"eip155:1", results⟩ := by decide +kernel
  have second : config.scope? Scope.wallet = some ⟨Scope.wallet, ∅⟩ := by decide +kernel
  have no_entry : config.scope? "eip155:5" = none := by decide +kernel
  obtain ⟨catalogue, -, agree⟩ := lookups_agree valid
  obtain ⟨built_first, bound_first⟩ := agree "eip155:1" {}
  obtain ⟨built_second, bound_second⟩ := agree Scope.wallet {}
  obtain ⟨built_third, -⟩ := agree "eip155:5" {}
  obtain ⟨chain, chain_built⟩ := isOk_iff.mp (built_first.mpr (by rw [first]; rfl))
  obtain ⟨wallet, wallet_built⟩ := isOk_iff.mp (built_second.mpr (by rw [second]; rfl))
  obtain ⟨chain_scope, entry, found, chain_serves⟩ := bound_first chain chain_built
  obtain rfl := Option.some.inj (first.symm.trans found)
  obtain ⟨wallet_scope, entry, found, wallet_serves⟩ := bound_second wallet wallet_built
  obtain rfl := Option.some.inj (second.symm.trans found)
  refine ⟨catalogue, chain, wallet, chain_built, chain_scope, wallet_built, wallet_scope, ?_,
    fun response => ⟨?_, ?_⟩⟩
  · rw [built_third, no_entry]
    simp
  · exact (chain_serves id _ _ response _ rfl).1 _ (by simp [results, request])
  · exact (wallet_serves id _ _ response _ rfl).2 (by simp)

end Config

end Switchboard
