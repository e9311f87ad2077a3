import Mathlib.Data.List.Nodup
import Switchboard.Config.Validate
import Switchboard.Proofs.Success

/-!
# `Switchboard.Proofs.Config.Catalogue`: the results of a configured scope

The results of a scope can be looked up in the list of a configuration (`Config.results?`) and in
the catalogue that is made of it. The first entry counts in the list and the last one in the
catalogue; `getElem?_results_catalogue` says that the two agree for a valid configuration, in which
no scope is listed twice.
-/

set_option autoImplicit false

namespace Switchboard

namespace Config

/-- The results that are configured for a scope. -/
def results? (config : Config) (scope : Scope) : Option Results :=
  (config.scope? scope.text).map ScopeEntry.results

/-- Scopes that pass the check differ from each other and from those already known. -/
theorem nodup_of_checkScopes {known : List String} {entries : List ScopeEntry}
    (passed : checkScopes known entries = .ok ()) :
    (entries.map ScopeEntry.scope).Nodup ∧ ∀ entry ∈ entries, entry.scope ∉ known := by
  induction entries generalizing known with
  | nil => exact ⟨List.nodup_nil, fun _ member => absurd member List.not_mem_nil⟩
  | cons entry rest ih =>
    unfold checkScopes at passed
    split at passed
    · exact absurd passed (by simp)
    · by_cases again : known.contains entry.scope = true
      · rw [if_pos again] at passed
        exact absurd passed (by simp)
      · rw [if_neg again] at passed
        obtain ⟨nodup, fresh⟩ := ih passed
        have new : entry.scope ∉ known := by simpa using again
        refine ⟨List.nodup_cons.mpr ⟨?_, nodup⟩, ?_⟩
        · intro member
          obtain ⟨other, listed, same⟩ := List.mem_map.mp member
          exact fresh other listed (same ▸ List.mem_cons_self)
        · intro other listed
          rcases List.mem_cons.mp listed with rfl | later
          · exact new
          · exact fun old => fresh other later (List.mem_cons_of_mem _ old)

/-- A valid configuration lists no scope twice. -/
theorem nodup_of_validate {config : Config} (valid : config.validate = .ok ()) :
    (config.scopes.map ScopeEntry.scope).Nodup := by
  unfold validate at valid
  split at valid
  · exact absurd valid (by simp)
  · split at valid
    · exact absurd valid (by simp)
    · obtain ⟨_, checked, -⟩ := bind_eq_ok valid
      exact (nodup_of_checkScopes checked).1

/-- A text that is read as a scope is that scope. -/
theorem parseOrFail_eq_ok {text : String} {scope : Scope}
    (read : Scope.parseOrFail text = .ok scope) : scope = ⟨text⟩ := by
  unfold Scope.parseOrFail at read
  cases parsed : Scope.parse text with
  | error defect =>
    rw [parsed] at read
    exact absurd read (by simp [Except.mapError])
  | ok found =>
    rw [parsed] at read
    obtain rfl : found = scope := Except.ok.inj read
    have same := Scope.text_of_parse parsed
    rw [← same]

/-- Texts that could be read are the scopes with these texts. -/
theorem mapM_parseOrFail_eq_ok {texts : List String} {scopes : List Scope}
    (read : texts.mapM Scope.parseOrFail = .ok scopes) : scopes = texts.map Scope.mk := by
  induction texts generalizing scopes with
  | nil => exact (Except.ok.inj read).symm
  | cons text rest ih =>
    rw [List.mapM_cons] at read
    obtain ⟨scope, first, later⟩ := bind_eq_ok read
    obtain ⟨others, rest_read, joined⟩ := bind_eq_ok later
    rw [← Except.ok.inj joined, ih rest_read, parseOrFail_eq_ok first]
    rfl

/-- One entry is entered into a catalogue. -/
def enter (catalogue : Catalogue) (entry : ScopeEntry) : Except Failure Catalogue := do
  let scope ← Scope.parseOrFail entry.scope
  .ok (catalogue.insert scope entry.results)

/-- An entry that is taken up is found under its scope. -/
theorem enter_eq_ok {before after : Catalogue} {entry : ScopeEntry}
    (entered : enter before entry = .ok after) :
    after.results = before.results.insert ⟨entry.scope⟩ entry.results := by
  obtain ⟨scope, read, inserted⟩ := bind_eq_ok entered
  obtain rfl := Except.ok.inj inserted
  rw [parseOrFail_eq_ok read]
  rfl

/-- Entering a list of different scopes finds each of them, and others as before. -/
theorem getElem?_results_foldlM {entries : List ScopeEntry} {before after : Catalogue}
    (nodup : (entries.map ScopeEntry.scope).Nodup)
    (entered : entries.foldlM enter before = .ok after) (scope : Scope) :
    after.results[scope]? =
      ((entries.find? fun entry => entry.scope == scope.text).map ScopeEntry.results).or
        before.results[scope]? := by
  -- The catalogue grows with each entry, so the induction is over all catalogues to begin with.
  induction entries generalizing before with
  | nil =>
    obtain rfl := Except.ok.inj entered
    rfl
  | cons entry rest ih =>
    rw [List.foldlM_cons] at entered
    obtain ⟨middle, first, later⟩ := bind_eq_ok entered
    obtain ⟨new, nodup_rest⟩ := List.nodup_cons.mp nodup
    rw [ih nodup_rest later, enter_eq_ok first, Std.ExtTreeMap.getElem?_insert]
    by_cases here : entry.scope = scope.text
    · -- The scope is this entry's, so no later entry can be found for it.
      have same : (⟨entry.scope⟩ : Scope) = scope := by rw [here]
      have no_later : (rest.find? fun other => other.scope == scope.text) = none := by
        rw [List.find?_eq_none]
        intro other listed found
        have again : other.scope = entry.scope := (eq_of_beq found).trans here.symm
        exact new (again ▸ List.mem_map_of_mem listed)
      rw [no_later, List.find?_cons_of_pos (by simpa using here), same]
      simp
    · have differ : (⟨entry.scope⟩ : Scope) ≠ scope := fun same => here (congrArg Scope.text same)
      rw [List.find?_cons_of_neg (by simpa using here)]
      simp [differ]

/-- The catalogue of a valid configuration has the results that are configured. -/
theorem getElem?_results_catalogue {config : Config} {catalogue : Catalogue}
    (valid : config.validate = .ok ()) (built : config.catalogue = .ok catalogue) (scope : Scope) :
    catalogue.results[scope]? = config.results? scope := by
  have found := getElem?_results_foldlM (nodup_of_validate valid)
    (show config.scopes.foldlM enter .empty = .ok catalogue from built) scope
  rw [found, Catalogue.empty, Std.ExtTreeMap.getElem?_empty, Option.or_none]
  rfl

end Config

end Switchboard
