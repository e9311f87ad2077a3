import Switchboard.Config.Load
import Switchboard.Proofs.Config.Catalogue

/-!
# `Switchboard.Proofs.Config.Valid`: what a valid configuration is

`Config.validate` checks its rules in order and stops at the first breach. `validate_eq_ok_iff` says
what it comes to without the order. Only the configured scopes are read there; that those of the
sessions can be read as well, and have results, follows because each of them is configured
(`mapM_parseOrFail_of_validate`, `results?_of_validate`).
-/

set_option autoImplicit false

namespace Switchboard.Config

/-! ### The rules without their order -/

/-- Scopes pass if they can be read and none of them comes twice. -/
theorem checkScopes_eq_ok_iff (known : List String) (entries : List ScopeEntry) :
    checkScopes known entries = .ok () ↔
      (∀ entry ∈ entries, (Scope.parse entry.scope).isOk) ∧
        (entries.map ScopeEntry.scope).Nodup ∧ ∀ entry ∈ entries, entry.scope ∉ known := by
  constructor
  · intro passed
    refine ⟨?_, nodup_of_checkScopes passed⟩
    induction entries generalizing known with
    | nil => simp
    | cons entry rest ih =>
      unfold checkScopes at passed
      split at passed
      · exact absurd passed (by simp)
      · rename_i scope read
        split at passed
        · exact absurd passed (by simp)
        · exact List.forall_mem_cons.mpr ⟨isOk_iff.mpr ⟨scope, read⟩, ih _ passed⟩
  · rintro ⟨readable, nodup, fresh⟩
    induction entries generalizing known with
    | nil => rfl
    | cons entry rest ih =>
      obtain ⟨scope, read⟩ := isOk_iff.mp (readable entry List.mem_cons_self)
      have new : known.contains entry.scope = false := by
        simpa using fresh entry List.mem_cons_self
      obtain ⟨differs, nodup⟩ := List.nodup_cons.mp nodup
      unfold checkScopes
      rw [read]
      simp only [new, Bool.false_eq_true, if_false]
      -- The scope is known to those behind it, and they differ from it.
      refine ih _ (fun other later => readable other (List.mem_cons_of_mem _ later)) nodup ?_
      intro other later again
      rcases List.mem_cons.mp again with same | old
      · exact differs (same ▸ List.mem_map_of_mem later)
      · exact fresh other (List.mem_cons_of_mem _ later) old

/-- A session passes if it has a domain and names known scopes. -/
theorem checkSession_eq_ok_iff (known : List String) (session : SessionEntry) :
    checkSession known session = .ok () ↔
      session.domain ≠ "" ∧ ∀ scope ∈ session.scopes, scope ∈ known := by
  unfold checkSession
  by_cases unnamed : session.domain = ""
  · simp [unnamed]
  · have named : session.domain.isEmpty = false := by simpa using unnamed
    rw [named]
    cases found : session.scopes.find? fun scope => !known.contains scope with
    | none =>
      have all := List.find?_eq_none.mp found
      simp only [Bool.false_eq_true, if_false, true_iff]
      exact ⟨unnamed, fun scope listed => by simpa using all scope listed⟩
    | some scope =>
      have unknown : scope ∉ known := by simpa using List.find?_some found
      have listed := List.mem_of_find?_eq_some found
      simp only [Bool.false_eq_true, if_false, reduceCtorEq, false_iff]
      exact fun both => unknown (both.2 scope listed)

/-- A configuration is valid if it has the supported version and some scopes, these can be read and
are listed once, and every session has a name and only configured scopes. -/
theorem validate_eq_ok_iff (config : Config) :
    config.validate = .ok () ↔
      config.version = supportedVersion ∧ config.scopes ≠ [] ∧
        ((∀ entry ∈ config.scopes, (Scope.parse entry.scope).isOk) ∧
          (config.scopes.map ScopeEntry.scope).Nodup) ∧
        ∀ session ∈ config.sessions, session.domain ≠ "" ∧
          ∀ scope ∈ session.scopes, scope ∈ config.scopes.map ScopeEntry.scope := by
  unfold validate
  by_cases version : config.version = supportedVersion
  · by_cases none_listed : config.scopes = []
    · simp [version, none_listed]
    · have some_listed : config.scopes.isEmpty = false := by simpa using none_listed
      have scopes := checkScopes_eq_ok_iff [] config.scopes
      simp only [List.not_mem_nil, not_false_eq_true, implies_true, and_true] at scopes
      simp only [version, ne_eq, not_true_eq_false, if_false, some_listed, Bool.false_eq_true,
        none_listed, not_false_eq_true, true_and, ← checkSession_eq_ok_iff, ← scopes,
        ← forM_eq_ok_iff]
      cases checkScopes [] config.scopes with
      | error breach => simp [bind, Except.bind]
      | ok passed => simp [bind, Except.bind]
  · simp [version]

/-- A configuration that was loaded is valid. -/
theorem validate_of_loadText {text : List Char} {config : Config}
    (loaded : loadText text = .ok config) : config.validate = .ok () := by
  unfold loadText at loaded
  cases read : read? text with
  | none =>
    rw [read] at loaded
    exact absurd loaded (by simp)
  | some spelled =>
    rw [read] at loaded
    obtain ⟨passed, valid, same⟩ := bind_eq_ok loaded
    rw [← Except.ok.inj same]
    exact mapError_eq_ok valid

/-! ### What a start needs -/

/-- A text that can be read is the text of the scope. -/
theorem parseOrFail_of_isOk {text : String} (readable : (Scope.parse text).isOk) :
    Scope.parseOrFail text = .ok ⟨text⟩ := by
  obtain ⟨scope, read⟩ := isOk_iff.mp readable
  have parsed : Scope.parseOrFail text = .ok scope := by
    unfold Scope.parseOrFail
    rw [read]
    rfl
  rw [parsed, parseOrFail_eq_ok parsed]

/-- A list of texts can be read as scopes if each of them can. -/
theorem mapM_parseOrFail_of_isOk {texts : List String}
    (readable : ∀ text ∈ texts, (Scope.parse text).isOk) :
    texts.mapM Scope.parseOrFail = .ok (texts.map Scope.mk) := by
  induction texts with
  | nil => rfl
  | cons text rest ih =>
    have first := parseOrFail_of_isOk (readable text List.mem_cons_self)
    have later := ih fun other member => readable other (List.mem_cons_of_mem _ member)
    rw [List.mapM_cons, first, later]
    rfl

/-- Entries whose scopes can be read make up a catalogue. -/
theorem exists_foldlM_enter {entries : List ScopeEntry}
    (readable : ∀ entry ∈ entries, (Scope.parse entry.scope).isOk) (before : Catalogue) :
    ∃ after, entries.foldlM enter before = .ok after := by
  induction entries generalizing before with
  | nil => exact ⟨before, rfl⟩
  | cons entry rest ih =>
    have read := parseOrFail_of_isOk (readable entry List.mem_cons_self)
    have first : enter before entry = .ok (before.insert ⟨entry.scope⟩ entry.results) := by
      unfold enter
      rw [read]
      rfl
    rw [List.foldlM_cons, first]
    exact ih (fun other member => readable other (List.mem_cons_of_mem _ member)) _

variable {config : Config}

/-- A valid configuration fills a catalogue. -/
theorem exists_catalogue (valid : config.validate = .ok ()) :
    ∃ catalogue, config.catalogue = .ok catalogue :=
  exists_foldlM_enter ((validate_eq_ok_iff config).mp valid).2.2.1.1 .empty

/-- The scopes of a session can be read. -/
theorem mapM_parseOrFail_of_validate (valid : config.validate = .ok ()) {session : SessionEntry}
    (listed : session ∈ config.sessions) :
    session.scopes.mapM Scope.parseOrFail = .ok (session.scopes.map Scope.mk) := by
  obtain ⟨-, -, ⟨readable, -⟩, sessions⟩ := (validate_eq_ok_iff config).mp valid
  apply mapM_parseOrFail_of_isOk
  intro text named
  obtain ⟨entry, member, rfl⟩ := List.mem_map.mp ((sessions session listed).2 text named)
  exact readable entry member

/-- The scopes of a session have results. -/
theorem results?_of_validate (valid : config.validate = .ok ()) {session : SessionEntry}
    (listed : session ∈ config.sessions) {scope : Scope}
    (named : scope ∈ session.scopes.map Scope.mk) : (config.results? scope).isSome := by
  obtain ⟨-, -, -, sessions⟩ := (validate_eq_ok_iff config).mp valid
  obtain ⟨text, member, rfl⟩ := List.mem_map.mp named
  obtain ⟨entry, configured, same⟩ := List.mem_map.mp ((sessions session listed).2 text member)
  rw [results?, scope?, Option.isSome_map, List.find?_isSome]
  exact ⟨entry, configured, by simp [same]⟩

end Switchboard.Config
