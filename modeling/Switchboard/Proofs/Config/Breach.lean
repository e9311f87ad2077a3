import Switchboard.Proofs.Config.Valid

/-!
# `Switchboard.Proofs.Config.Breach`: what is wrong with a configuration

`Config.Acceptable` lists the rules of a configuration without an order. Where a rule is broken, the
order decides what is reported: `FirstFault` is the first item of a list that is at fault, given the
items before it, and `Config.Reports` puts the rules one behind the other. `validates_exactly` says
that a configuration is accepted exactly if it keeps all rules, and that otherwise the first breach
is reported, in its own words.
-/

set_option autoImplicit false

namespace Switchboard

/-! ### The first fault in a list -/

section
variable {α β ε : Type}

/-- A failure that the first faulty item of a list leads to. Whether an item is at fault may depend
on those before it. -/
def FirstFault (fault : List α → α → ε → Prop) (items : List α) (failure : ε) : Prop :=
  ∃ before item after, items = before ++ item :: after ∧ fault before item failure ∧
    ∀ front other back, before = front ++ other :: back → ∀ earlier, ¬fault front other earlier

variable {fault : List α → α → ε → Prop} {failure : ε}

/-- Without items there is no fault. -/
theorem not_firstFault_nil : ¬FirstFault fault [] failure := by
  rintro ⟨before, item, after, same, -⟩
  cases before <;> cases same

/-- The first item is at fault, or it is not and one behind it is the first. -/
theorem firstFault_cons {item : α} {rest : List α} :
    FirstFault fault (item :: rest) failure ↔
      fault [] item failure ∨ (∀ earlier, ¬fault [] item earlier) ∧
        FirstFault (fun before => fault (item :: before)) rest failure := by
  constructor
  · rintro ⟨before, other, after, same, faulty, first⟩
    -- Nothing stands before the first item, so if the fault is elsewhere the first item has none.
    cases before with
    | nil =>
      cases same
      exact .inl faulty
    | cons head before =>
      obtain ⟨rfl, rfl⟩ := List.cons.inj same
      refine .inr ⟨first [] item before rfl, before, other, after, rfl, faulty, ?_⟩
      rintro front other back rfl
      exact first (item :: front) other back rfl
  · rintro (faulty | ⟨sound, before, other, after, rfl, faulty, first⟩)
    · refine ⟨[], item, rest, rfl, faulty, ?_⟩
      intro front other back same
      cases front <;> cases same
    · refine ⟨item :: before, other, after, rfl, faulty, ?_⟩
      intro front other back same
      cases front with
      | nil =>
        obtain ⟨rfl, -⟩ := List.cons.inj same
        exact sound
      | cons head front =>
        obtain ⟨rfl, rest_same⟩ := List.cons.inj same
        exact first front other back rest_same

/-- A check of all items fails as it does for the first one for which it fails. -/
theorem forM_eq_error_iff (check : α → Except β Unit) (report : β → ε) (items : List α)
    (failure : ε) :
    (items.forM check).mapError report = .error failure ↔
      FirstFault (fun _ item failure => (check item).mapError report = .error failure) items
        failure := by
  induction items with
  | nil => exact iff_of_false (fun fails => by cases fails) not_firstFault_nil
  | cons item rest ih =>
    rw [firstFault_cons, ← ih]
    show (check item >>= fun _ => rest.forM check).mapError report = .error failure ↔ _
    cases check item <;> simp [bind, Except.bind, Except.mapError]

/-- A search for the first item of a kind finds the first fault of this kind. -/
theorem find?_eq_some_iff_firstFault (faulty : α → Bool) (report : α → ε) (items : List α)
    (failure : ε) :
    (∃ item, items.find? faulty = some item ∧ report item = failure) ↔
      FirstFault (fun _ item failure => faulty item ∧ report item = failure) items failure := by
  induction items with
  | nil => exact iff_of_false (fun ⟨_, found, _⟩ => by cases found) not_firstFault_nil
  | cons item rest ih =>
    rw [firstFault_cons, ← ih, List.find?_cons]
    cases faulty item <;> simp

end

namespace Config

/-! ### The rules and their breaches -/

/-- The texts of the configured scopes. -/
def known (config : Config) : List String := config.scopes.map ScopeEntry.scope

/-- A configuration that keeps all rules. -/
structure Acceptable (config : Config) : Prop where
  version : config.version = 1
  listed : config.scopes ≠ []
  readable : ∀ entry ∈ config.scopes, (Scope.parse entry.scope).isOk
  distinct : config.known.Nodup
  named : ∀ session ∈ config.sessions, session.domain ≠ ""
  configured : ∀ session ∈ config.sessions, ∀ scope ∈ session.scopes, scope ∈ config.known

/-- What is wrong with an entry behind others: it cannot be read as a scope, or it repeats one of
them. -/
inductive ScopeFault (before : List ScopeEntry) (entry : ScopeEntry) : Failure → Prop
  | unreadable {failure : Failure} (refused : Scope.parseOrFail entry.scope = .error failure) :
      ScopeFault before entry failure
  | repeated (readable : (Scope.parse entry.scope).isOk)
      (again : entry.scope ∈ before.map ScopeEntry.scope) :
      ScopeFault before entry (.badRequest ("duplicate scope: " ++ entry.scope))

/-- How a session reports a scope that is not configured. -/
def unconfigured (session : SessionEntry) (scope : String) : Failure :=
  .badRequest ("session " ++ session.domain ++ " refers to unconfigured scope: " ++ scope)

/-- What is wrong with a session: it has no domain, or its first scope that is not configured. -/
inductive SessionFault (config : Config) (session : SessionEntry) : Failure → Prop
  | unnamed (empty : session.domain = "") :
      SessionFault config session (.badRequest "sessions[].domain must not be empty")
  | unconfigured {failure : Failure} (named : session.domain ≠ "")
      (first : FirstFault
        (fun _ scope failure => scope ∉ config.known ∧ unconfigured session scope = failure)
        session.scopes failure) :
      SessionFault config session failure

/-- The first breach of a configuration: of the version, else of having scopes at all, else in the
first faulty entry, else in the first faulty session. -/
inductive Reports (config : Config) : Failure → Prop
  | version (wrong : config.version ≠ 1) : Reports config .unsupportedVersion
  | noScopes (version : config.version = 1) (none_listed : config.scopes = []) :
      Reports config (.badRequest "scopes must not be empty")
  | scope {failure : Failure} (version : config.version = 1)
      (first : FirstFault ScopeFault config.scopes failure) : Reports config failure
  | session {failure : Failure} (version : config.version = 1) (listed : config.scopes ≠ [])
      (sound : ∀ earlier, ¬FirstFault ScopeFault config.scopes earlier)
      (first : FirstFault (fun _ => SessionFault config) config.sessions failure) :
      Reports config failure

/-! ### The checks one by one -/

/-- A scope that cannot be read is at fault for that. -/
theorem scopeFault_of_defect {before : List ScopeEntry} {entry : ScopeEntry} {failure : Failure}
    {defect : Scope.Defect} (refused : Scope.parse entry.scope = .error defect) :
    ScopeFault before entry failure ↔ Failure.ofDefect entry.scope defect = failure := by
  have reported : Scope.parseOrFail entry.scope = .error (.ofDefect entry.scope defect) := by
    rw [Scope.parseOrFail, refused]
    rfl
  constructor
  · rintro (unreadable | ⟨readable, -⟩)
    · exact Except.error.inj (reported.symm.trans unreadable)
    · rw [refused] at readable
      cases readable
  · rintro rfl
    exact .unreadable reported

/-- A scope that can be read is at fault only if it came before. -/
theorem scopeFault_of_parse {before : List ScopeEntry} {entry : ScopeEntry} {failure : Failure}
    {scope : Scope} (read : Scope.parse entry.scope = .ok scope) :
    ScopeFault before entry failure ↔
      entry.scope ∈ before.map ScopeEntry.scope ∧
        Failure.badRequest ("duplicate scope: " ++ entry.scope) = failure := by
  constructor
  · rintro (unreadable | ⟨-, again⟩)
    · rw [Scope.parseOrFail, read] at unreadable
      cases unreadable
    · exact ⟨again, rfl⟩
  · rintro ⟨again, rfl⟩
    exact .repeated (isOk_iff.mpr ⟨scope, read⟩) again

/-- The entries behind others, whose texts are known, are checked for their first fault. -/
theorem checkScopes_eq_error_iff {failure : Failure} (entries before : List ScopeEntry)
    {known : List String} (same : ∀ text, text ∈ known ↔ text ∈ before.map ScopeEntry.scope) :
    (checkScopes known entries).mapError Breach.failure = .error failure ↔
      FirstFault (fun later => ScopeFault (before ++ later)) entries failure := by
  -- The loop carries the texts it has seen, the faults the entries; each step moves one of both.
  induction entries generalizing before known with
  | nil => exact iff_of_false (fun fails => by cases fails) not_firstFault_nil
  | cons entry rest ih =>
    rw [firstFault_cons, List.append_nil]
    unfold checkScopes
    cases read : Scope.parse entry.scope with
    | error defect =>
      simp [scopeFault_of_defect read, Except.mapError, Breach.failure]
    | ok scope =>
      simp only [scopeFault_of_parse read, List.contains_iff_mem, same]
      by_cases again : entry.scope ∈ before.map ScopeEntry.scope
      · simp [again, Except.mapError, Breach.failure]
      · have known_now (text : String) : text ∈ entry.scope :: known ↔
            text ∈ (before ++ [entry]).map ScopeEntry.scope := by
          simp [same, or_comm]
        simpa [again] using ih (before ++ [entry]) known_now

/-- The check of a session fails with its fault. -/
theorem checkSession_eq_error_iff (config : Config) (session : SessionEntry) {failure : Failure} :
    (checkSession config.known session).mapError Breach.failure = .error failure ↔
      SessionFault config session failure := by
  unfold checkSession
  by_cases empty : session.domain = ""
  · rw [if_pos (by simp [empty])]
    constructor
    · intro reported
      cases reported
      exact .unnamed empty
    · rintro (- | ⟨named, -⟩)
      · rfl
      · exact absurd empty named
  · rw [if_neg (by simpa using empty)]
    -- With a domain, what is left of the check is a search among the scopes of the session.
    have search := find?_eq_some_iff_firstFault (fun scope => !config.known.contains scope)
      (unconfigured session) session.scopes failure
    have faulty : SessionFault config session failure ↔ FirstFault
        (fun _ scope failure => (!config.known.contains scope) ∧
          unconfigured session scope = failure) session.scopes failure := by
      simp only [Bool.not_eq_true', List.contains_eq_mem, decide_eq_false_iff_not]
      constructor
      · rintro (⟨named⟩ | ⟨-, first⟩)
        · exact absurd named empty
        · exact first
      · exact .unconfigured empty
    rw [faulty, ← search]
    cases session.scopes.find? fun scope => !config.known.contains scope with
    | none => simp [Except.mapError]
    | some scope => simp [Except.mapError, Breach.failure, unconfigured]

/-! ### All rules -/

/-- A configuration passes exactly if it is acceptable. -/
theorem acceptable_iff (config : Config) : config.validate = .ok () ↔ config.Acceptable := by
  rw [validate_eq_ok_iff]
  constructor
  · rintro ⟨version, listed, ⟨readable, distinct⟩, sessions⟩
    exact ⟨version, listed, readable, distinct, fun session member => (sessions session member).1,
      fun session member => (sessions session member).2⟩
  · rintro ⟨version, listed, readable, distinct, named, configured⟩
    exact ⟨version, listed, ⟨readable, distinct⟩,
      fun session member => ⟨named session member, configured session member⟩⟩

/-- What is reported if the scopes are listed: their first fault, or that of the sessions. -/
theorem reports_of_listed {config : Config} {failure : Failure} (version : config.version = 1)
    (listed : config.scopes ≠ []) :
    config.Reports failure ↔ FirstFault ScopeFault config.scopes failure ∨
      (∀ earlier, ¬FirstFault ScopeFault config.scopes earlier) ∧
        FirstFault (fun _ => SessionFault config) config.sessions failure := by
  constructor
  · rintro (wrong | ⟨-, none_listed⟩ | ⟨-, first⟩ | ⟨-, -, sound, first⟩)
    · exact absurd version wrong
    · exact absurd none_listed listed
    · exact .inl first
    · exact .inr ⟨sound, first⟩
  · rintro (first | ⟨sound, first⟩)
    · exact .scope version first
    · exact .session version listed sound first

/-- A configuration fails exactly with the failure that is to be reported. -/
theorem validate_eq_error_iff (config : Config) (failure : Failure) :
    config.validate.mapError Breach.failure = .error failure ↔ config.Reports failure := by
  unfold validate
  -- The checks are made in this order, and the first one that fails is reported.
  by_cases version : config.version = 1
  · rw [if_neg (by simpa [supportedVersion] using version)]
    by_cases none_listed : config.scopes = []
    · rw [if_pos (by simp [none_listed])]
      constructor
      · intro reported
        cases reported
        exact .noScopes version none_listed
      · rintro (wrong | - | ⟨-, first⟩ | ⟨-, listed, -⟩)
        · exact absurd version wrong
        · rfl
        · exact absurd (none_listed ▸ first) not_firstFault_nil
        · exact absurd none_listed listed
    · -- The sessions are looked at only if no entry is at fault, as `reports_of_listed` has it.
      have scopes (failure : Failure) :
          (checkScopes [] config.scopes).mapError Breach.failure = .error failure ↔
            FirstFault ScopeFault config.scopes failure :=
        checkScopes_eq_error_iff config.scopes [] fun _ => .rfl
      have sessions := forM_eq_error_iff (checkSession config.known) Breach.failure
        config.sessions failure
      simp only [checkSession_eq_error_iff] at sessions
      rw [if_neg (by simpa using none_listed), reports_of_listed version none_listed, ← sessions]
      simp only [← scopes]
      cases checkScopes [] config.scopes <;> simp [bind, Except.bind, Except.mapError, known]
  · rw [if_pos (by simpa [supportedVersion] using version)]
    constructor
    · intro reported
      cases reported
      exact .version version
    · rintro (- | ⟨right, -⟩ | ⟨right, -⟩ | ⟨right, -⟩)
      · rfl
      all_goals exact absurd right version

/-- A configuration is accepted exactly if it keeps all rules, and refused exactly with its first
breach. -/
theorem validates_exactly (config : Config) :
    (config.validate = .ok () ↔ config.Acceptable) ∧
      ∀ failure, config.validate.mapError Breach.failure = .error failure ↔
        config.Reports failure :=
  ⟨acceptable_iff config, validate_eq_error_iff config⟩

/-- The repeated scope is reported, not the unreadable one behind it or the session without a
domain. -/
theorem validates_exactly_repeated :
    Config.Reports
      { version := 1
        scopes := [⟨"eip155:1", ∅⟩, ⟨"wallet", ∅⟩, ⟨"eip155:1", ∅⟩, ⟨"eip155", ∅⟩]
        sessions := [⟨"", ["eip155:5"]⟩] }
      (.badRequest "duplicate scope: eip155:1") :=
  ((validates_exactly _).2 _).mp (by decide)

end Config

end Switchboard
