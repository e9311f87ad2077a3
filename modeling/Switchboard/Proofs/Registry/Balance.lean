import Switchboard.Proofs.Registry.Counts
import Switchboard.Proofs.Registry.Entries
import Switchboard.Proofs.Registry.Fate

/-!
# `Switchboard.Proofs.Registry.Balance`: the ledger balances

Every counter of a registry is the number of certain events in the chronicle of its run, and the
gauge of live handlers is the number of handlers. `Balanced` ties the ledger to the chronicle in the
middle of a run too, when handles are still to be released: their retirements are not in the ledger
yet, so until then the gauge counts them as live.

When a deed is over nothing is due, and the entries add up: every handler that was installed is live
or was retired (`ledger_balances`).
-/

set_option autoImplicit false

namespace Switchboard

open Metrics

variable {μ : Type}

namespace Chronicle

namespace Entry

/-- Some call begins. -/
def isCall : Entry μ → Bool
  | .called _ _ => true
  | _ => false

/-- A handle is passed for a scope, and is not refused. -/
def joins (scope : Scope) : Entry μ → Bool
  | .called _ (.register target _ handle) | .called _ (.install target handle) =>
    decide (target = scope) && decide (handle.scope = scope)
  | _ => false

/-- A handle is passed for a scope, and is refused because it is bound to another one. -/
def isRefused (scope : Scope) : Entry μ → Bool
  | .called _ (.register target _ handle) | .called _ (.install target handle) =>
    decide (target = scope) && decide (handle.scope ≠ scope)
  | _ => false

/-- A call finds a scope without a handler. -/
def findsFree (scope : Scope) : Entry μ → Bool
  | .called found _ => (found.handler? scope).isNone
  | _ => false

/-- A release on a scope lowers the count of its domain. -/
def givesBack (scope : Scope) : Entry μ → Bool
  | .called found (.release target domain) =>
    (Entry.called found (.release target domain)).drops scope domain
  | _ => false

/-- A release on a scope is made for a domain that holds no reference. -/
def overdraws (scope : Scope) : Entry μ → Bool
  | .called found (.release target domain) =>
    decide (target = scope) && decide (found.domainCount scope domain = 0)
  | _ => false

end Entry

/-! ### What one call adds to the counters -/

section Call

variable (found : Registry μ) (call : Call μ) (ledger : Ledger) (scope : Scope)

/-- A handle that is passed is counted as a registration if it is bound to the scope. -/
theorem get_registrations_passed (target : Scope) (handle : Handle μ) (installed : Bool) :
    (if handle.scope = target then
        ledger.noteRegistration target (found.handler? target).isNone
      else ledger.noteViolation target).registrations.get (byRegistration scope installed) =
    ledger.registrations.get (byRegistration scope installed) +
      if (decide (target = scope) && decide (handle.scope = scope)) &&
        ((found.handler? scope).isNone == installed) then 1 else 0 := by
  by_cases bound : handle.scope = target
  · subst bound
    rw [if_pos rfl]
    refine Counter.get_increment ledger.registrations ?_
    rw [byRegistration_inj]
    by_cases here : handle.scope = scope
    · subst here
      simp only [decide_true, Bool.and_self, Bool.true_and, true_and, beq_iff_eq]
      exact eq_comm
    · simp [here, Ne.symm here]
  · -- A refused handle counts for no scope, not even for the one that it is bound to.
    rw [if_neg bound]
    have apart : ¬(target = scope ∧ handle.scope = scope) := by
      rintro ⟨rfl, same⟩
      exact bound same
    simp [apart, Ledger.noteViolation]

/-- A handle that is not refused is counted by whether it found the slot free. -/
theorem get_registrations_entry (installed : Bool) :
    (found.entry call ledger).registrations.get (byRegistration scope installed) =
      ledger.registrations.get (byRegistration scope installed) +
        if (Entry.called found call).joins scope &&
          ((Entry.called found call).findsFree scope == installed) then 1 else 0 := by
  cases call with
  | register target domain handle =>
    exact get_registrations_passed found ledger scope target handle installed
  | install target handle =>
    exact get_registrations_passed found ledger scope target handle installed
  | release target domain =>
    show (if domain ∈ found.holdings target then ledger.noteRelease target
      else ledger.noteViolation target).registrations.get _ = _
    split <;> simp [Entry.joins, Ledger.noteRelease, Ledger.noteViolation]
  | _ => simp [Entry.joins, Registry.entry]

/-- A release is counted if it lowers a count. -/
theorem get_releases_entry (sound : found.Sound) :
    (found.entry call ledger).releases.get (byScope scope) =
      ledger.releases.get (byScope scope) +
        if (Entry.called found call).givesBack scope then 1 else 0 := by
  cases call with
  | register target domain handle =>
    show (if handle.scope = target then _ else _ : Ledger).releases.get _ = _
    split <;> simp [Entry.givesBack, Ledger.noteRegistration, Ledger.noteViolation]
  | install target handle =>
    show (if handle.scope = target then _ else _ : Ledger).releases.get _ = _
    split <;> simp [Entry.givesBack, Ledger.noteRegistration, Ledger.noteViolation]
  | release target domain =>
    show (if domain ∈ found.holdings target then ledger.noteRelease target
      else ledger.noteViolation target).releases.get _ = _
    -- In a sound registry, exactly the domains that are listed have a count to lower.
    have lowers : (Entry.called found (.release target domain)).givesBack scope = true ↔
        target = scope ∧ domain ∈ found.holdings target := by
      by_cases here : target = scope
      · subst here
        show (Entry.called found (.release target domain)).drops target domain = true ↔ _
        rw [drops_release_iff, (sound.proper target).mem_iff]
        simp [Registry.domainCount]
      · simp [Entry.givesBack, Entry.drops, here]
    by_cases held : domain ∈ found.holdings target
    · rw [if_pos held]
      refine Counter.get_increment ledger.releases ?_
      rw [byScope_inj, lowers, and_iff_left held, eq_comm]
    · rw [if_neg held, if_neg fun all => held (lowers.mp all).2]
      exact (UInt64.add_zero _).symm
  | _ => simp [Entry.givesBack, Registry.entry]

/-- A handle that is passed is counted as a violation if it is not bound to the scope. -/
theorem get_contractViolations_passed (target : Scope) (handle : Handle μ) :
    (if handle.scope = target then
        ledger.noteRegistration target (found.handler? target).isNone
      else ledger.noteViolation target).contractViolations.get (byScope scope) =
    ledger.contractViolations.get (byScope scope) +
      if decide (target = scope) && decide (handle.scope ≠ scope) then 1 else 0 := by
  by_cases bound : handle.scope = target
  · subst bound
    simp [Ledger.noteRegistration]
  · rw [if_neg bound]
    refine Counter.get_increment ledger.contractViolations ?_
    rw [byScope_inj]
    by_cases here : target = scope
    · subst here
      simp [bound]
    · simp [here, Ne.symm here]

/-- A refused handle is a violation, and so is a release without a reference. -/
theorem get_contractViolations_entry (sound : found.Sound) :
    (found.entry call ledger).contractViolations.get (byScope scope) =
      ledger.contractViolations.get (byScope scope) +
        if (Entry.called found call).isRefused scope || (Entry.called found call).overdraws scope
        then 1 else 0 := by
  cases call with
  | register target domain handle =>
    refine (get_contractViolations_passed found ledger scope target handle).trans ?_
    simp [Entry.isRefused, Entry.overdraws]
  | install target handle =>
    refine (get_contractViolations_passed found ledger scope target handle).trans ?_
    simp [Entry.isRefused, Entry.overdraws]
  | release target domain =>
    show (if domain ∈ found.holdings target then ledger.noteRelease target
      else ledger.noteViolation target).contractViolations.get _ = _
    -- In a sound registry no count is zero, so to hold nothing is not to be listed.
    have none_held : found.domainCount target domain = 0 ↔ domain ∉ found.holdings target := by
      rw [(sound.proper target).mem_iff, not_not]
      rfl
    by_cases held : domain ∈ found.holdings target
    · rw [if_pos held]
      by_cases here : target = scope
      · subst here
        simp [Entry.isRefused, Entry.overdraws, none_held, held, Ledger.noteRelease]
      · simp [Entry.isRefused, Entry.overdraws, here, Ledger.noteRelease]
    · rw [if_neg held]
      refine Counter.get_increment ledger.contractViolations ?_
      rw [byScope_inj]
      by_cases here : target = scope
      · subst here
        simp [Entry.isRefused, Entry.overdraws, none_held, held]
      · simp [Entry.isRefused, Entry.overdraws, here, Ne.symm here]
  | _ => simp [Entry.isRefused, Entry.overdraws, Registry.entry]

end Call

/-! ### Whole runs -/

/-- The ledger of a story in which the retirements in `gone` are over and those in `due` are not. -/
structure Balanced (gone due : List (Retirement μ)) (story : Story μ) : Prop where
  sound : story.registry.Sound
  /-- What was accepted is in the registry, due or gone. -/
  conserved : (accepted story.outside).Perm
    (story.registry.handlers.values ++ (due.map (·.handle) ++ gone.map (·.handle)))
  registrations : ∀ scope installed,
    story.registry.ledger.registrations.get (byRegistration scope installed) =
      .ofNat (story.outside.countP fun entry =>
        entry.joins scope && (entry.findsFree scope == installed))
  retirements : ∀ scope reason,
    story.registry.ledger.retirements.get (byRetirement scope reason) =
      .ofNat (gone.countP fun retirement =>
        retirement.handle.scope = scope ∧ retirement.reason = reason)
  releases : ∀ scope, story.registry.ledger.releases.get (byScope scope) =
    .ofNat (story.outside.countP (·.givesBack scope))
  violations : ∀ scope, story.registry.ledger.contractViolations.get (byScope scope) =
    .ofNat (story.outside.countP fun entry => entry.isRefused scope || entry.overdraws scope)
  /-- The gauge goes down when a retirement is over, so handles that are due still count. -/
  live : ∀ labels, story.registry.ledger.liveHandlers.get labels =
    .ofInt (Registry.population story.registry.handlers.values labels +
      Registry.population (due.map (·.handle)) labels)

/-- One more event that is counted, or not. -/
theorem ofNat_countP_concat (event : Entry μ → Bool) (entries : List (Entry μ)) (last : Entry μ) :
    UInt64.ofNat ((entries ++ [last]).countP event) =
      UInt64.ofNat (entries.countP event) + if event last then 1 else 0 := by
  rw [List.countP_append, List.countP_singleton, UInt64.ofNat_add]
  cases event last <;> rfl

/-- An event that does not count leaves the number as it was. -/
theorem countP_concat_of_silent {event : Entry μ → Bool} (entries : List (Entry μ))
    {last : Entry μ} (silent : event last = false) :
    (entries ++ [last]).countP event = entries.countP event := by
  rw [List.countP_append, List.countP_singleton, silent]
  rfl

namespace Balanced

variable {gone due : List (Retirement μ)} {story : Story μ}

/-- The ledger of a new registry is empty, and so is its chronicle. -/
theorem start (policy : ReleasePolicy) : Balanced [] [] (⟨.empty policy, []⟩ : Story μ) where
  sound := .empty policy
  conserved := by simp [accepted, Registry.empty]
  registrations _ _ := Counter.get_empty _
  retirements _ _ := Counter.get_empty _
  releases _ := Counter.get_empty _
  violations _ := Counter.get_empty _
  live _ := by simp [Registry.empty, Ledger.empty, Registry.population]

/-- A call is entered as it is counted, as long as there is room. -/
theorem call (balanced : Balanced gone due story) (call : Call μ)
    (room : story.registry.HasRoom [call]) :
    Balanced gone ((story.registry.step call).retired ++ due) (afterCall story call) := by
  have conserved := story.registry.handlers_step_perm call
  have ledger : (afterCall story call).registry.ledger =
      story.registry.entry call story.registry.ledger := story.registry.ledger_step call
  have outside : (afterCall story call).outside =
      story.outside ++ [.called story.registry call] := rfl
  refine ⟨balanced.sound.step call room, ?_, ?_, ?_, ?_, ?_, ?_⟩
  · -- Those already there and the new one are turned into those that stay and those that leave.
    rw [outside, accepted_concat_called, List.map_append, List.append_assoc, ← List.append_assoc]
    refine List.perm_append_comm.trans ((balanced.conserved.append_left _).trans ?_)
    rw [← List.append_assoc]
    exact conserved.append_right _
  · intro scope installed
    rw [ledger, outside, ofNat_countP_concat, get_registrations_entry,
      balanced.registrations scope installed]
  · -- Retirements are entered when handles are released, and not by the call.
    intro scope reason
    have same : (story.registry.entry call story.registry.ledger).retirements =
        story.registry.ledger.retirements := by
      cases call <;> simp only [Registry.entry] <;> first | rfl | (split <;> rfl)
    rw [ledger, same]
    exact balanced.retirements scope reason
  · intro scope
    rw [ledger, outside, ofNat_countP_concat, get_releases_entry _ _ _ _ balanced.sound,
      balanced.releases scope]
  · intro scope
    rw [ledger, outside, ofNat_countP_concat, get_contractViolations_entry _ _ _ _ balanced.sound,
      balanced.violations scope]
  · -- Whoever leaves is due now, so the gauge moves only if a handle came in.
    intro labels
    have moved := conserved.countP_eq fun handle => decide (byScope handle.scope = labels)
    rw [List.countP_append, List.countP_append] at moved
    change (story.registry.step call).registry.ledger.liveHandlers.get labels = .ofInt
      (Registry.population (story.registry.step call).registry.handlers.values labels + _)
    rw [Registry.get_liveHandlers_step, balanced.live, ← Int64.ofInt_add, List.map_append]
    congr 1
    unfold Registry.population
    unfold Registry.removed at moved
    rw [List.countP_append]
    omega

/-- The first handle that is due is released, and its retirement is over. -/
theorem release {retirement : Retirement μ} (balanced : Balanced gone (retirement :: due) story) :
    Balanced (retirement :: gone) due (afterRelease story retirement) := by
  have outside : (afterRelease story retirement).outside =
      story.outside ++ [.released retirement.handle.middleware] := rfl
  refine ⟨balanced.sound.note (·.noteRetirement retirement.handle.scope retirement.reason),
    ?_, ?_, ?_, ?_, ?_, ?_⟩
  · rw [outside, accepted_concat_of_eq_none _ rfl]
    exact balanced.conserved.trans (List.Perm.append_left _ List.perm_middle.symm)
  · intro scope installed
    rw [outside, countP_concat_of_silent _ rfl]
    exact balanced.registrations scope installed
  · intro scope reason
    have counted : byRetirement scope reason =
        byRetirement retirement.handle.scope retirement.reason ↔
          retirement.handle.scope = scope ∧ retirement.reason = reason := by
      rw [byRetirement_inj, eq_comm, @eq_comm _ reason]
    rw [List.countP_cons, UInt64.ofNat_add, ← balanced.retirements scope reason]
    refine (Counter.get_increment story.registry.ledger.retirements counted).trans ?_
    by_cases same : retirement.handle.scope = scope ∧ retirement.reason = reason <;> simp [same]
  · intro scope
    rw [outside, countP_concat_of_silent _ rfl]
    exact balanced.releases scope
  · intro scope
    rw [outside, countP_concat_of_silent _ rfl]
    exact balanced.violations scope
  · intro labels
    -- The handle was still counted while it was due, and now the gauge goes down by one.
    have moved := story.registry.get_liveHandlers_finished [retirement] labels
    change (story.registry.finished [retirement]).ledger.liveHandlers.get labels = _
    rw [moved, balanced.live, ← Int64.ofInt_add]
    congr 1
    unfold Registry.population
    rw [List.map_cons, List.countP_cons, List.map_singleton, List.countP_singleton]
    show _ = (story.registry.handlers.values.countP _ : Int) + _
    split <;> omega

/-- An entry that is no call counts for nothing. -/
theorem handle (balanced : Balanced gone due story) (middleware : μ) :
    Balanced gone due (write (.handled middleware) story) := by
  have outside : (write (Entry.handled middleware) story).outside =
      story.outside ++ [.handled middleware] := rfl
  refine ⟨balanced.sound, ?_, ?_, balanced.retirements, ?_, ?_, balanced.live⟩
  · rw [outside, accepted_concat_of_eq_none _ rfl]
    exact balanced.conserved
  · intro scope installed
    rw [outside, countP_concat_of_silent _ rfl]
    exact balanced.registrations scope installed
  · intro scope
    rw [outside, countP_concat_of_silent _ rfl]
    exact balanced.releases scope
  · intro scope
    rw [outside, countP_concat_of_silent _ rfl]
    exact balanced.violations scope

/-- A dispatch has a counter of its own. -/
theorem dispatched (balanced : Balanced gone due story) (outcome : Outcome) :
    Balanced gone due (story.mapRegistry fun registry => registry.note (·.noteDispatch outcome)) :=
  ⟨balanced.sound.note (·.noteDispatch outcome), balanced.conserved, balanced.registrations,
    balanced.retirements, balanced.releases, balanced.violations, balanced.live⟩

/-- The balance does not depend on who comes first of those that are due. -/
theorem reorder {due' : List (Retirement μ)} (same : due.Perm due')
    (balanced : Balanced gone due story) : Balanced gone due' story where
  sound := balanced.sound
  conserved := by
    have arranged := ((same.map (·.handle)).append_right (gone.map (·.handle))).append_left
      story.registry.handlers.values
    exact balanced.conserved.trans arranged
  registrations := balanced.registrations
  retirements := balanced.retirements
  releases := balanced.releases
  violations := balanced.violations
  live labels := by
    have counted : Registry.population (due'.map (·.handle)) labels =
        Registry.population (due.map (·.handle)) labels := by
      unfold Registry.population
      exact ((same.map (·.handle)).countP_eq _).symm
    rw [counted]
    exact balanced.live labels

/-- Every event keeps the balance, as long as there is room. -/
theorem stepwise :
    Stepwise fun due (story : Story μ) =>
      Roomy story.outside → ∃ gone, Balanced gone due story where
  reorder same h roomy := (h roomy).imp fun _ balanced => balanced.reorder same
  call call h roomy := (h roomy.earlier).imp fun _ balanced => balanced.call call roomy.last
  release retirement h roomy := by
    obtain ⟨gone, balanced⟩ := h roomy.earlier
    exact ⟨retirement :: gone, balanced.release⟩
  handle _ handle _ h roomy :=
    (h roomy.earlier).imp fun _ balanced => balanced.handle handle.middleware
  note outcome h roomy := (h roomy).imp fun _ balanced => balanced.dispatched outcome

end Balanced

/-! ### Adding up -/

/-- The handlers of a scope are one or none. -/
theorem population_values {registry : Registry μ} (sound : registry.Sound) (scope : Scope) :
    Registry.population registry.handlers.values (byScope scope) =
      if registry.isRegistered scope then 1 else 0 := by
  -- A handler is bound to the slot in which it is, so scopes are counted by their slots.
  have bound_here : scope ∈ registry.handlers.values.map (·.scope) ↔
      registry.isRegistered scope = true := by
    rw [Registry.isRegistered, Registry.contains_handlers, Option.isSome_iff_exists, List.mem_map]
    constructor
    · rintro ⟨handle, member, rfl⟩
      obtain ⟨slot, found⟩ := (registry.mem_values_iff handle).mp member
      exact ⟨handle, sound.bound slot handle found ▸ found⟩
    · rintro ⟨handle, found⟩
      exact ⟨handle, (registry.mem_values_iff handle).mpr ⟨scope, found⟩,
        sound.bound scope handle found⟩
  have once := sound.nodup_scopes.count (a := scope)
  rw [List.count, List.countP_map] at once
  simp only [← bound_here]
  rw [← once]
  refine List.countP_congr fun handle _ => ?_
  simp [byScope_inj]

/-- The handles that were accepted for a scope are those that were passed while it was free. -/
theorem countP_accepted (entries : List (Entry μ)) (scope : Scope) :
    (accepted entries).countP (fun handle => decide (handle.scope = scope)) =
      entries.countP fun entry => entry.joins scope && (entry.findsFree scope == true) := by
  rw [accepted, List.countP_filterMap]
  refine List.countP_congr fun entry _ => ?_
  cases entry with
  | called found call =>
    have admitted (target : Scope) (handle : Handle μ) :
        ((if found.Admits target handle then some handle else none).map
          fun handle => decide (handle.scope = scope)).getD false = true ↔
        (decide (target = scope) && decide (handle.scope = scope) &&
          ((found.handler? scope).isNone == true)) = true := by
      simp only [Bool.and_eq_true, decide_eq_true_eq, beq_iff_eq, Option.isNone_iff_eq_none]
      -- A handle is admitted if it is bound to the target and the target is free.
      by_cases admits : found.Admits target handle
      · rw [if_pos admits, Option.map_some, Option.getD_some, decide_eq_true_eq]
        obtain ⟨rfl, free⟩ := admits
        exact ⟨fun here => ⟨⟨here, here⟩, here ▸ free⟩, fun all => all.1.1⟩
      · rw [if_neg admits, Option.map_none, Option.getD_none]
        refine iff_of_false Bool.false_ne_true ?_
        rintro ⟨⟨rfl, bound⟩, free⟩
        exact admits ⟨bound, free⟩
    show ((found.accepted? call).map _).getD false = true ↔ _
    cases call with
    | register target domain handle =>
      rw [found.accepted?_register]
      exact admitted target handle
    | install target handle =>
      rw [found.accepted?_install]
      exact admitted target handle
    | release | retire | releaseDomain | releaseAll | isRegistered | referenceCount | domainCount
      | scopes | isEmpty | policy =>
      rw [found.accepted?_of_handle?_eq_none rfl]
      simp [Entry.joins]
  | _ => simp [Entry.accepted?, Entry.joins]

/-- Events of either kind are counted once if none is of both. -/
theorem countP_or {event other : Entry μ → Bool} (apart : ∀ entry, event entry → ¬other entry)
    (entries : List (Entry μ)) :
    entries.countP (fun entry => event entry || other entry) =
      entries.countP event + entries.countP other := by
  induction entries with
  | nil => rfl
  | cons entry rest ih =>
    have never := apart entry
    revert never
    simp only [List.countP_cons, ih]
    cases event entry <;> cases other entry <;> simp <;> omega

/-- There are no more events of a kind than calls, if all of them are calls. -/
theorem countP_le_of_isCall {event : Entry μ → Bool} (calls : ∀ entry, event entry → entry.isCall)
    (entries : List (Entry μ)) : entries.countP event ≤ entries.countP Entry.isCall :=
  List.countP_mono_left fun entry _ => calls entry

/-- Events that are calls are counted exactly as long as there are few calls. -/
theorem toNat_ofNat_countP {event : Entry μ → Bool} {entries : List (Entry μ)}
    (calls : ∀ entry, event entry → entry.isCall) (few : entries.countP Entry.isCall < 2 ^ 63) :
    (UInt64.ofNat (entries.countP event)).toNat = entries.countP event := by
  have fewer := countP_le_of_isCall calls entries
  refine UInt64.toNat_ofNat_of_lt ?_
  show _ < 2 ^ 64
  omega

/-- A handle that joins finds its scope free or not. -/
theorem countP_joins (entries : List (Entry μ)) (scope : Scope) :
    entries.countP (fun entry => entry.joins scope && (entry.findsFree scope == true)) +
        entries.countP (fun entry => entry.joins scope && (entry.findsFree scope == false)) =
      entries.countP (·.joins scope) := by
  rw [← countP_or fun entry => by cases entry.findsFree scope <;> simp]
  refine List.countP_congr fun entry _ => ?_
  cases entry.findsFree scope <;> simp

/-- Retirements are for one of two reasons. -/
theorem countP_reason (gone : List (Retirement μ)) (scope : Scope) :
    gone.countP (fun retirement =>
        retirement.handle.scope = scope ∧ retirement.reason = .lastReference) +
      gone.countP (fun retirement =>
        retirement.handle.scope = scope ∧ retirement.reason = .forced) =
      (gone.map (·.handle)).countP fun handle => decide (handle.scope = scope) := by
  induction gone with
  | nil => rfl
  | cons retirement rest ih =>
    simp only [List.map_cons, List.countP_cons, ← ih]
    cases retirement.reason <;> simp <;> omega

/-- The ledger balances after every run of fewer than `2 ^ 63` calls. The first part of a run is a
run too, so it balances whenever a deed of the run is over.

The gauge of a scope says whether the scope has a handler. What was installed on it is live or was
retired, for one reason or the other. Registrations of both outcomes are the handles that were not
refused, and violations are the handles that were, and the releases without a reference. -/
theorem ledger_balances (script : Script μ) (depth : Nat) (policy : ReleasePolicy)
    (deeds : List (Deed μ)) (roomy : Roomy (tell script depth policy deeds).outside)
    (few : (tell script depth policy deeds).outside.countP Entry.isCall < 2 ^ 63)
    (scope : Scope) :
    let story := tell script depth policy deeds
    let ledger := story.registry.ledger
    let live := ledger.liveHandlers.get (byScope scope)
    let registrations := fun installed => ledger.registrations.get (byRegistration scope installed)
    let retirements := fun reason => ledger.retirements.get (byRetirement scope reason)
    live.toInt = (if story.registry.isRegistered scope then 1 else 0) ∧
      ((registrations true).toNat : Int) =
        live.toInt + (retirements .lastReference).toNat + (retirements .forced).toNat ∧
      (registrations true).toNat + (registrations false).toNat =
        story.outside.countP (·.joins scope) ∧
      (ledger.releases.get (byScope scope)).toNat = story.outside.countP (·.givesBack scope) ∧
      (ledger.contractViolations.get (byScope scope)).toNat =
        story.outside.countP (·.isRefused scope) + story.outside.countP (·.overdraws scope) := by
  intro story ledger live registrations retirements
  obtain ⟨gone, balanced⟩ : ∃ gone, Balanced gone [] story :=
    Balanced.stepwise.holds script depth policy (fun _ => ⟨[], .start policy⟩) deeds roomy
  have joined : ∀ installed, (registrations installed).toNat = story.outside.countP fun entry =>
      entry.joins scope && (entry.findsFree scope == installed) := by
    intro installed
    show (ledger.registrations.get _).toNat = _
    rw [balanced.registrations scope installed]
    refine toNat_ofNat_countP (fun entry => ?_) few
    cases entry <;> simp [Entry.joins, Entry.isCall]
  -- Nothing is due any more, so what was installed is live or gone.
  have conserved := balanced.conserved.countP_eq fun handle => decide (handle.scope = scope)
  rw [countP_accepted, List.countP_append, List.map_nil, List.nil_append, ← countP_reason]
    at conserved
  have one_or_none := population_values balanced.sound scope
  have few_installed : story.outside.countP (fun entry =>
      entry.joins scope && (entry.findsFree scope == true)) < 2 ^ 63 := by
    refine Nat.lt_of_le_of_lt (countP_le_of_isCall (fun entry => ?_) _) few
    cases entry <;> simp [Entry.joins, Entry.isCall]
  have retired : ∀ reason, (retirements reason).toNat = gone.countP fun retirement =>
      retirement.handle.scope = scope ∧ retirement.reason = reason := by
    intro reason
    show (ledger.retirements.get _).toNat = _
    rw [balanced.retirements scope reason]
    refine UInt64.toNat_ofNat_of_lt ?_
    show _ < 2 ^ 64
    cases reason <;> omega
  have same_population : story.registry.handlers.values.countP (fun handle =>
      decide (handle.scope = scope)) = if story.registry.isRegistered scope then 1 else 0 := by
    rw [← one_or_none]
    refine List.countP_congr fun handle _ => ?_
    simp [byScope_inj]
  have alive : live.toInt = if story.registry.isRegistered scope then 1 else 0 := by
    show (ledger.liveHandlers.get _).toInt = _
    rw [balanced.live, one_or_none]
    split <;> rfl
  refine ⟨alive, ?_, ?_, ?_, ?_⟩
  · rw [joined, retired, retired, alive, conserved, same_population]
    split <;> push_cast <;> omega
  · rw [joined, joined, countP_joins]
  · rw [balanced.releases scope]
    refine toNat_ofNat_countP (fun entry => ?_) few
    cases entry <;> simp [Entry.givesBack, Entry.isCall]
  · rw [balanced.violations scope, toNat_ofNat_countP (fun entry => ?_) few, countP_or]
    · intro entry
      cases entry with
      | called found call => cases call <;> simp [Entry.isRefused, Entry.overdraws]
      | _ => simp [Entry.isRefused]
    · cases entry <;> simp [Entry.isRefused, Entry.overdraws, Entry.isCall]

/-- A guest takes the wallet. A handle for the ledger is refused there, and a host gives back what
it does not hold. When the guest leaves, its handle installs another one. -/
def overdrawn : Story Nat :=
  tell installsSuccessor 1 .lenient
    [.call (.register ⟨Scope.wallet⟩ ⟨"guest"⟩ ⟨⟨Scope.wallet⟩, 0⟩),
     .call (.register ⟨Scope.wallet⟩ ⟨"guest"⟩ ⟨⟨"ledger"⟩, 2⟩),
     .call (.release ⟨Scope.wallet⟩ ⟨"host"⟩),
     .call (.releaseDomain ⟨"guest"⟩)]

/-- A refused handle and a reference that was not held are violations, and the successor is
alive. -/
theorem balance_of_refused_and_overdrawn :
    Roomy overdrawn.outside ∧ overdrawn.outside.countP Entry.isCall < 2 ^ 63 ∧
      let ledger := overdrawn.registry.ledger
      (ledger.liveHandlers.get (byScope ⟨Scope.wallet⟩)).toInt = 1 ∧
      (ledger.registrations.get (byRegistration ⟨Scope.wallet⟩ true)).toNat +
        (ledger.registrations.get (byRegistration ⟨Scope.wallet⟩ false)).toNat = 2 ∧
      (ledger.contractViolations.get (byScope ⟨Scope.wallet⟩)).toNat = 2 := by
  have roomy : Roomy overdrawn.outside := roomy_of_length_lt _ _ _ _ (by decide +kernel)
  have few : overdrawn.outside.countP Entry.isCall < 2 ^ 63 := by decide +kernel
  obtain ⟨live, -, joined, -, violations⟩ :=
    ledger_balances installsSuccessor 1 .lenient _ roomy few ⟨Scope.wallet⟩
  have successor : overdrawn.registry.isRegistered ⟨Scope.wallet⟩ = true := by decide +kernel
  have two_joined : overdrawn.outside.countP (·.joins ⟨Scope.wallet⟩) = 2 := by decide +kernel
  have one_refused : overdrawn.outside.countP (·.isRefused ⟨Scope.wallet⟩) = 1 := by decide +kernel
  have one_overdraws : overdrawn.outside.countP (·.overdraws ⟨Scope.wallet⟩) = 1 := by
    decide +kernel
  refine ⟨roomy, few, live.trans (if_pos successor), joined.trans two_joined,
    violations.trans ?_⟩
  exact congrArg₂ (· + ·) one_refused one_overdraws

end Chronicle

end Switchboard
