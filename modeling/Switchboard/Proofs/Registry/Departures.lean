import Switchboard.Proofs.Registry.Commute
import Switchboard.Proofs.Registry.Hold

/-!
# `Switchboard.Proofs.Registry.Departures`: calls that only take away

Calls that pass no handle can only make handlers leave. `Registry.departures` lists those that leave
by calls in a row, and what is known of one call is known of all of them: nobody is lost
(`handlers_after_perm`), whoever stays was there before (`handler?_of_after`), and a handler has
left exactly if its slot is free afterwards (`Sound.mem_departures_iff`).

In a run the middlewares that leave are released. As long as they have nothing to do then
(`Script.InertIn`), the run is that of its calls one after another (`run_calls_of_quiet`), and
references are given back without further ado (`giveBack_of_quiet`).
-/

set_option autoImplicit false

namespace Switchboard

variable {μ : Type}

namespace Registry

/-- The handles that leave by calls in a row, and why. -/
def departures (registry : Registry μ) : List (Call μ) → List (Retirement μ)
  | [] => []
  | call :: rest =>
    (registry.step call).retired ++ (registry.step call).registry.departures rest

/-- By one call those leave whom it retires. -/
theorem departures_singleton (registry : Registry μ) (call : Call μ) :
    registry.departures [call] = (registry.step call).retired :=
  List.append_nil _

/-- Who leaves does not depend on the retirements in the ledger. -/
theorem departures_finished (registry : Registry μ) (retired : List (Retirement μ))
    (calls : List (Call μ)) :
    (registry.finished retired).departures calls = registry.departures calls := by
  induction calls generalizing registry with
  | nil => rfl
  | cons call rest ih => rw [departures, departures, step_finished, ih]

/-- The calls of a row make their own entries first, and the retirements can be entered at the
end. -/
theorem registry_flat (registry : Registry μ) (calls : List (Call μ)) :
    (registry.flat calls).2 = (registry.after calls).finished (registry.departures calls) := by
  induction calls generalizing registry with
  | nil => rfl
  | cons call rest ih =>
    -- Nothing that a call does depends on the ledger, so the retirements of the first call can wait
    -- until the later calls have been made.
    calc (registry.flat (call :: rest)).2
      _ = (((registry.step call).registry.flat rest).2).finished (registry.step call).retired := by
        rw [flat_cons, flat_finished]
        rfl
      _ = ((registry.after (call :: rest)).finished
            ((registry.step call).registry.departures rest)).finished
              (registry.step call).retired := by
        rw [ih]
        rfl
      _ = (registry.after (call :: rest)).finished (registry.departures (call :: rest)) := by
        rw [← finished_append]
        exact finished_perm _ List.perm_append_comm

/-- Calls change no policy. -/
theorem policy_after (registry : Registry μ) (calls : List (Call μ)) :
    (registry.after calls).policy = registry.policy := by
  induction calls generalizing registry with
  | nil => rfl
  | cons call rest ih => rw [after_cons, ih, policy_step]

/-- The first answer does not depend on the retirements that it brings about. -/
theorem answers_flat_cons (registry : Registry μ) (call : Call μ) (rest : List (Call μ)) :
    (registry.flat (call :: rest)).1 =
      (registry.step call).answer :: ((registry.step call).registry.flat rest).1 := by
  rw [flat_cons, flat_finished]
  rfl

/-! ### Who leaves -/

/-- A single call passes no handle if it does not pass one itself. -/
theorem passes_none_of_singleton {call : Call μ} (passes_none : call.handle? = none) :
    ∀ other ∈ [call], other.handle? = none :=
  fun _ member => List.mem_singleton.mp member ▸ passes_none

section PassesNone

variable {registry : Registry μ} {calls : List (Call μ)}
  (passes_none : ∀ call ∈ calls, call.handle? = none)

include passes_none

/-- The handlers that were there are those that stay and those that leave. -/
theorem handlers_after_perm :
    registry.handlers.values.Perm ((registry.after calls).handlers.values ++
      (registry.departures calls).map (·.handle)) := by
  induction calls generalizing registry with
  | nil => simp [departures]
  | cons call rest ih =>
    have first := registry.handlers_step_perm call
    rw [accepted?_of_handle?_eq_none _ (passes_none call List.mem_cons_self), Option.toList_none,
      List.nil_append] at first
    have later := @ih (registry.step call).registry fun other member =>
      passes_none other (List.mem_cons_of_mem _ member)
    refine first.trans ((later.append_right _).trans ?_)
    rw [List.append_assoc, departures, List.map_append]
    exact List.perm_append_comm.append_left _

/-- Whoever is in a slot afterwards was there before. -/
theorem handler?_of_after {scope : Scope} {handle : Handle μ}
    (occupied : (registry.after calls).handler? scope = some handle) :
    registry.handler? scope = some handle := by
  induction calls generalizing registry with
  | nil => exact occupied
  | cons call rest ih =>
    have before := ih (fun other member => passes_none other (List.mem_cons_of_mem _ member))
      occupied
    rcases handler?_step before with there | passes
    · exact there
    · rw [passes_none call List.mem_cons_self] at passes
      exact absurd passes (by simp)

/-- A handle that leaves was in a slot. -/
theorem exists_slot_of_mem_departures {retirement : Retirement μ}
    (leaves : retirement ∈ registry.departures calls) :
    ∃ scope, registry.handler? scope = some retirement.handle := by
  rw [← mem_values_iff, (handlers_after_perm passes_none).mem_iff]
  exact List.mem_append_right _ (List.mem_map_of_mem leaves)

/-- A handler has left if its slot is free afterwards. -/
theorem Sound.mem_departures_iff (sound : registry.Sound) {scope : Scope} {handle : Handle μ}
    (occupied : registry.handler? scope = some handle) :
    handle ∈ (registry.departures calls).map (·.handle) ↔
      (registry.after calls).handler? scope = none := by
  have conserved : registry.handlers.values.Perm _ := handlers_after_perm passes_none
  constructor
  · -- Whoever is in the slot afterwards serves the same scope, and one handler cannot stay and
    -- leave at once.
    intro leaves
    by_contra still
    obtain ⟨other, found⟩ := Option.ne_none_iff_exists'.mp still
    obtain rfl : handle = other :=
      Option.some.inj (occupied.symm.trans (handler?_of_after passes_none found))
    have apart := (conserved.map (·.scope)).nodup_iff.mp sound.nodup_scopes
    rw [List.map_append, List.nodup_append'] at apart
    exact apart.2.2 (List.mem_map_of_mem (((registry.after calls).mem_values_iff handle).mpr
      ⟨scope, found⟩)) (List.mem_map_of_mem leaves)
  · intro free
    have there := conserved.mem_iff.mp ((registry.mem_values_iff handle).mpr ⟨scope, occupied⟩)
    refine (List.mem_append.mp there).resolve_left fun stays => ?_
    obtain ⟨slot, found⟩ := (Registry.mem_values_iff _ handle).mp stays
    have before := handler?_of_after passes_none found
    obtain rfl : slot = scope :=
      (sound.bound slot handle before).symm.trans (sound.bound scope handle occupied)
    rw [free] at found
    exact absurd found (by simp)

/-- A handler that has not left is still in its slot. -/
theorem Sound.handler?_after_of_notMem (sound : registry.Sound) {scope : Scope} {handle : Handle μ}
    (occupied : registry.handler? scope = some handle)
    (stays : handle ∉ (registry.departures calls).map (·.handle)) :
    (registry.after calls).handler? scope = some handle := by
  rw [sound.mem_departures_iff passes_none occupied] at stays
  obtain ⟨other, found⟩ := Option.ne_none_iff_exists'.mp stays
  obtain rfl : handle = other :=
    Option.some.inj (occupied.symm.trans (handler?_of_after passes_none found))
  exact found

end PassesNone

/-- If the same handlers stay, the same ones leave. -/
theorem departures_perm {registry : Registry μ} {calls others : List (Call μ)}
    (passes_none : ∀ call ∈ calls, call.handle? = none)
    (passes_none' : ∀ call ∈ others, call.handle? = none)
    (same : (registry.after calls).handlers = (registry.after others).handlers) :
    ((registry.departures calls).map (·.handle)).Perm
      ((registry.departures others).map (·.handle)) := by
  have conserved := (handlers_after_perm passes_none).symm.trans
    (show registry.handlers.values.Perm _ from handlers_after_perm passes_none')
  rw [same] at conserved
  exact (List.perm_append_left_iff _).mp conserved

/-- If two registries have come from the same one by calls that only take away, and references and
pins are the same, then so are the handlers. -/
theorem handlers_eq_of_counts_eq {origin registry other : Registry μ} (sound : registry.Sound)
    (sound' : other.Sound)
    (from_origin : ∀ scope handle, registry.handler? scope = some handle →
      origin.handler? scope = some handle)
    (from_origin' : ∀ scope handle, other.handler? scope = some handle →
      origin.handler? scope = some handle)
    (counts : registry.counts = other.counts) (pinned : registry.pinned = other.pinned) :
    registry.handlers = other.handlers := by
  apply Std.ExtTreeMap.ext_getElem?
  intro scope
  show registry.handler? scope = other.handler? scope
  -- A slot is taken exactly as long as there is a reference or a pin on its scope.
  have both : (registry.handler? scope).isSome ↔ (other.handler? scope).isSome := by
    rw [sound.occupied, sound'.occupied, counts, pinned]
  cases here : registry.handler? scope with
  | none =>
    rw [here] at both
    cases there : other.handler? scope with
    | none => rfl
    | some handle => simp [there] at both
  | some handle =>
    rw [here] at both
    obtain ⟨occupant, there⟩ := Option.isSome_iff_exists.mp (both.mp rfl)
    rw [there]
    exact (from_origin scope handle here).symm.trans (from_origin' scope occupant there)

/-- If every call lets handlers go for one reason, so do all of them in a row. -/
theorem reason_of_mem_departures {calls : List (Call μ)} {reason : Metrics.Reason}
    (one_reason : ∀ call ∈ calls, ∀ registry : Registry μ,
      ∀ retirement ∈ (registry.step call).retired, retirement.reason = reason)
    (registry : Registry μ) :
    ∀ retirement ∈ registry.departures calls, retirement.reason = reason := by
  induction calls generalizing registry with
  | nil => exact fun _ absurdity => absurd absurdity List.not_mem_nil
  | cons call rest ih =>
    intro retirement leaves
    rcases List.mem_append.mp leaves with now | later
    · exact one_reason call List.mem_cons_self registry retirement now
    · exact ih (fun other member => one_reason other (List.mem_cons_of_mem _ member)) _
        retirement later

/-- Those who leave for one reason are known by their handles. -/
theorem perm_of_reason {retired retired' : List (Retirement μ)} {reason : Metrics.Reason}
    (for_reason : ∀ retirement ∈ retired, retirement.reason = reason)
    (for_reason' : ∀ retirement ∈ retired', retirement.reason = reason)
    (handles : (retired.map (·.handle)).Perm (retired'.map (·.handle))) :
    retired.Perm retired' := by
  have with_reason {list : List (Retirement μ)}
      (all : ∀ retirement ∈ list, retirement.reason = reason) :
      (list.map (·.handle)).map (⟨·, reason⟩) = list := by
    rw [List.map_map]
    refine (List.map_congr_left fun retirement member => ?_).trans (List.map_id list)
    show Retirement.mk retirement.handle reason = retirement
    rw [← all retirement member]
  have both := handles.map (Retirement.mk · reason)
  rwa [with_reason for_reason, with_reason for_reason'] at both

/-! ### Releases in a row -/

/-- The releases of one domain on scopes, one after another. -/
def releases (domain : Domain) (scopes : List Scope) : List (Call μ) :=
  scopes.map fun scope => .release scope domain

/-- Releases pass no handles. -/
theorem passes_none_of_releases (domain : Domain) (scopes : List Scope) (call : Call μ)
    (member : call ∈ releases domain scopes) : call.handle? = none := by
  obtain ⟨scope, -, rfl⟩ := List.mem_map.mp member
  rfl

section Releases

variable {registry : Registry μ} (domain : Domain) (scopes : List Scope)

/-- A registry stays sound through releases. -/
theorem Sound.after_releases (sound : registry.Sound) :
    (registry.after (releases domain scopes)).Sound := by
  induction scopes generalizing registry with
  | nil => exact sound
  | cons scope rest ih => exact ih (sound.release scope domain)

/-- Releases change no pin. -/
theorem pinned_after_releases :
    (registry.after (releases domain scopes)).pinned = registry.pinned := by
  induction scopes generalizing registry with
  | nil => rfl
  | cons scope rest ih => exact ih.trans (pinned_release registry scope domain)

/-- One release takes one reference away, if there is any. -/
theorem Sound.toNat_domainCount_release (sound : registry.Sound) (scope other : Scope)
    (holder : Domain) :
    ((registry.release scope domain).registry.domainCount other holder).toNat =
      (registry.domainCount other holder).toNat -
        if other = scope ∧ holder = domain then 1 else 0 := by
  have counted := Chronicle.toNat_domainCount_release sound scope domain other holder
  by_cases here : other = scope ∧ holder = domain
  · rw [if_pos here]
    obtain ⟨rfl, rfl⟩ := here
    -- Where nothing is held nothing is dropped, and the difference stays at zero.
    by_cases none_held : registry.domainCount other holder = 0
    · rw [none_held, UInt32.toNat_zero] at counted ⊢
      omega
    · rw [if_pos ((Chronicle.drops_release_iff registry other holder).mpr none_held)] at counted
      omega
  · have not_dropped :
        ¬(Chronicle.Entry.called registry (.release scope domain)).drops other holder := by
      intro dropped
      simp only [Chronicle.Entry.drops, Bool.and_eq_true, decide_eq_true_eq] at dropped
      exact here ⟨dropped.1.1.symm, dropped.1.2.symm⟩
    rw [if_neg not_dropped] at counted
    rw [if_neg here, Nat.sub_zero]
    exact counted

/-- Releases take away one reference each, as long as there are any. -/
theorem Sound.toNat_domainCount_after_releases (sound : registry.Sound) (other : Scope)
    (holder : Domain) :
    ((registry.after (releases domain scopes)).domainCount other holder).toNat =
      (registry.domainCount other holder).toNat -
        if holder = domain then scopes.count other else 0 := by
  induction scopes generalizing registry with
  | nil => simp [releases]
  | cons scope rest ih =>
    have first := sound.toNat_domainCount_release domain scope other holder
    refine (ih (sound.release scope domain)).trans ?_
    rw [first, List.count_cons]
    by_cases same : holder = domain
    · by_cases here : scope = other
      · subst here
        simp [same]
        omega
      · simp [same, here, Ne.symm here]
    · simp [same]

end Releases

end Registry

namespace Chronicle

/-- Since a story the middlewares of these handles were released, once each and in some order. -/
def LetGo (story : Story μ) (gone : List (Handle μ)) (after : Story μ) : Prop :=
  ∃ order : List (Handle μ), order.Perm gone ∧
    released after.outside = released story.outside ++ order.map (·.middleware)

/-! ### Middlewares that have nothing to do -/

/-- The handlers of a registry have nothing to do when they are released. -/
def Script.InertIn (script : Script μ) (registry : Registry μ) : Prop :=
  ∀ scope handle, registry.handler? scope = some handle →
    ∀ entries, script.onRelease handle.middleware entries = []

/-- The answer of a call that is entered. -/
def Entry.answer? : Entry μ → Option Answer
  | .called found call => some (found.step call).answer
  | _ => none

/-- The answers of the calls, in the order in which they began. -/
def answers (entries : List (Entry μ)) : List Answer := entries.filterMap Entry.answer?

/-- The answers of two stretches of a chronicle are those of both, one after another. -/
theorem answers_append (entries later : List (Entry μ)) :
    answers (entries ++ later) = answers entries ++ answers later :=
  List.filterMap_append

/-- What releases alone leave in a chronicle. -/
theorem released_map_released (gone : List μ) :
    released (gone.map (.released ·) : List (Entry μ)) = gone := by
  induction gone with
  | nil => rfl
  | cons middleware rest ih => exact congrArg (middleware :: ·) ih

/-- Releases are no answers. -/
theorem answers_map_released (gone : List μ) :
    answers (gone.map (.released ·) : List (Entry μ)) = [] := by
  simp [answers, Entry.answer?]

/-- Whoever leaves was in the registry, and has nothing to do if nobody there has. -/
theorem Script.InertIn.departures {script : Script μ} {registry : Registry μ}
    (inert : script.InertIn registry) {calls : List (Call μ)}
    (passes_none : ∀ call ∈ calls, call.handle? = none) :
    ∀ retirement ∈ registry.departures calls, ∀ entries,
      script.onRelease retirement.handle.middleware entries = [] := by
  intro retirement leaves
  obtain ⟨scope, found⟩ := Registry.exists_slot_of_mem_departures passes_none leaves
  exact inert scope retirement.handle found

section Quiet

variable {script : Script μ} {story : Story μ} (depth : Nat)

/-- A call whose handles have nothing to do when they leave. They are released in some order. -/
theorem act_call_of_quiet {call : Call μ}
    (quiet : ∀ retirement ∈ (story.registry.step call).retired, ∀ entries,
      script.onRelease retirement.handle.middleware entries = []) :
    ∃ arranged : List (Retirement μ), arranged.Perm (story.registry.step call).retired ∧
      act (script.behaviour depth) story (.call call) =
        ⟨(story.registry.step call).registry.finished (story.registry.step call).retired,
          story.outside ++ .called story.registry call ::
            (arranged.map (·.handle.middleware)).map (.released ·)⟩ := by
  obtain ⟨arranged, same, settled⟩ := settle_inert depth quiet (afterCall story call)
  refine ⟨arranged, same, settled.trans ?_⟩
  rw [List.map_map, List.append_cons]
  rfl

/-- What a run of calls comes to that are made one after another. -/
structure Runs (calls : List (Call μ)) (story after : Story μ) : Prop where
  registry : after.registry = (story.registry.flat calls).2
  answers : answers after.outside = answers story.outside ++ (story.registry.flat calls).1
  released : LetGo story ((story.registry.departures calls).map (·.handle)) after

/-- A single call makes its own entry first, and then the retirements are entered. -/
theorem Runs.registry_of_singleton {call : Call μ} {after : Story μ}
    (runs : Runs [call] story after) :
    after.registry =
      (story.registry.step call).registry.finished (story.registry.step call).retired := by
  rw [runs.registry, Registry.registry_flat, Registry.departures_singleton]
  rfl

/-- Those who leave by the calls of a run are released. -/
theorem Runs.letGo {calls : List (Call μ)} {after : Story μ} (runs : Runs calls story after)
    {gone : List (Handle μ)}
    (leave : ((story.registry.departures calls).map (·.handle)).Perm gone) :
    LetGo story gone after := by
  obtain ⟨order, same, released⟩ := runs.released
  exact ⟨order, same.trans leave, released⟩

/-- A run of calls is that of the calls one after another, if those who leave have nothing to do. -/
theorem run_calls_of_quiet {calls : List (Call μ)}
    (quiet : ∀ retirement ∈ story.registry.departures calls, ∀ entries,
      script.onRelease retirement.handle.middleware entries = []) :
    Runs calls story (run (script.behaviour depth) story (calls.map .call)) := by
  induction calls generalizing story with
  | nil => exact ⟨rfl, (List.append_nil _).symm, [], .refl _, (List.append_nil _).symm⟩
  | cons call rest ih =>
    -- The run goes on in a registry that has entered the first retirements. Who leaves by the other
    -- calls is the same there.
    let next := act (script.behaviour depth) story (.call call)
    obtain ⟨arranged, same, made⟩ := act_call_of_quiet depth fun retirement leaves =>
      quiet retirement (List.mem_append_left _ leaves)
    change next = _ at made
    have later : Runs rest next (run (script.behaviour depth) next (rest.map .call)) := by
      apply ih
      intro retirement leaves
      rw [made, Registry.departures_finished] at leaves
      exact quiet retirement (List.mem_append_right _ leaves)
    refine ⟨?_, ?_, ?_⟩
    · refine later.registry.trans ?_
      rw [made, Registry.flat_cons]
      rfl
    · refine later.answers.trans ?_
      rw [made, answers_append, Registry.answers_flat_cons, Registry.flat_finished]
      show _ ++ ((story.registry.step call).answer :: answers (List.map _ _)) ++ _ = _
      rw [answers_map_released, List.append_assoc]
      rfl
    · obtain ⟨order, perm, released_later⟩ := later.released
      refine ⟨arranged.map (·.handle) ++ order, ?_, released_later.trans ?_⟩
      · rw [made, Registry.departures_finished] at perm
        rw [Registry.departures, List.map_append]
        exact (same.map _).append perm
      · rw [made, released_append, List.map_append, ← List.append_assoc]
        show _ ++ released ((arranged.map (·.handle.middleware)).map (.released ·)) ++ _ = _
        rw [released_map_released, List.map_map]
        rfl

/-- References are given back by releases one after another, if those who leave have nothing to
do. -/
theorem giveBack_of_quiet (domain : Domain) {scopes : List Scope}
    (quiet : ∀ retirement ∈ story.registry.departures (Registry.releases domain scopes),
      ∀ entries, script.onRelease retirement.handle.middleware entries = []) :
    ∃ gone : List (Retirement μ),
      gone.Perm (story.registry.departures (Registry.releases domain scopes)) ∧
      (script.pipeline depth).giveBack domain scopes story =
        ⟨(story.registry.flat (Registry.releases domain scopes)).2,
          story.outside ++ gone.map (.released ·.handle.middleware)⟩ := by
  induction scopes generalizing story with
  | nil => exact ⟨[], .refl _, congrArg (World.mk _) (List.append_nil _).symm⟩
  | cons scope rest ih =>
    let call : Call μ := .release scope domain
    let effect := story.registry.step call
    let next := (story.run (script.behaviour depth).release (·.release scope domain)).2
    obtain ⟨arranged, same, made⟩ := settle_inert depth
      (fun retirement leaves => quiet retirement (List.mem_append_left _ leaves))
      (⟨effect.registry, story.outside⟩ : Story μ)
    change next = _ at made
    -- Those who leave later are those of the registry without the first ones.
    obtain ⟨gone, perm, later⟩ := @ih next (by
      intro retirement leaves
      rw [made, Registry.departures_finished] at leaves
      exact quiet retirement (List.mem_append_right _ leaves))
    refine ⟨arranged ++ gone, ?_, later.trans ?_⟩
    · rw [made, Registry.departures_finished] at perm
      exact same.append perm
    · rw [made]
      simp only [Registry.releases, List.map_cons, Registry.flat_cons, List.map_append,
        List.append_assoc]
      rfl

end Quiet

end Chronicle

end Switchboard
