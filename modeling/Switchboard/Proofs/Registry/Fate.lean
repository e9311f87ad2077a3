import Switchboard.Proofs.Registry.Conservation
import Switchboard.Proofs.Registry.Reachable

/-!
# `Switchboard.Proofs.Registry.Fate`: what becomes of a handle

A handle that is passed to a registry is refused or accepted. `Accounted` carries the conservation
law of single calls through a run: whatever was accepted is in the registry, still to be released,
or released. When nothing is left to be released, each handle has one fate (`fate_of_handle`).

Handles are told apart by their middlewares, so a single handle can only be followed if its
middleware is passed once. No run is lost by that: middlewares are of any type, and a script, which
knows all that happened before, can pass a new one every time.
-/

set_option autoImplicit false

namespace Switchboard.Chronicle

variable {μ : Type}

namespace Entry

/-- The handle that is passed to the registry. -/
def passed? : Entry μ → Option (Handle μ)
  | .called _ call => call.handle?
  | _ => none

/-- The handle that the registry accepts. -/
def accepted? : Entry μ → Option (Handle μ)
  | .called found call => found.accepted? call
  | _ => none

/-- The middleware that is released. -/
def released? : Entry μ → Option μ
  | .released middleware => some middleware
  | _ => none

end Entry

/-- The handles that were passed to the registry. -/
def passed (entries : List (Entry μ)) : List (Handle μ) := entries.filterMap Entry.passed?

/-- The handles that the registry accepted. -/
def accepted (entries : List (Entry μ)) : List (Handle μ) := entries.filterMap Entry.accepted?

/-- The middlewares that were released. -/
def released (entries : List (Entry μ)) : List μ := entries.filterMap Entry.released?

/-- What is accepted in two stretches of a chronicle is accepted in one after the other. -/
theorem accepted_append (entries later : List (Entry μ)) :
    accepted (entries ++ later) = accepted entries ++ accepted later :=
  List.filterMap_append

/-- What is released in two stretches of a chronicle is released in one after the other. -/
theorem released_append (entries later : List (Entry μ)) :
    released (entries ++ later) = released entries ++ released later :=
  List.filterMap_append

/-- One more call accepts a handle or none. -/
theorem accepted_concat_called (entries : List (Entry μ)) (found : Registry μ) (call : Call μ) :
    accepted (entries ++ [.called found call]) =
      accepted entries ++ (found.accepted? call).toList := by
  rw [accepted_append]
  cases answered : found.accepted? call <;> simp [accepted, Entry.accepted?, answered]

/-- An entry that accepts nothing adds nothing to what was accepted. -/
theorem accepted_concat_of_eq_none (entries : List (Entry μ)) {entry : Entry μ}
    (none_accepted : entry.accepted? = none) :
    accepted (entries ++ [entry]) = accepted entries := by
  rw [accepted_append]
  simp [accepted, none_accepted]

/-- Only what is passed can be accepted. -/
theorem mem_passed_of_mem_accepted {entries : List (Entry μ)} {handle : Handle μ}
    (member : handle ∈ accepted entries) : handle ∈ passed entries := by
  obtain ⟨entry, listed, accepts⟩ := List.mem_filterMap.mp member
  refine List.mem_filterMap.mpr ⟨entry, listed, ?_⟩
  cases entry with
  | called found call => exact Registry.handle?_of_accepted? accepts
  | handled | released | asked => exact absurd accepts (by simp [Entry.accepted?])

/-- A call has removed the handle. -/
def Removed (entries : List (Entry μ)) (handle : Handle μ) : Prop :=
  ∃ found call, .called found call ∈ entries ∧ handle ∈ found.removed call

/-- Whoever was removed stays so in a longer chronicle. -/
theorem Removed.later {entries : List (Entry μ)} {handle : Handle μ}
    (removed : Removed entries handle) (more : List (Entry μ)) :
    Removed (entries ++ more) handle := by
  obtain ⟨found, call, entered, leaves⟩ := removed
  exact ⟨found, call, List.mem_append_left more entered, leaves⟩

/-- Every handle that was accepted is accounted for. -/
structure Accounted (due : List (Retirement μ)) (story : Story μ) : Prop where
  /-- It is in the registry, due, or gone, and what is gone was released. -/
  conserved : ∃ gone : List (Handle μ),
    (accepted story.outside).Perm
      (story.registry.handlers.values ++ (due.map (·.handle) ++ gone)) ∧
    gone.map (·.middleware) = released story.outside
  /-- What is due was removed. -/
  due_removed : ∀ retirement ∈ due, Removed story.outside retirement.handle
  /-- What was released had been accepted and removed. -/
  released_removed : ∀ before middleware after,
    story.outside = before ++ .released middleware :: after →
      ∃ handle : Handle μ, handle.middleware = middleware ∧ handle ∈ accepted before ∧
        Removed before handle
  /-- Requests only reach what was accepted. -/
  reached : ∀ middleware, .handled middleware ∈ story.outside →
    ∃ handle ∈ accepted story.outside, handle.middleware = middleware
  /-- When everything was released and nothing accepted since, there are no handlers. -/
  cleared : ∀ before found after, story.outside = before ++ .called found .releaseAll :: after →
    accepted after = [] → story.registry.handlers = ∅

namespace Accounted

/-- Nothing is to be accounted for at first. -/
theorem start (policy : ReleasePolicy) : Accounted [] (⟨.empty policy, []⟩ : Story μ) where
  conserved := ⟨[], by simp [accepted, Registry.empty], rfl⟩
  due_removed _ member := absurd member List.not_mem_nil
  released_removed _ _ _ same := by simp at same
  reached _ member := absurd member List.not_mem_nil
  cleared _ _ _ same := by simp at same

variable {due : List (Retirement μ)} {story : Story μ}

/-- Whoever is in a slot was accepted. -/
theorem mem_accepted_of_handler? (accounted : Accounted due story) {scope : Scope}
    {handle : Handle μ} (found : story.registry.handler? scope = some handle) :
    handle ∈ accepted story.outside := by
  obtain ⟨gone, conserved, -⟩ := accounted.conserved
  rw [conserved.mem_iff]
  exact List.mem_append_left _ ((story.registry.mem_values_iff handle).mpr ⟨scope, found⟩)

/-- Whoever is due was accepted. -/
theorem mem_accepted_of_due (accounted : Accounted due story) {retirement : Retirement μ}
    (member : retirement ∈ due) : retirement.handle ∈ accepted story.outside := by
  obtain ⟨gone, conserved, -⟩ := accounted.conserved
  rw [conserved.mem_iff]
  exact List.mem_append_right _
    (List.mem_append_left _ (List.mem_map_of_mem (f := (·.handle)) member))

/-- Entries that are no calls put no handler back. -/
theorem cleared_write (accounted : Accounted due story) {entry : Entry μ}
    (no_call : ∀ found call, entry ≠ .called found call) (before : List (Entry μ))
    (found : Registry μ) (after : List (Entry μ))
    (same : story.outside ++ [entry] = before ++ .called found .releaseAll :: after)
    (none_accepted : accepted after = []) : story.registry.handlers = ∅ := by
  rcases eq_or_of_concat_eq_append same with ⟨-, this_call, -⟩ | ⟨rest, rfl, earlier⟩
  · exact absurd this_call (no_call found _)
  · rw [accepted_append, List.append_eq_nil_iff] at none_accepted
    exact accounted.cleared before found rest earlier none_accepted.1

/-- A request that reached a handler did so in a longer chronicle too. -/
theorem reached_write (accounted : Accounted due story) (entry : Entry μ) (middleware : μ)
    (old : .handled middleware ∈ story.outside) :
    ∃ handle ∈ accepted (story.outside ++ [entry]), handle.middleware = middleware := by
  obtain ⟨handle, listed, same⟩ := accounted.reached middleware old
  exact ⟨handle, accepted_append _ _ ▸ List.mem_append_left _ listed, same⟩

/-- A call keeps the account: whom it retires is due from now on. -/
theorem call (accounted : Accounted due story) (call : Call μ) :
    Accounted ((story.registry.step call).retired ++ due) (afterCall story call) where
  conserved := by
    obtain ⟨gone, conserved, released_gone⟩ := accounted.conserved
    refine ⟨gone, ?_, ?_⟩
    · show (accepted (story.outside ++ [.called story.registry call])).Perm
        ((story.registry.step call).registry.handlers.values ++ _)
      rw [accepted_concat_called, List.map_append, List.append_assoc, ← List.append_assoc]
      -- Those already there and the new one are turned into those that stay and those that leave.
      refine List.perm_append_comm.trans ((conserved.append_left _).trans ?_)
      rw [← List.append_assoc]
      exact (story.registry.handlers_step_perm call).append_right _
    · show _ = released (story.outside ++ [.called story.registry call])
      rw [released_append, released_gone]
      exact (List.append_nil _).symm
  due_removed retirement member := by
    rcases List.mem_append.mp member with new | old
    · exact ⟨story.registry, call, List.mem_append_right _ (List.mem_singleton.mpr rfl),
        List.mem_map_of_mem (f := (·.handle)) new⟩
    · exact (accounted.due_removed retirement old).later _
  released_removed before middleware after same := by
    rcases eq_or_of_concat_eq_append same with ⟨-, this_call, -⟩ | ⟨rest, -, earlier⟩
    · exact absurd this_call (by simp)
    · exact accounted.released_removed before middleware rest earlier
  reached middleware member := by
    rcases List.mem_append.mp member with old | new
    · exact accounted.reached_write _ middleware old
    · exact absurd (List.mem_singleton.mp new) (by simp)
  cleared before found after same none_accepted := by
    rcases eq_or_of_concat_eq_append same with ⟨-, this_call, -⟩ | ⟨rest, rfl, earlier⟩
    · rw [(Entry.called.inj this_call).2]
      rfl
    · -- There were no handlers, and the call has put none in.
      rw [accepted_concat_called, List.append_eq_nil_iff] at none_accepted
      exact Registry.handlers_step_eq_empty
        (accounted.cleared before found rest earlier none_accepted.1)
        (Option.toList_eq_nil_iff.mp none_accepted.2)

/-- Notes in the ledger do not change the account. -/
theorem note (accounted : Accounted due story) (entry : Metrics.Ledger → Metrics.Ledger) :
    Accounted due (story.mapRegistry fun registry => registry.note entry) :=
  ⟨accounted.conserved, accounted.due_removed, accounted.released_removed, accounted.reached,
    accounted.cleared⟩

/-- The first handle that is due is released. -/
theorem release {retirement : Retirement μ} (accounted : Accounted (retirement :: due) story) :
    Accounted due (write (.released retirement.handle.middleware) story) where
  conserved := by
    obtain ⟨gone, conserved, released_gone⟩ := accounted.conserved
    refine ⟨gone ++ [retirement.handle], ?_, ?_⟩
    · show (accepted (story.outside ++ [.released retirement.handle.middleware])).Perm _
      -- The handle goes from the head of those that are due to the end of those that are gone.
      rw [accepted_concat_of_eq_none _ rfl, ← List.append_assoc (due.map _)]
      refine conserved.trans (List.Perm.append_left _ ?_)
      exact (List.perm_append_singleton _ _).symm
    · show _ = released (story.outside ++ [.released retirement.handle.middleware])
      rw [released_append, List.map_append, released_gone]
      rfl
  due_removed other member :=
    (accounted.due_removed other (List.mem_cons_of_mem _ member)).later _
  released_removed before middleware after same := by
    rcases eq_or_of_concat_eq_append same with ⟨-, this_one, rfl⟩ | ⟨rest, -, earlier⟩
    · have first : retirement ∈ retirement :: due := List.mem_cons_self
      exact ⟨retirement.handle, Entry.released.inj this_one, accounted.mem_accepted_of_due first,
        accounted.due_removed retirement first⟩
    · exact accounted.released_removed before middleware rest earlier
  reached middleware member := by
    rcases List.mem_append.mp member with old | new
    · exact accounted.reached_write _ middleware old
    · exact absurd (List.mem_singleton.mp new) (by simp)
  cleared := accounted.cleared_write (by simp)

/-- A request reaches a handle that is in the registry. -/
theorem handle (accounted : Accounted due story) {scope : Scope} {handle : Handle μ}
    (found : story.registry.handler? scope = some handle) :
    Accounted due (write (.handled handle.middleware) story) where
  conserved := by
    obtain ⟨gone, conserved, released_gone⟩ := accounted.conserved
    refine ⟨gone, ?_, ?_⟩
    · show (accepted (story.outside ++ [.handled handle.middleware])).Perm _
      rwa [accepted_concat_of_eq_none _ rfl]
    · show _ = released (story.outside ++ [.handled handle.middleware])
      rw [released_append, released_gone]
      exact (List.append_nil _).symm
  due_removed other member := (accounted.due_removed other member).later _
  released_removed before middleware after same := by
    rcases eq_or_of_concat_eq_append same with ⟨-, this_one, -⟩ | ⟨rest, -, earlier⟩
    · exact absurd this_one (by simp)
    · exact accounted.released_removed before middleware rest earlier
  reached middleware member := by
    rcases List.mem_append.mp member with old | new
    · exact accounted.reached_write _ middleware old
    · -- Whoever is in the registry was accepted before.
      refine ⟨handle, ?_, (Entry.handled.inj (List.mem_singleton.mp new)).symm⟩
      exact accepted_append _ _ ▸ List.mem_append_left _ (accounted.mem_accepted_of_handler? found)
  cleared := accounted.cleared_write (by simp)

/-- Whoever comes first of those that are due, they are accounted for. -/
theorem reorder {due' : List (Retirement μ)} (same : due.Perm due')
    (accounted : Accounted due story) : Accounted due' story where
  conserved := by
    obtain ⟨gone, conserved, released_gone⟩ := accounted.conserved
    have arranged := ((same.map (·.handle)).append_right gone).append_left
      story.registry.handlers.values
    exact ⟨gone, conserved.trans arranged, released_gone⟩
  due_removed retirement member := accounted.due_removed retirement (same.mem_iff.mpr member)
  released_removed := accounted.released_removed
  reached := accounted.reached
  cleared := accounted.cleared

/-- Every event keeps the account. -/
theorem stepwise : Stepwise fun due (story : Story μ) => Accounted due story where
  reorder same accounted := accounted.reorder same
  call call accounted := accounted.call call
  release retirement accounted :=
    accounted.release.note (·.noteRetirement retirement.handle.scope retirement.reason)
  handle _ _ found accounted := accounted.handle found
  note outcome accounted := accounted.note (·.noteDispatch outcome)

end Accounted

/-- What is accepted and not in the registry was released, once for every time. -/
theorem Accounted.middlewares_perm {story : Story μ} (accounted : Accounted [] story) :
    ((accepted story.outside).map (·.middleware)).Perm
      (story.registry.handlers.values.map (·.middleware) ++ released story.outside) := by
  obtain ⟨gone, conserved, released_gone⟩ := accounted.conserved
  rw [← released_gone, ← List.map_append]
  exact conserved.map _

/-! ### A handle whose middleware is passed once -/

/-- What was accepted before a call, by it and after it. -/
theorem accepted_append_called (before after : List (Entry μ)) (found : Registry μ)
    (call : Call μ) :
    accepted (before ++ .called found call :: after) =
      accepted before ++ ((found.accepted? call).toList ++ accepted after) := by
  rw [← List.singleton_append, ← List.append_assoc, accepted_append, accepted_concat_called,
    List.append_assoc]

/-- A call passes a handle whose middleware no other call passes. -/
structure PassedOnce (entries before after : List (Entry μ)) (found : Registry μ) (call : Call μ)
    (handle : Handle μ) : Prop where
  entered : entries = before ++ .called found call :: after
  passes : call.handle? = some handle
  alone : ∀ other ∈ passed (before ++ after), other.middleware ≠ handle.middleware

section PassedOnce

variable {story : Story μ} {before after : List (Entry μ)} {found : Registry μ} {call : Call μ}
  {handle : Handle μ}

namespace PassedOnce

/-- The call accepts the handle or nothing. -/
theorem accepted?_eq (once : PassedOnce story.outside before after found call handle) :
    found.accepted? call = if (found.step call).answer = .flag true then some handle else none := by
  rw [Registry.accepted?, once.passes]

/-- No other call has it accepted. -/
theorem ne_of_mem_accepted (once : PassedOnce story.outside before after found call handle)
    {other : Handle μ} (member : other ∈ accepted (before ++ after)) :
    other.middleware ≠ handle.middleware :=
  once.alone other (mem_passed_of_mem_accepted member)

/-- What is accepted with its middleware is the handle itself, by this call. -/
theorem eq_of_mem_accepted (once : PassedOnce story.outside before after found call handle)
    {other : Handle μ} (member : other ∈ accepted story.outside)
    (same : other.middleware = handle.middleware) :
    other = handle ∧ (found.step call).answer = .flag true := by
  rw [once.entered, accepted_append_called, List.mem_append, List.mem_append, Option.mem_toList,
    once.accepted?_eq, or_left_comm, ← List.mem_append, ← accepted_append] at member
  rcases member with this_call | elsewhere
  · split at this_call
    · rename_i accepts
      exact ⟨(Option.some.inj this_call).symm, accepts⟩
    · exact absurd this_call (by simp)
  · exact absurd same (once.ne_of_mem_accepted elsewhere)

/-- Before it is released, a call has removed it that ends its scope. -/
theorem ends_of_released (once : PassedOnce story.outside before after found call handle)
    (accounted : Accounted [] story) (orderly : Orderly story) {earlier later : List (Entry μ)}
    (here : story.outside = earlier ++ .released handle.middleware :: later) :
    ∃ found call, .called found call ∈ earlier ∧ handle ∈ found.removed call ∧
      found.Ends handle.scope call := by
  obtain ⟨other, same, member, remover, removal, earlier_call, leaves⟩ :=
    accounted.released_removed earlier _ later here
  have known : other ∈ accepted story.outside := by
    rw [here, accepted_append]
    exact List.mem_append_left _ member
  obtain ⟨rfl, -⟩ := once.eq_of_mem_accepted known same
  have sound := orderly.found_sound remover removal (here ▸ List.mem_append_left _ earlier_call)
  exact ⟨remover, removal, earlier_call, leaves, (sound.ends_of_mem_removed leaves).2⟩

variable [DecidableEq μ]

/-- The middleware was accepted once if its call was answered with `true`, and never otherwise. -/
theorem count_accepted (once : PassedOnce story.outside before after found call handle) :
    ((accepted story.outside).map (·.middleware)).count handle.middleware =
      if (found.step call).answer = .flag true then 1 else 0 := by
  have elsewhere :
      ((accepted (before ++ after)).map (·.middleware)).count handle.middleware = 0 := by
    rw [List.count_eq_zero, List.mem_map]
    rintro ⟨other, member, same⟩
    exact once.ne_of_mem_accepted member same
  rw [accepted_append, List.map_append, List.count_append] at elsewhere
  rw [once.entered, accepted_append_called, List.map_append, List.map_append, List.count_append,
    List.count_append, once.accepted?_eq]
  split
  · simp only [Option.toList_some, List.map_singleton, List.count_singleton_self]
    omega
  · simp only [Option.toList_none, List.map_nil, List.count_nil]
    omega

/-- The conservation law, read at one middleware. -/
theorem count_eq (once : PassedOnce story.outside before after found call handle)
    (accounted : Accounted [] story) :
    (story.registry.handlers.values.map (·.middleware)).count handle.middleware +
        (released story.outside).count handle.middleware =
      if (found.step call).answer = .flag true then 1 else 0 := by
  rw [← List.count_append, ← accounted.middlewares_perm.count_eq, once.count_accepted]

/-- A handle that is refused is never reached and never released. -/
theorem fate_of_refused (once : PassedOnce story.outside before after found call handle)
    (accounted : Accounted [] story) (refused : (found.step call).answer = .flag false) :
    .handled handle.middleware ∉ story.outside ∧
      (released story.outside).count handle.middleware = 0 := by
  have conserved := once.count_eq accounted
  rw [refused, if_neg (by simp)] at conserved
  refine ⟨fun reached => ?_, by omega⟩
  -- Whoever is reached was accepted, and with this middleware that would be the handle.
  obtain ⟨other, member, same⟩ := accounted.reached _ reached
  rw [(once.eq_of_mem_accepted member same).2] at refused
  exact absurd refused (by simp)

/-- A handle that is accepted is in its slot and not released, or gone and released once. -/
theorem fate_of_accepted (once : PassedOnce story.outside before after found call handle)
    (accounted : Accounted [] story) (sound : story.registry.Sound)
    (accepts : (found.step call).answer = .flag true) :
    story.registry.handler? handle.scope = some handle ∧
        (released story.outside).count handle.middleware = 0 ∨
      (∀ scope occupant, story.registry.handler? scope = some occupant →
          occupant.middleware ≠ handle.middleware) ∧
        (released story.outside).count handle.middleware = 1 := by
  have conserved := once.count_eq accounted
  rw [if_pos accepts] at conserved
  -- The handle was accepted once, so by conservation it is live or released, and not both.
  by_cases live : handle.middleware ∈ story.registry.handlers.values.map (·.middleware)
  · left
    obtain ⟨occupant, member, same⟩ := List.mem_map.mp live
    obtain ⟨scope, occupies⟩ := (story.registry.mem_values_iff occupant).mp member
    obtain ⟨rfl, -⟩ := once.eq_of_mem_accepted (accounted.mem_accepted_of_handler? occupies) same
    obtain rfl := sound.bound scope occupant occupies
    have counted := List.one_le_count_iff.mpr live
    exact ⟨occupies, by omega⟩
  · right
    have none_live := List.count_eq_zero.mpr live
    refine ⟨fun scope occupant occupies same => live ?_, by omega⟩
    exact List.mem_map.mpr
      ⟨occupant, (story.registry.mem_values_iff occupant).mpr ⟨scope, occupies⟩, same⟩

/-- When everything was released and nothing accepted since, it was released. -/
theorem released_of_releaseAll (once : PassedOnce story.outside before after found call handle)
    (accounted : Accounted [] story) (accepts : (found.step call).answer = .flag true)
    {earlier later : List (Entry μ)} {shut : Registry μ}
    (here : story.outside = earlier ++ .called shut .releaseAll :: later)
    (none_accepted : accepted later = []) :
    (released story.outside).count handle.middleware = 1 := by
  have conserved := once.count_eq accounted
  rw [if_pos accepts, accounted.cleared earlier shut later here none_accepted, values_empty]
    at conserved
  simpa using conserved

end PassedOnce

end PassedOnce

/-- Every handle has one fate, whatever middlewares do in their turns.

As many handles as were accepted are in the registry or were released, which holds of each
middleware however often it is passed. A handle whose middleware is passed by a single call can be
followed by it. If the call refuses the handle, no request reaches it and it is not released. If the
call accepts it, it is still the handler of its scope and was not released, or it is in the registry
no more and was released once. It is released only after a call that removed it: a call that retires
its scope or releases everything, or that drops the last reference on its scope while that is not
pinned. Once everything was released and nothing accepted since, it was released once. -/
theorem fate_of_handle [DecidableEq μ] (script : Script μ) (depth : Nat) (policy : ReleasePolicy)
    (deeds : List (Deed μ)) (roomy : Roomy (tell script depth policy deeds).outside) :
    let story := tell script depth policy deeds
    ((accepted story.outside).map (·.middleware)).Perm
      (story.registry.handlers.values.map (·.middleware) ++ released story.outside) ∧
    ∀ before found call after (handle : Handle μ),
      story.outside = before ++ .called found call :: after → call.handle? = some handle →
      (∀ other ∈ passed (before ++ after), other.middleware ≠ handle.middleware) →
      ((found.step call).answer = .flag false →
        .handled handle.middleware ∉ story.outside ∧
          (released story.outside).count handle.middleware = 0) ∧
      ((found.step call).answer = .flag true →
        (story.registry.handler? handle.scope = some handle ∧
            (released story.outside).count handle.middleware = 0 ∨
          (∀ scope occupant, story.registry.handler? scope = some occupant →
              occupant.middleware ≠ handle.middleware) ∧
            (released story.outside).count handle.middleware = 1) ∧
        (∀ earlier later, story.outside = earlier ++ .released handle.middleware :: later →
          ∃ found call, .called found call ∈ earlier ∧ handle ∈ found.removed call ∧
            found.Ends handle.scope call) ∧
        ∀ earlier found later, story.outside = earlier ++ .called found .releaseAll :: later →
          accepted later = [] → (released story.outside).count handle.middleware = 1) := by
  intro story
  -- Nothing is due between deeds, so that every handle is accounted for by the slots and the
  -- releases.
  have accounted : Accounted [] story :=
    Accounted.stepwise.holds script depth policy (.start policy) deeds
  have orderly : Orderly story :=
    Orderly.stepwise.holds script depth policy (fun _ => .start policy) deeds roomy
  refine ⟨accounted.middlewares_perm, ?_⟩
  intro before found call after handle entered passes alone
  have once : PassedOnce story.outside before after found call handle := ⟨entered, passes, alone⟩
  refine ⟨once.fate_of_refused accounted, fun accepts => ⟨?_, ?_, ?_⟩⟩
  · exact once.fate_of_accepted accounted orderly.sound accepts
  · intro earlier later here
    exact once.ends_of_released accounted orderly here
  · intro earlier shut later here none_accepted
    exact once.released_of_releaseAll accounted accepts here none_accepted

/-- The middleware `0` is taken over by `1` when it is released. -/
def installsSuccessor : Script Nat where
  onHandle _ _ := []
  onRelease
    | 0, _ => [.call (.install ⟨Scope.wallet⟩ ⟨⟨Scope.wallet⟩, 1⟩)]
    | _, _ => []

/-- A guest takes the wallet and leaves. -/
def guestLeft : Story Nat :=
  tell installsSuccessor 1 .lenient
    [.call (.register ⟨Scope.wallet⟩ ⟨"guest"⟩ ⟨⟨Scope.wallet⟩, 0⟩),
     .call (.releaseDomain ⟨"guest"⟩)]

/-- The guest's middleware was released once, though its successor is in the same slot. -/
theorem fate_of_replaced_handle :
    Roomy guestLeft.outside ∧ (∀ other ∈ passed guestLeft.outside.tail, other.middleware ≠ 0) ∧
      guestLeft.registry.handler? ⟨Scope.wallet⟩ = some ⟨⟨Scope.wallet⟩, 1⟩ ∧
      (released guestLeft.outside).count 0 = 1 := by
  have roomy : Roomy guestLeft.outside := roomy_of_length_lt _ _ _ _ (by decide +kernel)
  have first : guestLeft.outside.head? =
      some (.called (.empty .lenient)
        (.register ⟨Scope.wallet⟩ ⟨"guest"⟩ ⟨⟨Scope.wallet⟩, 0⟩)) := by
    decide +kernel
  have alone : ∀ other ∈ passed guestLeft.outside.tail, other.middleware ≠ 0 := by
    decide +kernel
  have successor : guestLeft.registry.handler? ⟨Scope.wallet⟩ = some ⟨⟨Scope.wallet⟩, 1⟩ := by
    decide +kernel
  have fate := (fate_of_handle _ _ _ _ roomy).2 [] _ _ _ _ (List.eq_cons_of_mem_head? first) rfl
    alone
  refine ⟨roomy, alone, successor, ?_⟩
  rcases (fate.2 (by decide +kernel)).1 with ⟨still, -⟩ | ⟨-, once⟩
  · exact absurd (successor.symm.trans still) (by decide)
  · exact once

end Switchboard.Chronicle
