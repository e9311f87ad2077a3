import Mathlib.Data.List.DropRight
import Switchboard.Proofs.Registry.Room
import Switchboard.Proofs.Registry.Conservation

/-!
# `Switchboard.Proofs.Registry.Tenure`: how a handle came in, and how long it stays

A handle occupies a scope since the call that put it there, and `Chronicle.Tenure` ties the two
together: the call, the handle, and what happened since. A handle that was installed outlives all
references. One that was registered leaves with the last reference, unless somebody tried to install
another handle on the scope meanwhile: such an installation is answered with `false`, and yet it
pins the handle that it found.

* `occupant_of_history` says so for every registry that is seen in a run.
* `occupied_wallet_without_references` is the shortest run in which a registered handle stays.
-/

set_option autoImplicit false

namespace Switchboard.Chronicle

variable {μ : Type}

namespace Entry

/-- An installation of a handle that is bound to the scope, whether it finds the slot free or
taken. -/
def pins (scope : Scope) : Entry μ → Bool
  | .called _ (.install target handle) => decide (target = scope) && decide (handle.scope = scope)
  | _ => false

/-- A call after which a scope has neither handler nor references, nor is pinned. -/
def clears (scope : Scope) : Entry μ → Bool
  | .called _ (.retire target) => decide (target = scope)
  | .called _ .releaseAll => true
  | _ => false

end Entry

/-- What happened since a scope was last cleared. -/
def uncleared (scope : Scope) (entries : List (Entry μ)) : List (Entry μ) :=
  entries.rtakeWhile fun entry => !entry.clears scope

/-- A handle occupies a scope: a call was answered with `true` and put it there, and whoever called
since then found it. -/
structure Tenure (scope : Scope) (handle : Handle μ) (call : Call μ)
    (since entries : List (Entry μ)) : Prop where
  began : ∃ before found, entries = before ++ .called found call :: since ∧
    found.accepted? call = some handle
  lasted : ∀ later other, .called later other ∈ since → later.handler? scope = some handle

/-! ### What one call does -/

/-- One more entry is added to what came since the slot was cleared, or clears it itself. -/
theorem uncleared_concat (scope : Scope) (entries : List (Entry μ)) (entry : Entry μ) :
    uncleared scope (entries ++ [entry]) =
      if entry.clears scope then [] else uncleared scope entries ++ [entry] := by
  unfold uncleared
  rw [List.rtakeWhile_concat]
  cases entry.clears scope <;> simp

/-- Only a call that clears the scope takes its pin away, and only an installation sets it. -/
theorem mem_pinned_step_iff (registry : Registry μ) (call : Call μ) (scope : Scope) :
    scope ∈ (registry.step call).registry.pinned ↔
      (Entry.called registry call).clears scope = false ∧
        (scope ∈ registry.pinned ∨ (Entry.called registry call).pins scope = true) := by
  cases call with
  | register target domain handle =>
    show scope ∈ (registry.register target domain handle).registry.pinned ↔ _
    by_cases bound : handle.scope = target
    · rw [Registry.pinned_register bound]
      simp [Entry.clears, Entry.pins]
    · rw [Registry.register_of_ne bound]
      simp [Entry.clears, Entry.pins, Registry.refuse]
  | install target handle =>
    show scope ∈ (registry.install target handle).registry.pinned ↔ _
    by_cases bound : handle.scope = target
    · subst bound
      -- The pin is set before the slot is looked at, so it is there also when the slot was taken.
      rw [Registry.mem_pinned_install rfl]
      simp only [Entry.clears, Entry.pins, Bool.and_self, decide_eq_true_eq, true_and]
      tauto
    · rw [Registry.install_of_ne bound]
      simp only [Entry.clears, Entry.pins, Registry.refuse, Registry.pinned_note, true_and,
        Bool.and_eq_true, decide_eq_true_eq]
      constructor
      · exact Or.inl
      · rintro (pinned | ⟨rfl, same⟩)
        · exact pinned
        · exact absurd same bound
  | release target domain =>
    show scope ∈ (registry.release target domain).registry.pinned ↔ _
    rw [Registry.pinned_release]
    simp [Entry.clears, Entry.pins]
  | retire target =>
    show scope ∈ (registry.retire target).registry.pinned ↔ _
    rw [Registry.mem_pinned_retire]
    simp [Entry.clears, Entry.pins, eq_comm]
  | releaseAll =>
    show scope ∈ (∅ : Std.ExtTreeSet Scope) ↔ _
    simp [Entry.clears]
  | releaseDomain | isRegistered | referenceCount | domainCount | scopes | isEmpty | policy =>
    show scope ∈ registry.pinned ↔ _
    simp [Entry.clears, Entry.pins]

/-- A scope that is cleared has no handler. -/
theorem handler?_step_of_clears {registry : Registry μ} {call : Call μ} {scope : Scope}
    (clears : (Entry.called registry call).clears scope = true) :
    (registry.step call).registry.handler? scope = none := by
  cases call with
  | retire target =>
    show (registry.retire target).registry.handler? scope = none
    rw [Registry.handler?_retire, if_pos (of_decide_eq_true clears).symm]
  | releaseAll => exact Registry.handler?_releaseAll registry scope
  | register | install | release | releaseDomain | isRegistered | referenceCount | domainCount
  | scopes | isEmpty | policy => exact absurd clears Bool.false_ne_true

/-- A handle that is accepted was passed to a registration or to an installation, on a free slot. -/
theorem admits_of_accepted {registry : Registry μ} {call : Call μ} {handle : Handle μ}
    (accepted : registry.accepted? call = some handle) :
    ((∃ domain, call = .register handle.scope domain handle) ∨
        call = .install handle.scope handle) ∧
      registry.handler? handle.scope = none := by
  cases call with
  | register scope domain passed =>
    rw [Registry.accepted?_register] at accepted
    split at accepted
    · rename_i admits
      obtain rfl := Option.some.inj accepted
      obtain ⟨rfl, free⟩ := admits
      exact ⟨Or.inl ⟨domain, rfl⟩, free⟩
    · exact absurd accepted (by simp)
  | install scope passed =>
    rw [Registry.accepted?_install] at accepted
    split at accepted
    · rename_i admits
      obtain rfl := Option.some.inj accepted
      obtain ⟨rfl, free⟩ := admits
      exact ⟨Or.inr rfl, free⟩
    · exact absurd accepted (by simp)
  | release | retire | releaseDomain | releaseAll | isRegistered | referenceCount | domainCount
  | scopes | isEmpty | policy =>
    rw [Registry.accepted?_of_handle?_eq_none registry rfl] at accepted
    exact absurd accepted (by simp)

/-! ### Whole runs -/

/-- What a history tells about the registry that it led to. -/
structure Told (registry : Registry μ) (entries : List (Entry μ)) : Prop where
  sound : registry.Sound
  /-- A scope is pinned if a handle was installed on it since it was last cleared. -/
  pinned_iff : ∀ scope,
    scope ∈ registry.pinned ↔ ∃ entry ∈ uncleared scope entries, entry.pins scope = true
  /-- Every handler has its tenure. Its scope is pinned if the handler itself was installed, or
  another handle since then. -/
  tenure : ∀ scope handle, registry.handler? scope = some handle →
    ∃ call since, Tenure scope handle call since entries ∧
      (scope ∈ registry.pinned ↔
        call = .install scope handle ∨ ∃ entry ∈ since, entry.pins scope = true)

/-- A tenure goes on as long as whoever calls finds the handle. -/
theorem Tenure.concat {scope : Scope} {handle : Handle μ} {call : Call μ}
    {since entries : List (Entry μ)} (tenure : Tenure scope handle call since entries)
    {entry : Entry μ}
    (there : ∀ found other, entry = .called found other → found.handler? scope = some handle) :
    Tenure scope handle call (since ++ [entry]) (entries ++ [entry]) where
  began := by
    obtain ⟨before, found, rfl, accepted⟩ := tenure.began
    exact ⟨before, found, by rw [List.append_assoc, List.cons_append], accepted⟩
  lasted later other member := by
    rcases List.mem_append.mp member with earlier | last
    · exact tenure.lasted later other earlier
    · exact there later other (List.mem_singleton.mp last).symm

namespace Told

variable {registry : Registry μ} {entries : List (Entry μ)}

/-- A new registry has no history to tell. -/
theorem start (policy : ReleasePolicy) : Told (.empty policy : Registry μ) [] where
  sound := .empty policy
  pinned_iff scope := by simp [Registry.empty, uncleared]
  tenure scope handle occupied := by simp [Registry.empty, Registry.handler?] at occupied

/-- A call is told by the history that ends with it, as long as there is room. -/
theorem call (told : Told registry entries) (call : Call μ) (room : registry.HasRoom [call]) :
    Told (registry.step call).registry (entries ++ [.called registry call]) where
  sound := told.sound.step call room
  pinned_iff scope := by
    rw [mem_pinned_step_iff, told.pinned_iff scope, uncleared_concat]
    -- A call that clears the scope starts a new history for it.
    cases (Entry.called registry call).clears scope with
    | true => simp
    | false => simp [or_and_right, exists_or]
  tenure scope handle occupied := by
    have uncleared : (Entry.called registry call).clears scope = false := by
      by_contra clears
      rw [handler?_step_of_clears (Bool.eq_true_of_not_eq_false clears)] at occupied
      exact absurd occupied (by simp)
    rw [mem_pinned_step_iff, uncleared]
    rcases Registry.accepted_or_handler?_of_step occupied with ⟨rfl, accepted⟩ | there
    · -- The tenure begins with this call, on a slot that was free and so not pinned.
      obtain ⟨passed, free⟩ := admits_of_accepted accepted
      have unpinned : handle.scope ∉ registry.pinned := by
        intro pinned
        have taken := (told.sound.occupied handle.scope).mpr (Or.inr pinned)
        rw [free] at taken
        exact absurd taken Bool.false_ne_true
      refine ⟨call, [], ⟨⟨entries, registry, rfl, accepted⟩, by simp⟩, ?_⟩
      rcases passed with ⟨domain, rfl⟩ | rfl
      · simp [unpinned, Entry.pins]
      · simp [Entry.pins]
    · -- The tenure goes on, and this call pins the scope or leaves its pin as it was.
      obtain ⟨first, since, tenure, pinned_iff⟩ := told.tenure scope handle there
      refine ⟨first, since ++ [.called registry call], tenure.concat ?_, ?_⟩
      · rintro found other same
        obtain ⟨rfl, -⟩ := Entry.called.inj same
        exact there
      · rw [pinned_iff]
        simp [or_and_right, exists_or, or_assoc]

/-- What is noted in the ledger is no part of the history. -/
theorem note (told : Told registry entries) (entry : Metrics.Ledger → Metrics.Ledger) :
    Told (registry.note entry) entries :=
  ⟨told.sound.note entry, told.pinned_iff, told.tenure⟩

/-- An entry that is no call changes nothing. -/
theorem write (told : Told registry entries) {entry : Entry μ}
    (other : ∀ found call, entry ≠ .called found call) : Told registry (entries ++ [entry]) := by
  have neither (scope : Scope) : entry.clears scope = false ∧ entry.pins scope = false := by
    cases entry with
    | called found call => exact absurd rfl (other found call)
    | handled | released | asked => exact ⟨rfl, rfl⟩
  refine ⟨told.sound, fun scope => ?_, fun scope handle occupied => ?_⟩
  · rw [told.pinned_iff scope, uncleared_concat, (neither scope).1]
    simp [or_and_right, exists_or, (neither scope).2]
  · obtain ⟨call, since, tenure, pinned_iff⟩ := told.tenure scope handle occupied
    refine ⟨call, since ++ [entry], tenure.concat fun found call same => ?_, ?_⟩
    · exact absurd same (other found call)
    · rw [pinned_iff]
      simp [or_and_right, exists_or, (neither scope).2]

end Told

/-- A registry is seen in a story, with the history that led to it: it is the one at the end, or
some call finds it. -/
def Seen (story : Story μ) (registry : Registry μ) (entries : List (Entry μ)) : Prop :=
  (registry = story.registry ∧ entries = story.outside) ∨
    ∃ call after, story.outside = entries ++ .called registry call :: after

/-- What a history tells of the registry that it led to is kept by single events, if calls keep it
and what is no call changes nothing. It may rest on a condition on histories that holds of their
beginnings too. -/
theorem stepwise_of_history {R : List (Entry μ) → Prop}
    {Q : Registry μ → List (Entry μ) → Prop}
    (earlier : ∀ {entries later}, R (entries ++ later) → R entries)
    (call : ∀ {registry entries} (call : Call μ), R (entries ++ [.called registry call]) →
      Q registry entries → Q (registry.step call).registry (entries ++ [.called registry call]))
    (write : ∀ {registry entries entry}, (∀ found call, entry ≠ .called found call) →
      Q registry entries → Q registry (entries ++ [entry]))
    (note : ∀ {registry entries} (entry : Metrics.Ledger → Metrics.Ledger),
      Q registry entries → Q (registry.note entry) entries) :
    Stepwise fun _ (story : Story μ) => R story.outside → Q story.registry story.outside where
  reorder _ h := h
  call this_call h holds := call this_call holds (h (earlier holds))
  release retirement h holds := write (by simp)
    (note (·.noteRetirement retirement.handle.scope retirement.reason) (h (earlier holds)))
  handle _ _ _ h holds := write (by simp) (h (earlier holds))
  note outcome h holds := note (·.noteDispatch outcome) (h holds)

/-- What a history tells of the registry that it led to, it told of the registries that calls found
on the way. -/
theorem Stepwise.seen {R : List (Entry μ) → Prop} {Q : Registry μ → List (Entry μ) → Prop}
    (stepwise : Stepwise fun _ (story : Story μ) => R story.outside →
      Q story.registry story.outside)
    (earlier : ∀ {entries later}, R (entries ++ later) → R entries) :
    Stepwise fun _ (story : Story μ) => R story.outside →
      ∀ registry entries, Seen story registry entries → Q registry entries := by
  -- A registry that a call finds was the one at the end when the call began.
  have extend {story : Story μ} {later : Registry μ} {last : Entry μ}
      (old : ∀ registry entries, Seen story registry entries → Q registry entries)
      (new : Q later (story.outside ++ [last]))
      (found : ∀ registry call, last = .called registry call → registry = story.registry) :
      ∀ registry entries, Seen ⟨later, story.outside ++ [last]⟩ registry entries →
        Q registry entries := by
    rintro registry entries (⟨rfl, rfl⟩ | ⟨call, after, same⟩)
    · exact new
    · rcases eq_or_of_concat_eq_append same with ⟨-, this_call, now⟩ | ⟨rest, -, earlier⟩
      · exact old registry entries (Or.inl ⟨found registry call this_call, now.symm⟩)
      · exact old registry entries (Or.inr ⟨call, rest, earlier⟩)
  have now {story : Story μ}
      (h : ∀ registry entries, Seen story registry entries → Q registry entries) :
      Q story.registry story.outside :=
    h _ _ (Or.inl ⟨rfl, rfl⟩)
  refine ⟨fun _ h => h, ?_, ?_, ?_, ?_⟩
  · intro due story call h holds
    have old := h (earlier holds)
    have new := @Stepwise.call _ _ stepwise due story call (fun _ => now old) holds
    refine extend old new ?_
    rintro registry other same
    exact (Entry.called.inj same).1.symm
  · intro due story retirement h holds
    have old := h (earlier holds)
    have new := @Stepwise.release _ _ stepwise due story retirement (fun _ => now old) holds
    exact extend old new (by simp)
  · intro due story scope handle found h holds
    have old := h (earlier holds)
    have new := @Stepwise.handle _ _ stepwise due story scope handle found (fun _ => now old) holds
    exact extend old new (by simp)
  · rintro due story outcome h holds registry entries (⟨rfl, rfl⟩ | found)
    · exact @Stepwise.note _ _ stepwise due story outcome (fun holds => now (h holds)) holds
    · exact h holds registry entries (Or.inr found)

/-- Histories tell of every registry that is seen in a run. -/
theorem told_stepwise :
    Stepwise fun _ (story : Story μ) => Roomy story.outside →
      ∀ registry entries, Seen story registry entries → Told registry entries :=
  (stepwise_of_history Roomy.earlier (fun call roomy told => told.call call roomy.last)
    (fun no_call told => told.write no_call) fun entry told => told.note entry).seen Roomy.earlier

/-! ### Who stays without references -/

/-- When the last references on a scope are dropped, its handler leaves unless the scope is
pinned. -/
theorem mem_removed_iff_of_last {registry : Registry μ} (sound : registry.Sound) {scope : Scope}
    {handle : Handle μ} (occupied : registry.handler? scope = some handle) {ending : Call μ}
    {domain : Domain} (drop : ending = .release scope domain ∨ ending = .releaseDomain domain)
    (none_left : ∀ holder, (registry.step ending).registry.domainCount scope holder = 0) :
    handle ∈ registry.removed ending ↔ scope ∉ registry.pinned := by
  have bound := sound.bound scope handle occupied
  have sound_after : (registry.step ending).registry.Sound := by
    rcases drop with rfl | rfl
    · exact sound.release scope domain
    · exact sound.releaseDomain domain
  have same_pin : scope ∈ (registry.step ending).registry.pinned ↔ scope ∈ registry.pinned := by
    rw [mem_pinned_step_iff]
    rcases drop with rfl | rfl <;> simp [Entry.clears, Entry.pins]
  constructor
  · intro leaves
    have ends := (sound.ends_of_mem_removed leaves).2
    rw [bound] at ends
    rcases drop with rfl | rfl
    · exact ends.2.2.2
    · exact ends.2.2
  · intro unpinned
    -- Nothing holds the handler any more, and what is not kept is removed.
    have before : handle ∈ (registry.accepted? ending).toList ++ registry.handlers.values :=
      List.mem_append_right _ ((registry.mem_values_iff handle).mpr ⟨scope, occupied⟩)
    rcases List.mem_append.mp ((registry.handlers_step_perm ending).mem_iff.mp before) with
      stays | leaves
    · obtain ⟨slot, found⟩ := (Registry.mem_values_iff _ handle).mp stays
      have same : slot = scope := (sound_after.bound slot handle found).symm.trans bound
      subst same
      have kept := (sound_after.occupied slot).mp (by rw [found]; rfl)
      rw [sound_after.mem_counts_iff, same_pin] at kept
      obtain ⟨holder, held⟩ := kept.resolve_right unpinned
      exact absurd (none_left holder) held
    · exact leaves

/-- In every registry that is seen in a run, a scope has a handler exactly if somebody holds
references on it or a handle was installed on it since it was last cleared, whether or not the
installation was answered with `true`.

Take the tenure of the handler. It began with a registration or an installation that was answered
with `true`. Without references the handler is there only if it was installed itself, or if an
installation was tried since and found the slot taken. When the last reference on the scope is
dropped, the handler is retired exactly if it was registered and no such installation was tried. -/
theorem occupant_of_history (script : Script μ) (depth : Nat) (policy : ReleasePolicy)
    (deeds : List (Deed μ)) (roomy : Roomy (tell script depth policy deeds).outside)
    (registry : Registry μ) (entries : List (Entry μ))
    (seen : Seen (tell script depth policy deeds) registry entries) (scope : Scope) :
    ((registry.handler? scope).isSome ↔
      (∃ domain, registry.domainCount scope domain ≠ 0) ∨
        ∃ entry ∈ uncleared scope entries, entry.pins scope = true) ∧
    ∀ handle, registry.handler? scope = some handle →
      ∃ call since, Tenure scope handle call since entries ∧
        (call = .install scope handle ∨ ∃ domain, call = .register scope domain handle) ∧
        ((∃ domain, registry.domainCount scope domain ≠ 0) ∨ call = .install scope handle ∨
          ∃ entry ∈ since, entry.pins scope = true) ∧
        ∀ ending domain, ending = .release scope domain ∨ ending = .releaseDomain domain →
          registry.domainCount scope domain ≠ 0 →
          (∀ holder, (registry.step ending).registry.domainCount scope holder = 0) →
          (handle ∈ registry.removed ending ↔
            (∃ holder, call = .register scope holder handle) ∧
              ∀ entry ∈ since, entry.pins scope = false) := by
  -- Every registry that is seen has a history that tells its pins and its tenures.
  have start : Roomy ([] : List (Entry μ)) → ∀ registry entries,
      Seen (⟨.empty policy, []⟩ : Story μ) registry entries → Told registry entries := by
    rintro - _ _ (⟨rfl, rfl⟩ | ⟨call, after, same⟩)
    · exact .start policy
    · simp at same
  have told : Told registry entries :=
    told_stepwise.holds script depth policy start deeds roomy registry entries seen
  refine ⟨?_, fun handle occupied => ?_⟩
  · rw [told.sound.occupied, told.sound.mem_counts_iff, told.pinned_iff]
  · obtain ⟨call, since, tenure, pinned_iff⟩ := told.tenure scope handle occupied
    have bound := told.sound.bound scope handle occupied
    have passed :
        call = .install scope handle ∨ ∃ domain, call = .register scope domain handle := by
      -- Only registrations and installations are answered with true for a handle.
      obtain ⟨before, found, -, accepted⟩ := tenure.began
      have either := (admits_of_accepted accepted).1
      rw [bound] at either
      exact either.symm
    refine ⟨call, since, tenure, passed, ?_, fun ending domain drop _ none_left => ?_⟩
    · rw [← pinned_iff, ← told.sound.mem_counts_iff, ← told.sound.occupied, occupied]
      rfl
    · rw [mem_removed_iff_of_last told.sound occupied drop none_left, pinned_iff]
      rcases passed with rfl | ⟨holder, rfl⟩ <;> simp

/-- A guest registers a handle for the wallet. Another one is installed, and finds the wallet
taken. -/
def refusedInstall : List (Deed Nat) :=
  [.call (.register ⟨Scope.wallet⟩ ⟨"guest"⟩ ⟨⟨Scope.wallet⟩, 0⟩),
   .call (.install ⟨Scope.wallet⟩ ⟨⟨Scope.wallet⟩, 1⟩)]

/-- The handle that was registered does not leave with the guest, since an installation was
refused. -/
theorem occupant_of_refused_install :
    let story := tell .silent 0 .strict refusedInstall
    Roomy story.outside ∧ Seen story story.registry story.outside ∧
      story.registry.handler? ⟨Scope.wallet⟩ = some ⟨⟨Scope.wallet⟩, 0⟩ ∧
      story.registry.domainCount ⟨Scope.wallet⟩ ⟨"guest"⟩ ≠ 0 ∧
      ∃ call since, Tenure ⟨Scope.wallet⟩ ⟨⟨Scope.wallet⟩, 0⟩ call since story.outside ∧
        (⟨⟨Scope.wallet⟩, 0⟩ ∈ story.registry.removed (.releaseDomain ⟨"guest"⟩) ↔
          (∃ holder, call = .register ⟨Scope.wallet⟩ holder ⟨⟨Scope.wallet⟩, 0⟩) ∧
            ∀ entry ∈ since, entry.pins ⟨Scope.wallet⟩ = false) := by
  intro story
  have roomy : Roomy story.outside := roomy_of_length_lt _ _ _ _ (by decide +kernel)
  have seen : Seen story story.registry story.outside := Or.inl ⟨rfl, rfl⟩
  have occupied : story.registry.handler? ⟨Scope.wallet⟩ = some ⟨⟨Scope.wallet⟩, 0⟩ := by
    decide +kernel
  have held : story.registry.domainCount ⟨Scope.wallet⟩ ⟨"guest"⟩ ≠ 0 := by decide +kernel
  have none_left (holder : Domain) :
      (story.registry.releaseDomain ⟨"guest"⟩).registry.domainCount ⟨Scope.wallet⟩ holder = 0 := by
    have nobody : (story.registry.releaseDomain ⟨"guest"⟩).registry.counts = ∅ := by decide +kernel
    rw [Registry.domainCount, Registry.holdings, nobody]
    rfl
  obtain ⟨call, since, tenure, -, -, last⟩ :=
    (occupant_of_history .silent 0 .strict refusedInstall roomy story.registry story.outside seen
      ⟨Scope.wallet⟩).2 _ occupied
  exact ⟨roomy, seen, occupied, held, call, since, tenure,
    last (.releaseDomain ⟨"guest"⟩) ⟨"guest"⟩ (Or.inr rfl) held none_left⟩

/-- An installation that is answered with `true`. -/
def Entry.fills : Entry μ → Bool
  | .called found (.install scope handle) => (found.install scope handle).answer
  | _ => false

/-- When the guest of `refusedInstall` leaves, its handle keeps the wallet: nobody holds references,
and no installation was answered with `true`. -/
theorem occupied_wallet_without_references :
    let story := tell .silent 0 .strict
      (refusedInstall ++ [.call (.release ⟨Scope.wallet⟩ ⟨"guest"⟩)])
    ¬((story.registry.handler? ⟨Scope.wallet⟩).isSome ↔
      (∃ domain, story.registry.domainCount ⟨Scope.wallet⟩ domain ≠ 0) ∨
        ∃ handle since,
          Tenure ⟨Scope.wallet⟩ handle (.install ⟨Scope.wallet⟩ handle) since story.outside) := by
  intro story only_if_installed
  have occupied : (story.registry.handler? ⟨Scope.wallet⟩).isSome = true := by decide +kernel
  rcases only_if_installed.mp occupied with ⟨domain, held⟩ | ⟨handle, since, tenure⟩
  · have nobody : story.registry.counts = ∅ := by decide +kernel
    rw [Registry.domainCount, Registry.holdings, nobody] at held
    exact held rfl
  · have refused : story.outside.all (fun entry => !entry.fills) = true := by decide +kernel
    obtain ⟨before, found, same, accepted⟩ := tenure.began
    have member : Entry.called found (.install ⟨Scope.wallet⟩ handle) ∈ story.outside := by
      rw [same]
      exact List.mem_append_right _ List.mem_cons_self
    have answer : (found.install ⟨Scope.wallet⟩ handle).answer = false :=
      Bool.not_eq_true' _ ▸ List.all_eq_true.mp refused _ member
    rw [Registry.accepted?_install] at accepted
    rw [Registry.answer_install, decide_eq_false_iff_not] at answer
    rw [if_neg answer] at accepted
    exact absurd accepted (by simp)

end Switchboard.Chronicle
