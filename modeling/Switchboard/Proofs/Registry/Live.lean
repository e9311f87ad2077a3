import Mathlib.Algebra.BigOperators.Group.Finset.Basic
import Switchboard.Proofs.Registry.Counts
import Switchboard.Proofs.Registry.Reachable

/-!
# `Switchboard.Proofs.Registry.Live`: no count wraps around

References are counted in thirty-two bits, and no operation looks whether a number fits. The list of
live references does without such numbers: a registration that is accepted puts a reference into it,
a release takes one out, and the calls that take all references of a scope or a domain away remove
all of them at once (`Call.liveAfter`). `Chronicle.NeverFull` says of a run that fewer than `2 ^ 32`
of them are live on any scope at any moment.

That is all that is needed. Every count is then the number of live references of its scope and
domain (`Accurate`), so that there was room whenever a reference was taken, nothing was taken off a
count of zero, and the counts of a scope can be added up in any order (`counts_never_wrap`).
-/

set_option autoImplicit false

namespace Switchboard

variable {μ : Type}

/-- A reference on a scope that a domain holds. -/
abbrev Reference := Scope × Domain

/-- The references that are live after a call: those that were accepted, and neither dropped nor
taken away. Each is listed as often as it is held. -/
def Call.liveAfter (live : List Reference) : Call μ → List Reference
  | .register scope domain handle =>
    if handle.scope = scope then (scope, domain) :: live else live
  | .release scope domain => live.erase (scope, domain)
  | .retire scope => live.filter fun reference => reference.1 ≠ scope
  | .releaseDomain domain => live.filter fun reference => reference.2 ≠ domain
  | .releaseAll => []
  | _ => live

/-- How many of some references are on a scope. -/
def referencesOn (scope : Scope) (live : List Reference) : Nat :=
  live.countP fun reference => reference.1 = scope

/-- A call adds one live reference at most. -/
theorem length_liveAfter_le (live : List Reference) (call : Call μ) :
    (call.liveAfter live).length ≤ live.length + 1 := by
  cases call with
  | register scope domain handle =>
    simp only [Call.liveAfter]
    split
    · exact Nat.le_refl _
    · exact Nat.le_succ _
  | release scope domain => exact Nat.le_succ_of_le (List.length_erase_le)
  | retire scope => exact Nat.le_succ_of_le (List.length_filter_le _ _)
  | releaseDomain domain => exact Nat.le_succ_of_le (List.length_filter_le _ _)
  | releaseAll => exact Nat.zero_le _
  | install | isRegistered | referenceCount | domainCount | scopes | isEmpty | policy =>
    exact Nat.le_succ _

/-- The references on a scope are those of all domains. -/
theorem referencesOn_eq_finsum (scope : Scope) (live : List Reference) :
    referencesOn scope live = ∑ᶠ domain, live.count (scope, domain) := by
  -- A domain is among the holders once for each of its references.
  let holders := (live.filter fun reference => reference.1 = scope).map (·.2)
  have number : referencesOn scope live = holders.length := by
    rw [referencesOn, List.countP_eq_length_filter, List.length_map]
  have counted (domain : Domain) : live.count (scope, domain) = holders.count domain := by
    rw [List.count, List.count, List.countP_map, List.countP_filter]
    refine List.countP_congr fun reference _ => ?_
    rcases reference with ⟨target, holder⟩
    simp [and_comm]
  have listed : (Function.support fun domain => holders.count domain) ⊆ holders.toFinset := by
    intro domain counts
    rw [Finset.mem_coe, List.mem_toFinset]
    exact List.count_pos_iff.mp (Nat.pos_of_ne_zero counts)
  simp only [counted]
  rw [number, ← List.sum_toFinset_count_eq_length, finsum_eq_sum_of_support_subset _ listed]

/-- Counts that are added up one after another, in any order, do not exceed their sum on the way. -/
theorem Holdings.sum_first_le (holdings : Holdings) {order first : List (Domain × UInt32)}
    (listed : order.Perm holdings.toList) (before : first <+: order) :
    (first.map fun entry => entry.2.toNat).sum ≤ holdings.sum := by
  obtain ⟨rest, rfl⟩ := before
  have all := (listed.map fun entry => entry.2.toNat).sum_eq
  rw [List.map_append, List.sum_append] at all
  rw [Holdings.sum]
  omega

namespace Chronicle

/-- The references that are live after a run. -/
def live (entries : List (Entry μ)) : List Reference :=
  entries.foldl
    (fun live entry =>
      match entry with
      | .called _ call => call.liveAfter live
      | _ => live) []

/-- At every moment of a run, fewer than `2 ^ 32` references are live on each scope. -/
def NeverFull (entries : List (Entry μ)) : Prop :=
  ∀ moment, moment <+: entries → ∀ scope, referencesOn scope (live moment) < 2 ^ 32

/-- What is live after one more call is decided by the call. -/
theorem live_concat_called (entries : List (Entry μ)) (found : Registry μ) (call : Call μ) :
    live (entries ++ [.called found call]) = call.liveAfter (live entries) := by
  simp [live]

/-- What is no call leaves the live references as they are. -/
theorem live_concat_of_other (entries : List (Entry μ)) {entry : Entry μ}
    (other : ∀ found call, entry ≠ .called found call) :
    live (entries ++ [entry]) = live entries := by
  cases entry with
  | called found call => exact absurd rfl (other found call)
  | handled | released | asked => simp [live]

/-- A run that never fills a scope does not fill one on the way. -/
theorem NeverFull.earlier {entries later : List (Entry μ)}
    (neverFull : NeverFull (entries ++ later)) : NeverFull entries :=
  fun moment before => neverFull moment (before.trans (List.prefix_append _ _))

/-- No scope is full at the end. -/
theorem NeverFull.last {entries : List (Entry μ)} (neverFull : NeverFull entries) (scope : Scope) :
    referencesOn scope (live entries) < 2 ^ 32 :=
  neverFull entries List.prefix_rfl scope

/-- There are no more live references than entries. -/
theorem length_live_le (entries : List (Entry μ)) : (live entries).length ≤ entries.length := by
  induction entries using List.reverseRecOn with
  | nil => exact Nat.le_refl _
  | append_singleton earlier last ih =>
    rw [List.length_append, List.length_singleton]
    cases last with
    | called found call =>
      have step := length_liveAfter_le (live earlier) call
      rw [live_concat_called]
      omega
    | handled | released | asked =>
      rw [live_concat_of_other earlier (by simp)]
      omega

/-- No run of fewer than `2 ^ 32` events has so many live references. -/
theorem neverFull_of_length_lt {entries : List (Entry μ)} (short : entries.length < 2 ^ 32) :
    NeverFull entries := by
  intro moment before scope
  have counted : referencesOn scope (live moment) ≤ (live moment).length := List.countP_le_length
  have few := length_live_le moment
  have shorter := before.length_le
  omega

/-! ### One call -/

/-- Of the references that are left by a test, a reference is live as often as before or not at
all. -/
theorem count_filter_eq (live : List Reference) (test : Reference → Bool) (reference : Reference) :
    (live.filter test).count reference = if test reference then live.count reference else 0 := by
  by_cases stays : test reference = true
  · rw [if_pos stays, List.count_filter stays]
  · rw [if_neg stays, List.count_eq_zero, List.mem_filter]
    exact fun both => stays both.2

/-- What a call does to the live references of a domain on a scope: those that it takes are put in,
one that it drops is taken out, and none are left if it takes all of them away. -/
theorem count_liveAfter {found : Registry μ} {live : List Reference} {scope : Scope}
    {domain : Domain} (counts : (found.domainCount scope domain).toNat = live.count (scope, domain))
    (call : Call μ) :
    (call.liveAfter live).count (scope, domain) +
        (if (Entry.called found call).drops scope domain then 1 else 0) =
      if (Entry.called found call).resets scope domain then 0
      else live.count (scope, domain) +
        if (Entry.called found call).takes scope domain then 1 else 0 := by
  cases call with
  | register target holder handle =>
    show (if handle.scope = target then (target, holder) :: live else live).count _ = _ + _
    by_cases bound : handle.scope = target
    · subst bound
      rw [if_pos rfl, List.count_cons]
      by_cases own : handle.scope = scope <;> simp [Entry.takes, own]
    · -- A refused handle is for one scope and bound to another, so it takes nothing on either.
      have refused : ¬(target = scope ∧ handle.scope = scope) := by
        rintro ⟨rfl, same⟩
        exact bound same
      have idle :
          (Entry.called found (.register target holder handle)).takes scope domain = false := by
        rcases not_and_or.mp refused with differ | differ <;> simp [Entry.takes, differ]
      simp [bound, idle]
  | release target holder =>
    show (live.erase (target, holder)).count (scope, domain) + _ = live.count (scope, domain)
    rw [List.count_erase]
    by_cases own : target = scope ∧ holder = domain
    · obtain ⟨rfl, rfl⟩ := own
      -- The registry takes one off a count that is not zero, and then there is one to erase.
      have drops : (Entry.called found (.release target holder)).drops target holder = true ↔
          live.count (target, holder) ≠ 0 := by
        rw [drops_release_iff, ← counts, ne_eq, ne_eq, ← UInt32.toNat_inj, UInt32.toNat_zero]
      simp only [drops, beq_self_eq_true, if_true]
      split <;> omega
    · have other : (target, holder) ≠ (scope, domain) := by simpa using own
      have idle : (Entry.called found (.release target holder)).drops scope domain = false := by
        rcases not_and_or.mp own with differ | differ <;> simp [Entry.drops, differ]
      simp [other, idle]
  | retire target =>
    show (live.filter fun reference => reference.1 ≠ target).count (scope, domain) = _
    rw [count_filter_eq]
    by_cases own : target = scope
    · simp [Entry.resets, own]
    · simp [Entry.resets, Entry.takes, own, Ne.symm own]
  | releaseDomain holder =>
    show (live.filter fun reference => reference.2 ≠ holder).count (scope, domain) = _
    rw [count_filter_eq]
    by_cases own : holder = domain
    · simp [Entry.resets, own]
    · simp [Entry.resets, Entry.takes, own, Ne.symm own]
  | releaseAll => rfl
  | install | isRegistered | referenceCount | domainCount | scopes | isEmpty | policy => rfl

/-! ### Whole runs -/

/-- The registry counts the live references, and there was room for each when it was taken. -/
structure Accurate (story : Story μ) : Prop where
  sound : story.registry.Sound
  roomy : Roomy story.outside
  counts : ∀ scope domain,
    (story.registry.domainCount scope domain).toNat = (live story.outside).count (scope, domain)

namespace Accurate

/-- Nothing is live at first. -/
theorem start (policy : ReleasePolicy) : Accurate (⟨.empty policy, []⟩ : Story μ) where
  sound := .empty policy
  roomy _ member := absurd member List.not_mem_nil
  counts scope domain := by
    simp [live, Registry.domainCount, Registry.holdings, Registry.empty]

/-- The references on a scope, as the registry has them, are those that are live. -/
theorem references_eq {story : Story μ} (accurate : Accurate story) (scope : Scope) :
    story.registry.references scope = referencesOn scope (live story.outside) := by
  rw [Registry.references, Holdings.sum_eq_finsum, referencesOn_eq_finsum]
  exact finsum_congr fun domain => accurate.counts scope domain

/-- If a scope is not full after a call, there is room for the references that the call takes. -/
theorem hasRoom {story : Story μ} (accurate : Accurate story) {call : Call μ}
    (neverFull : NeverFull (afterCall story call).outside) : story.registry.HasRoom [call] := by
  intro scope
  have before := neverFull.earlier.last scope
  have after := neverFull.last scope
  rw [← accurate.references_eq scope] at before
  rw [afterCall, live_concat_called] at after
  -- A reference that is taken is among the live ones afterwards, so that there was room for it.
  cases call with
  | register target holder handle =>
    by_cases takes : target = scope ∧ handle.scope = target
    · obtain ⟨rfl, bound⟩ := takes
      have more : referencesOn target ((target, holder) :: live story.outside) =
          referencesOn target (live story.outside) + 1 := by
        simp [referencesOn]
      rw [Call.liveAfter, if_pos bound, more, ← accurate.references_eq target] at after
      simpa [Call.takesOn, bound] using after
    · have idle : Call.takesOn scope (.register target holder handle) = false := by
        rcases not_and_or.mp takes with differ | differ <;> simp [Call.takesOn, differ]
      simpa [idle] using before
  | install | release | retire | releaseDomain | releaseAll | isRegistered | referenceCount
  | domainCount | scopes | isEmpty | policy => simpa [Call.takesOn] using before

/-- A call keeps the counts accurate, as long as there is room. -/
theorem call {story : Story μ} (accurate : Accurate story) (call : Call μ)
    (room : story.registry.HasRoom [call]) : Accurate (afterCall story call) where
  sound := accurate.sound.step call room
  roomy entry member := by
    rcases List.mem_append.mp member with old | new
    · exact accurate.roomy entry old
    · rw [List.mem_singleton.mp new]
      exact room
  counts scope domain := by
    have registry := toNat_domainCount_step accurate.sound call room scope domain
    have references := count_liveAfter (accurate.counts scope domain) call
    rw [afterCall, live_concat_called]
    rw [accurate.counts scope domain] at registry
    show ((story.registry.step call).registry.domainCount scope domain).toNat = _
    omega

/-- What is noted in the ledger changes no count. -/
theorem note {story : Story μ} (accurate : Accurate story)
    (entry : Metrics.Ledger → Metrics.Ledger) :
    Accurate (story.mapRegistry fun registry => registry.note entry) :=
  ⟨accurate.sound.note entry, accurate.roomy, accurate.counts⟩

/-- An entry that is no call changes no count. -/
theorem write {story : Story μ} (accurate : Accurate story) {entry : Entry μ}
    (other : ∀ found call, entry ≠ .called found call) (room : entry.HasRoom) :
    Accurate (write entry story) where
  sound := accurate.sound
  roomy old member := by
    rcases List.mem_append.mp member with old | new
    · exact accurate.roomy _ old
    · rwa [List.mem_singleton.mp new]
  counts scope domain := by
    show _ = (live (story.outside ++ [entry])).count (scope, domain)
    rw [live_concat_of_other _ other]
    exact accurate.counts scope domain

/-- Every event keeps the counts accurate, as long as no scope is full. -/
theorem stepwise :
    Stepwise fun _ (story : Story μ) => NeverFull story.outside → Accurate story where
  reorder _ h := h
  call call h neverFull := by
    have before := h neverFull.earlier
    exact before.call call (before.hasRoom neverFull)
  release retirement h neverFull :=
    ((h neverFull.earlier).note
      (·.noteRetirement retirement.handle.scope retirement.reason)).write (by simp) trivial
  handle scope handle _ h neverFull := (h neverFull.earlier).write (by simp) trivial
  note outcome h neverFull := (h neverFull).note (·.noteDispatch outcome)

end Accurate

/-- No arithmetic on references wraps around in a run in which fewer than `2 ^ 32` of them are live
on a scope at any moment, with calls nested in releases to any depth. Whenever a reference is taken,
its count has room for one more. Whenever one is dropped, its count is not zero. Whenever the counts
of a scope are added up, in whatever order this is done, no sum on the way is too large, and the
result is the sum over all domains. -/
theorem counts_never_wrap (script : Script μ) (depth : Nat) (policy : ReleasePolicy)
    (deeds : List (Deed μ)) (neverFull : NeverFull (tell script depth policy deeds).outside) :
    let story := tell script depth policy deeds
    (∀ found scope domain (handle : Handle μ),
      .called found (.register scope domain handle) ∈ story.outside → handle.scope = scope →
        (found.domainCount scope domain).toNat + 1 < 2 ^ 32) ∧
    (∀ found scope domain, .called found (.release scope domain) ∈ story.outside →
      domain ∈ found.holdings scope → 0 < (found.domainCount scope domain).toNat) ∧
    ∀ registry, (registry = story.registry ∨ ∃ call, .called registry call ∈ story.outside) →
      ∀ scope,
        (∀ order first : List (Domain × UInt32),
          order.Perm (registry.holdings scope).toList → first <+: order →
            (first.map fun entry => entry.2.toNat).sum < 2 ^ 32) ∧
        (Function.support fun domain => (registry.domainCount scope domain).toNat).Finite ∧
        (registry.referenceCount scope).toNat =
          ∑ᶠ domain, (registry.domainCount scope domain).toNat := by
  intro story
  have accurate : Accurate story :=
    Accurate.stepwise.holds script depth policy (fun _ => .start policy) deeds neverFull
  have orderly : Orderly story :=
    Orderly.stepwise.holds script depth policy (fun _ => .start policy) deeds accurate.roomy
  refine ⟨?_, ?_, ?_⟩
  · intro found scope domain handle entered bound
    have room : found.HasRoom [.register scope domain handle] := accurate.roomy _ entered
    have fits := room.register bound
    have least := Holdings.of_le_sum (found.holdings scope) domain
    show ((found.holdings scope).of domain).toNat + 1 < 2 ^ 32
    omega
  · intro found scope domain entered held
    have sound := orderly.found_sound found _ entered
    have some_held := sound.proper scope domain held
    rw [ne_eq, ← UInt32.toNat_inj, UInt32.toNat_zero] at some_held
    exact Nat.pos_of_ne_zero some_held
  · intro registry seen scope
    -- The last registry is not full, nor is one that had room for what a call takes.
    have small : registry.references scope < 2 ^ 32 := by
      rcases seen with rfl | ⟨call, entered⟩
      · rw [accurate.references_eq]
        exact neverFull.last scope
      · have room : registry.HasRoom [call] := accurate.roomy _ entered
        exact Nat.lt_of_le_of_lt (Nat.le_add_right _ _) (room scope)
    refine ⟨?_, Holdings.finite_support _, toNat_referenceCount small⟩
    intro order first listed before
    exact Nat.lt_of_le_of_lt (Holdings.sum_first_le _ listed before) small

/-- The middleware `0` leaves the wallet to an heir, who takes three references and drops one. -/
def nestedTakes : Script Nat where
  onHandle _ _ := []
  onRelease
    | 0, _ => [
      .call (.register ⟨Scope.wallet⟩ ⟨"heir"⟩ ⟨⟨Scope.wallet⟩, 1⟩),
      .call (.register ⟨Scope.wallet⟩ ⟨"heir"⟩ ⟨⟨Scope.wallet⟩, 2⟩),
      .call (.register ⟨Scope.wallet⟩ ⟨"heir"⟩ ⟨⟨Scope.wallet⟩, 3⟩),
      .call (.release ⟨Scope.wallet⟩ ⟨"heir"⟩)]
    | _, _ => []

/-- A guest comes and goes. -/
def guestLeaves : List (Deed Nat) :=
  [.call (.register ⟨Scope.wallet⟩ ⟨"guest"⟩ ⟨⟨Scope.wallet⟩, 0⟩),
   .call (.release ⟨Scope.wallet⟩ ⟨"guest"⟩)]

/-- The registry after that, in which the heir holds two references. -/
def nestedReferences : Registry Nat := (tell nestedTakes 1 .strict guestLeaves).registry

/-- Three references are taken within a release, and the first of the two drops that follow finds
one to drop. -/
theorem counts_never_wrap_of_nested :
    let story := tell nestedTakes 1 .strict
      (guestLeaves ++ [.call (.release ⟨Scope.wallet⟩ ⟨"heir"⟩)])
    NeverFull story.outside ∧
      .called nestedReferences (.release ⟨Scope.wallet⟩ ⟨"heir"⟩) ∈ story.outside ∧
      0 < (nestedReferences.domainCount ⟨Scope.wallet⟩ ⟨"heir"⟩).toNat ∧
      (nestedReferences.referenceCount ⟨Scope.wallet⟩).toNat =
        ∑ᶠ domain, (nestedReferences.domainCount ⟨Scope.wallet⟩ domain).toNat := by
  intro story
  have neverFull : NeverFull story.outside := neverFull_of_length_lt (by decide +kernel)
  have nobody_leaves :
      (nestedReferences.step (.release ⟨Scope.wallet⟩ ⟨"heir"⟩)).retired = [] := by
    decide +kernel
  have entered : .called nestedReferences (.release ⟨Scope.wallet⟩ ⟨"heir"⟩) ∈ story.outside := by
    show _ ∈ (World.settle (nestedTakes.behaviour 1).release
      (afterCall (tell nestedTakes 1 .strict guestLeaves) (.release ⟨Scope.wallet⟩ ⟨"heir"⟩))
      (nestedReferences.step (.release ⟨Scope.wallet⟩ ⟨"heir"⟩)).retired).outside
    rw [nobody_leaves]
    exact List.mem_append_right _ (List.mem_singleton.mpr rfl)
  obtain ⟨-, drops, sums⟩ := counts_never_wrap _ _ _ _ neverFull
  exact ⟨neverFull, entered, drops _ _ _ entered (by decide +kernel),
    (sums nestedReferences (Or.inr ⟨_, entered⟩) _).2.2⟩

end Chronicle

end Switchboard
