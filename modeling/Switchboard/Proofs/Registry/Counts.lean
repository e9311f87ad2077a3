import Mathlib.Data.List.DropRight
import Switchboard.Proofs.Registry.Room

/-!
# `Switchboard.Proofs.Registry.Counts`: counts are what the chronicle says

`Chronicle.taken` counts the references that a domain took on a scope and `Chronicle.dropped` those
that it dropped, both since the scope was last retired or the domain released. The main result,
`domainCount_eq_taken_sub_dropped`, says that the registry's own count is the difference, whatever
was done in between and however releases were nested.
-/

set_option autoImplicit false

namespace Switchboard

variable {μ : Type}

namespace Chronicle

namespace Entry

/-- A registration that is accepted and takes a reference for a domain on a scope. -/
def takes (scope : Scope) (domain : Domain) : Entry μ → Bool
  | .called _ (.register target holder handle) =>
    decide (target = scope) && decide (holder = domain) && decide (handle.scope = scope)
  | _ => false

/-- A release for a domain on a scope that lowers the domain's count. -/
def drops (scope : Scope) (domain : Domain) : Entry μ → Bool
  | .called found (.release target holder) =>
    decide (target = scope) && decide (holder = domain) &&
      decide ((found.release scope domain).registry.domainCount scope domain <
        found.domainCount scope domain)
  | _ => false

/-- A call that takes all references of a domain on a scope away. -/
def resets (scope : Scope) (domain : Domain) : Entry μ → Bool
  | .called _ (.retire target) => decide (target = scope)
  | .called _ (.releaseDomain holder) => decide (holder = domain)
  | .called _ .releaseAll => true
  | _ => false

end Entry

/-- What happened since the references of a domain on a scope were last taken away. -/
def since (scope : Scope) (domain : Domain) (entries : List (Entry μ)) : List (Entry μ) :=
  entries.rtakeWhile fun entry => !entry.resets scope domain

/-- The references that a domain took on a scope since they were last taken away. -/
def taken (scope : Scope) (domain : Domain) (entries : List (Entry μ)) : Nat :=
  (since scope domain entries).countP (·.takes scope domain)

/-- The references that a domain dropped on a scope since they were last taken away. -/
def dropped (scope : Scope) (domain : Domain) (entries : List (Entry μ)) : Nat :=
  (since scope domain entries).countP (·.drops scope domain)

/-! ### What one entry adds -/

/-- One more entry is added to what came since the last reset, or is a reset itself. -/
theorem since_concat (scope : Scope) (domain : Domain) (entries : List (Entry μ))
    (entry : Entry μ) :
    since scope domain (entries ++ [entry]) =
      if entry.resets scope domain then [] else since scope domain entries ++ [entry] := by
  unfold since
  rw [List.rtakeWhile_concat]
  cases entry.resets scope domain <;> simp

/-- One more entry takes a reference, or does not, or is a reset. -/
theorem taken_concat (scope : Scope) (domain : Domain) (entries : List (Entry μ))
    (entry : Entry μ) :
    taken scope domain (entries ++ [entry]) =
      if entry.resets scope domain then 0
      else taken scope domain entries + if entry.takes scope domain then 1 else 0 := by
  unfold taken
  rw [since_concat]
  cases entry.resets scope domain <;> simp [List.countP_append, List.countP_cons]

/-- One more entry drops a reference, or does not, or is a reset. -/
theorem dropped_concat (scope : Scope) (domain : Domain) (entries : List (Entry μ))
    (entry : Entry μ) :
    dropped scope domain (entries ++ [entry]) =
      if entry.resets scope domain then 0
      else dropped scope domain entries + if entry.drops scope domain then 1 else 0 := by
  unfold dropped
  rw [since_concat]
  cases entry.resets scope domain <;> simp [List.countP_append, List.countP_cons]

/-! ### What one call does to a count -/

/-- A release lowers the count exactly if there is something to drop. -/
theorem drops_release_iff (found : Registry μ) (scope : Scope) (domain : Domain) :
    (Entry.called found (.release scope domain)).drops scope domain = true ↔
      found.domainCount scope domain ≠ 0 := by
  simp only [Entry.drops, decide_true, Bool.true_and, decide_eq_true_eq]
  rw [Registry.domainCount_release]
  simp only [and_self, true_and]
  constructor
  · intro less none_held
    rw [none_held] at less
    exact absurd less (UInt32.not_lt_zero)
  · intro some_held
    have less := Holdings.toNat_of_sub_one (found.holdings scope) domain some_held
    rw [if_pos (Holdings.mem_of_of_ne_zero some_held), UInt32.lt_iff_toNat_lt]
    exact Nat.lt_of_succ_le (Nat.le_of_eq less)

/-- An accepted registration is one that adds to a count, and it adds to no other. -/
theorem toNat_domainCount_register {found : Registry μ} (target : Scope) (holder : Domain)
    (handle : Handle μ) (room : found.HasRoom [.register target holder handle]) (scope : Scope)
    (domain : Domain) :
    ((found.register target holder handle).registry.domainCount scope domain).toNat =
      (found.domainCount scope domain).toNat +
        if (Entry.called found (.register target holder handle)).takes scope domain then 1
        else 0 := by
  unfold Entry.takes
  by_cases bound : handle.scope = target
  · rw [Registry.domainCount_register bound]
    by_cases same : scope = target ∧ domain = holder
    · obtain ⟨rfl, rfl⟩ := same
      have more : (found.domainCount scope domain + 1).toNat
          = (found.domainCount scope domain).toNat + 1 :=
        Holdings.toNat_of_add_one _ domain (room.register bound)
      rw [if_pos ⟨rfl, rfl⟩, more]
      simp [bound]
    · rw [if_neg same]
      have other : ¬(target = scope ∧ holder = domain) := fun both =>
        same ⟨both.1.symm, both.2.symm⟩
      rcases not_and_or.mp other with differ | differ <;> simp [differ]
  · -- A refused handle takes nothing, also not on the scope that it is bound to.
    rw [Registry.register_of_ne bound]
    by_cases same : target = scope
    · rw [same] at bound
      simp only [bound, decide_false, Bool.and_false, Bool.false_eq_true, if_false]
      rfl
    · simp only [same, decide_false, Bool.false_and, Bool.false_eq_true, if_false]
      rfl

/-- A release takes off the reference that it drops, and leaves other counts alone. -/
theorem toNat_domainCount_release {found : Registry μ} (sound : found.Sound) (target : Scope)
    (holder : Domain) (scope : Scope) (domain : Domain) :
    ((found.release target holder).registry.domainCount scope domain).toNat +
        (if (Entry.called found (.release target holder)).drops scope domain then 1 else 0) =
      (found.domainCount scope domain).toNat := by
  rw [Registry.domainCount_release]
  by_cases same : target = scope ∧ holder = domain
  · obtain ⟨rfl, rfl⟩ := same
    by_cases held : holder ∈ found.holdings target
    · have some_held := sound.proper target holder held
      rw [if_pos ⟨⟨rfl, rfl⟩, held⟩, if_pos ((drops_release_iff found target holder).mpr some_held)]
      exact Holdings.toNat_of_sub_one _ _ some_held
    · have none_held := Holdings.of_eq_zero_of_notMem held
      rw [if_neg (fun both => held both.2), if_neg]
      · rfl
      · rw [drops_release_iff]
        exact fun some_held => some_held none_held
  · rw [if_neg (fun all => same ⟨all.1.1.symm, all.1.2.symm⟩)]
    rcases not_and_or.mp same with differ | differ <;> simp [Entry.drops, differ]

/-- The count of a domain after one call: references taken are added, dropped ones taken off, and
nothing is left after a reset. -/
theorem toNat_domainCount_step {found : Registry μ} (sound : found.Sound) (call : Call μ)
    (room : found.HasRoom [call]) (scope : Scope) (domain : Domain) :
    ((found.step call).registry.domainCount scope domain).toNat +
        (if (Entry.called found call).drops scope domain then 1 else 0) =
      if (Entry.called found call).resets scope domain then 0
      else (found.domainCount scope domain).toNat +
        if (Entry.called found call).takes scope domain then 1 else 0 := by
  -- Registrations and releases are `toNat_domainCount_register` and `toNat_domainCount_release`;
  -- the others reset the count or leave it.
  cases call with
  | register target holder handle =>
    exact toNat_domainCount_register target holder handle room scope domain
  | install target handle =>
    show ((found.install target handle).registry.domainCount scope domain).toNat = _
    by_cases bound : handle.scope = target
    · rw [Registry.install_of_eq bound]
      rfl
    · rw [Registry.install_of_ne bound]
      rfl
  | release target holder => exact toNat_domainCount_release sound target holder scope domain
  | retire target =>
    show ((found.retire target).registry.domainCount scope domain).toNat = _
    rw [Registry.domainCount_retire]
    simp only [Entry.resets, decide_eq_true_eq]
    by_cases same : scope = target
    · rw [if_pos same, if_pos same.symm]
      rfl
    · rw [if_neg same, if_neg (Ne.symm same)]
      rfl
  | releaseDomain holder =>
    show ((found.releaseDomain holder).registry.domainCount scope domain).toNat = _
    rw [Registry.domainCount_releaseDomain]
    simp only [Entry.resets, decide_eq_true_eq]
    by_cases same : domain = holder
    · rw [if_pos same, if_pos same.symm]
      rfl
    · rw [if_neg same, if_neg (Ne.symm same)]
      rfl
  | releaseAll =>
    show (found.releaseAll.registry.domainCount scope domain).toNat = 0
    rw [Registry.domainCount_releaseAll]
    rfl
  | isRegistered | referenceCount | domainCount | scopes | isEmpty | policy => rfl

/-! ### Whole runs -/

/-- The counts of a registry are those of its chronicle. -/
structure Counted (story : Story μ) : Prop where
  sound : story.registry.Sound
  small : ∀ scope, story.registry.references scope < 2 ^ 32
  exact_count : ∀ scope domain,
    (story.registry.domainCount scope domain).toNat + dropped scope domain story.outside
      = taken scope domain story.outside
  releases : ∀ before found scope domain after,
    story.outside = before ++ .called found (.release scope domain) :: after →
      ((Entry.called found (.release scope domain)).drops scope domain = true ↔
        dropped scope domain before < taken scope domain before)

namespace Counted

/-- At first nothing was taken and nothing was dropped. -/
theorem start (policy : ReleasePolicy) : Counted (⟨.empty policy, []⟩ : Story μ) where
  sound := .empty policy
  small scope := by simp [Registry.references, Registry.holdings, Registry.empty]
  exact_count scope domain := by
    simp [Registry.domainCount, Registry.holdings, Registry.empty, taken, dropped, since]
  releases before found scope domain after same := by simp at same

/-- A call keeps the counts right, as long as there is room. -/
theorem call {story : Story μ} (counted : Counted story) (call : Call μ)
    (room : story.registry.HasRoom [call]) : Counted (afterCall story call) where
  sound := counted.sound.step call room
  small := counted.sound.references_step_lt call room
  exact_count scope domain := by
    -- What the call does to the count is what its entry does to the difference.
    have step := toNat_domainCount_step counted.sound call room scope domain
    have old := counted.exact_count scope domain
    show _ + dropped scope domain (story.outside ++ [.called story.registry call])
      = taken scope domain (story.outside ++ [.called story.registry call])
    rw [taken_concat, dropped_concat]
    by_cases reset : (Entry.called story.registry call).resets scope domain = true
    · rw [if_pos reset] at step ⊢
      rw [if_pos reset]
      show ((story.registry.step call).registry.domainCount scope domain).toNat = 0
      omega
    · rw [if_neg reset] at step ⊢
      rw [if_neg reset]
      show ((story.registry.step call).registry.domainCount scope domain).toNat + _ = _
      omega
  releases before found scope domain after same := by
    rcases eq_or_of_concat_eq_append same with ⟨-, this_call, rfl⟩ | ⟨rest, -, earlier⟩
    · -- The release is the call just made, and the count that it found is the difference.
      obtain ⟨rfl, rfl⟩ := Entry.called.inj this_call
      have old := counted.exact_count scope domain
      rw [drops_release_iff, ne_eq, ← UInt32.toNat_inj, UInt32.toNat_zero]
      omega
    · exact counted.releases before found scope domain rest earlier

/-- What is noted in the ledger changes no count. -/
theorem note {story : Story μ} (counted : Counted story)
    (entry : Metrics.Ledger → Metrics.Ledger) :
    Counted (story.mapRegistry fun registry => registry.note entry) :=
  ⟨counted.sound.note entry, counted.small, counted.exact_count, counted.releases⟩

/-- An entry that is no call changes no count. -/
theorem write {story : Story μ} (counted : Counted story) {entry : Entry μ}
    (other : ∀ found call, entry ≠ .called found call) : Counted (write entry story) where
  sound := counted.sound
  small := counted.small
  exact_count scope domain := by
    have old := counted.exact_count scope domain
    show _ + dropped scope domain (story.outside ++ [entry])
      = taken scope domain (story.outside ++ [entry])
    rw [taken_concat, dropped_concat]
    cases entry with
    | called found call => exact absurd rfl (other found call)
    | handled | released | asked => exact old
  releases before found scope domain after same := by
    rcases eq_or_of_concat_eq_append same with ⟨-, this_call, -⟩ | ⟨rest, -, earlier⟩
    · exact absurd this_call (other found _)
    · exact counted.releases before found scope domain rest earlier

/-- Every event keeps the counts right, as long as there is room. -/
theorem stepwise :
    Stepwise fun _ (story : Story μ) => Roomy story.outside → Counted story where
  reorder _ h := h
  call call h roomy := (h roomy.earlier).call call roomy.last
  release retirement h roomy :=
    ((h roomy.earlier).note
      (·.noteRetirement retirement.handle.scope retirement.reason)).write (by simp)
  handle scope handle _ h roomy := (h roomy.earlier).write (by simp)
  note outcome h roomy := (h roomy).note (·.noteDispatch outcome)

end Counted

/-! ### Exact counts -/

/-- The references of all domains, as the registry adds them up, are the sum over all domains. -/
theorem toNat_referenceCount {registry : Registry μ} {scope : Scope}
    (small : registry.references scope < 2 ^ 32) :
    (registry.referenceCount scope).toNat
      = ∑ᶠ domain, (registry.domainCount scope domain).toNat := by
  rw [Registry.referenceCount, Holdings.toNat_total _ small, Holdings.sum_eq_finsum]
  rfl

/-- Counts are exact after every run, with calls nested in releases to any depth and under either
policy. The count of a domain on a scope is the number of references it took less the number it
dropped, both since the last call that took them all away. A release drops a reference exactly if
that number was positive when it began. The count of the scope is the sum over all domains, of which
finitely many hold references. -/
theorem domainCount_eq_taken_sub_dropped (script : Script μ) (depth : Nat)
    (policy : ReleasePolicy) (deeds : List (Deed μ))
    (roomy : Roomy (tell script depth policy deeds).outside) :
    let story := tell script depth policy deeds
    (∀ scope domain,
      dropped scope domain story.outside ≤ taken scope domain story.outside ∧
      (story.registry.domainCount scope domain).toNat =
        taken scope domain story.outside - dropped scope domain story.outside) ∧
    (∀ before found scope domain after,
      story.outside = before ++ .called found (.release scope domain) :: after →
        ((Entry.called found (.release scope domain)).drops scope domain = true ↔
          0 < taken scope domain before - dropped scope domain before)) ∧
    ∀ scope,
      (Function.support fun domain => (story.registry.domainCount scope domain).toNat).Finite ∧
      (story.registry.referenceCount scope).toNat =
        ∑ᶠ domain, (story.registry.domainCount scope domain).toNat := by
  intro story
  have counted : Counted story :=
    Counted.stepwise.holds script depth policy (fun _ => .start policy) deeds roomy
  refine ⟨fun scope domain => ?_, fun before found scope domain after same => ?_, fun scope => ?_⟩
  · -- The count and what was dropped make up what was taken, so the difference is not cut off.
    have count := counted.exact_count scope domain
    omega
  · rw [counted.releases before found scope domain after same]
    omega
  · exact ⟨Holdings.finite_support _, toNat_referenceCount (counted.small scope)⟩

/-- The middleware `0` is succeeded by `1`, which holds the wallet for another domain. -/
def registersSuccessor : Script Nat where
  onHandle _ _ := []
  onRelease
    | 0, _ => [.call (.register ⟨Scope.wallet⟩ ⟨"heir"⟩ ⟨⟨Scope.wallet⟩, 1⟩)]
    | _, _ => []

/-- A domain that takes a reference and drops it, and tries to drop it again. -/
def releasedTwice : List (Deed Nat) :=
  [.call (.register ⟨Scope.wallet⟩ ⟨"guest"⟩ ⟨⟨Scope.wallet⟩, 0⟩),
   .call (.release ⟨Scope.wallet⟩ ⟨"guest"⟩),
   .call (.release ⟨Scope.wallet⟩ ⟨"guest"⟩)]

/-- The second release of the guest does not count, and the successor's reference does. -/
theorem domainCount_of_released_twice :
    let story := tell registersSuccessor 1 .strict releasedTwice
    Roomy story.outside ∧
      taken ⟨Scope.wallet⟩ ⟨"guest"⟩ story.outside = 1 ∧
      dropped ⟨Scope.wallet⟩ ⟨"guest"⟩ story.outside = 1 ∧
      (story.registry.domainCount ⟨Scope.wallet⟩ ⟨"guest"⟩).toNat = 1 - 1 ∧
      (story.registry.domainCount ⟨Scope.wallet⟩ ⟨"heir"⟩).toNat = 1 - 0 := by
  intro story
  have roomy : Roomy story.outside := roomy_of_length_lt _ _ _ _ (by decide +kernel)
  have counts := (domainCount_eq_taken_sub_dropped registersSuccessor 1 .strict _ roomy).1
  have guest_took : taken ⟨Scope.wallet⟩ ⟨"guest"⟩ story.outside = 1 := by decide +kernel
  have guest_dropped : dropped ⟨Scope.wallet⟩ ⟨"guest"⟩ story.outside = 1 := by decide +kernel
  have heir_took : taken ⟨Scope.wallet⟩ ⟨"heir"⟩ story.outside = 1 := by decide +kernel
  have heir_dropped : dropped ⟨Scope.wallet⟩ ⟨"heir"⟩ story.outside = 0 := by decide +kernel
  refine ⟨roomy, guest_took, guest_dropped, ?_, ?_⟩
  · refine (counts _ _).2.trans ?_
    rw [guest_took, guest_dropped]
  · refine (counts _ _).2.trans ?_
    rw [heir_took, heir_dropped]

end Chronicle

end Switchboard
