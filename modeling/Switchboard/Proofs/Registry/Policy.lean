import Switchboard.Proofs.Registry.Flat
import Switchboard.Stage

/-!
# `Switchboard.Proofs.Registry.Policy`: what the release policy changes

The policy is looked at in one place only, where a reference is released that nobody holds, and
there it decides about the answer alone. So a strict registry and a lenient one with the same
content stay in step: a call changes both in the same way (`registry_step_withPolicy`), retires the
same handles (`retired_step_withPolicy`), and is answered alike but for such a release
(`agree_step`).

`Alike` carries this over to worlds. Each of the two worlds has an order of its own in which it
releases handles that leave together, so that one may be ahead of the other: handles are due in
either world that were released in the other one. What is due makes no difference to calls
(`Alike.perform`), because it is only missing in the ledger and outside. When all of the handles are
released the worlds are even again, as long as those that call the registry back come in the same
order in both (`Alike.settle`). Dispatches follow from that (`Stage.Impartial.dispatch`).
-/

set_option autoImplicit false

namespace Switchboard

open Rpc

variable {ε μ : Type}

namespace Registry

/-- The registry under another policy. -/
def withPolicy (registry : Registry μ) (policy : ReleasePolicy) : Registry μ :=
  { registry with policy }

/-- The answers of a strict and a lenient registry of this content to a call. They are the same,
but for the release of a pair that has no reference, and when the policy itself is asked for. -/
def Agree (registry : Registry μ) : Call μ → (strict lenient : Answer) → Prop
  | .release scope domain, strict, lenient =>
    if domain ∈ registry.holdings scope then strict = lenient
    else strict = .failed (.unregisteredRelease scope domain) ∧ lenient = .flag false
  | .policy, strict, lenient => strict = .policy .strict ∧ lenient = .policy .lenient
  | _, strict, lenient => strict = lenient

variable (registry : Registry μ) (policy : ReleasePolicy)

/-! ### One call -/

/-- A slot is vacated in the same way under every policy. -/
theorem vacate_withPolicy (scope : Scope) (reason : Metrics.Reason) :
    (registry.withPolicy policy).vacate scope reason =
      ⟨(registry.vacate scope reason).registry.withPolicy policy,
        (registry.vacate scope reason).answer, (registry.vacate scope reason).retired⟩ := by
  unfold vacate withPolicy
  cases registry.handlers[scope]? <;> rfl

/-- Releases differ in their answers only, and only where the pair has no reference. -/
theorem release_withPolicy (scope : Scope) (domain : Domain) :
    (registry.withPolicy policy).release scope domain =
      ⟨(registry.release scope domain).registry.withPolicy policy,
        if domain ∈ registry.holdings scope then (registry.release scope domain).answer
          else unregistered policy scope domain,
        (registry.release scope domain).retired⟩ := by
  by_cases held : domain ∈ registry.holdings scope
  · have held_too : domain ∈ (registry.withPolicy policy).holdings scope := held
    rw [release_of_mem held, release_of_mem held_too, if_pos held]
    have same_last : (registry.withPolicy policy).lastReference scope domain =
        registry.lastReference scope domain := rfl
    rw [same_last]
    split
    · show ((((registry.withoutReference scope domain).withPolicy policy).vacate scope
        .lastReference).map Except.ok : Effect μ (Except Failure Bool)) = _
      rw [vacate_withPolicy]
      rfl
    · rfl
  · have absent_too : domain ∉ (registry.withPolicy policy).holdings scope := held
    rw [release_of_notMem held, release_of_notMem absent_too, if_neg held]
    rfl

/-- A call changes the content in the same way under every policy. -/
theorem registry_step_withPolicy (call : Call μ) :
    ((registry.withPolicy policy).step call).registry =
      (registry.step call).registry.withPolicy policy := by
  cases call with
  | register scope domain handle =>
    show ((registry.withPolicy policy).register scope domain handle).registry =
      (registry.register scope domain handle).registry.withPolicy policy
    unfold register
    split <;> rfl
  | install scope handle =>
    show ((registry.withPolicy policy).install scope handle).registry =
      (registry.install scope handle).registry.withPolicy policy
    unfold install
    split <;> rfl
  | release scope domain =>
    exact congrArg Effect.registry (registry.release_withPolicy policy scope domain)
  | retire scope =>
    let cleared : Registry μ := { registry with
      counts := registry.counts.erase scope
      pinned := registry.pinned.erase scope }
    exact congrArg Effect.registry (cleared.vacate_withPolicy policy scope .forced)
  | releaseDomain | releaseAll | isRegistered | referenceCount | domainCount | scopes | isEmpty
  | policy => rfl

/-- A call retires the same handles under every policy. -/
theorem retired_step_withPolicy (call : Call μ) :
    ((registry.withPolicy policy).step call).retired = (registry.step call).retired := by
  cases call with
  | register scope domain handle =>
    exact (retired_register _ scope domain handle).trans
      (registry.retired_register scope domain handle).symm
  | install scope handle =>
    exact (retired_install _ scope handle).trans (registry.retired_install scope handle).symm
  | release scope domain =>
    show ((registry.withPolicy policy).release scope domain).retired =
      (registry.release scope domain).retired
    rw [release_withPolicy]
  | retire scope => exact (retired_retire _ scope).trans (registry.retired_retire scope).symm
  | releaseDomain | releaseAll | isRegistered | referenceCount | domainCount | scopes | isEmpty
  | policy => rfl

/-- No call changes the policy. -/
theorem policy_step (call : Call μ) : (registry.step call).registry.policy = registry.policy := by
  have same := congrArg Registry.policy (registry.registry_step_withPolicy registry.policy call)
  exact same

/-- A call is answered alike under both policies. -/
theorem agree_step (strict : registry.policy = .strict) (call : Call μ) :
    registry.Agree call (registry.step call).answer
      ((registry.withPolicy .lenient).step call).answer := by
  cases call with
  | register scope domain handle =>
    show Answer.flag (registry.register scope domain handle).answer =
      Answer.flag ((registry.withPolicy .lenient).register scope domain handle).answer
    rw [answer_register, answer_register]
    rfl
  | install scope handle =>
    show Answer.flag (registry.install scope handle).answer =
      Answer.flag ((registry.withPolicy .lenient).install scope handle).answer
    rw [answer_install, answer_install]
    rfl
  | release scope domain =>
    -- Policies part only where a domain releases what it does not hold.
    have lenient : ((registry.withPolicy .lenient).step (.release scope domain)).answer =
        .ofRelease (if domain ∈ registry.holdings scope
          then (registry.release scope domain).answer else .ok false) :=
      congrArg (fun effect => Answer.ofRelease (Effect.answer effect))
        (registry.release_withPolicy .lenient scope domain)
    rw [lenient]
    show if domain ∈ registry.holdings scope then _ = _ else _ = _ ∧ _ = _
    by_cases held : domain ∈ registry.holdings scope
    · rw [if_pos held, if_pos held]
      rfl
    · rw [if_neg held, if_neg held]
      refine ⟨?_, rfl⟩
      show Answer.ofRelease (registry.release scope domain).answer = _
      rw [release_of_notMem held, strict]
      rfl
  | retire scope =>
    show Answer.flag (registry.retire scope).answer = Answer.flag _
    unfold retire vacate withPolicy
    cases registry.handlers[scope]? <;> rfl
  | policy => exact ⟨congrArg Answer.policy strict, rfl⟩
  | releaseDomain | releaseAll | isRegistered | referenceCount | domainCount | scopes | isEmpty =>
    rfl

/-- Retirements are entered into the ledger in the same way under every policy. -/
theorem finished_withPolicy (retired : List (Retirement μ)) :
    (registry.withPolicy policy).finished retired =
      (registry.finished retired).withPolicy policy := by
  induction retired generalizing registry with
  | nil => rfl
  | cons retirement rest ih =>
    exact ih (registry.note (·.noteRetirement retirement.handle.scope retirement.reason))

end Registry

/-! ### Worlds -/

/-- A strict world and a lenient one that are even but for some handles: `due` are still to be
released in the strict one, `due'` in the lenient one. The registries are the same as soon as these
are entered into their ledgers. What lies outside is related, and the relation knows who is due. -/
structure Alike (R : List (Retirement μ) → List (Retirement μ) → ε → ε → Prop)
    (due due' : List (Retirement μ)) (strict lenient : World ε μ) : Prop where
  policy : strict.registry.policy = .strict
  registry : lenient.registry.finished due' = (strict.registry.finished due).withPolicy .lenient
  outside : R due due' strict.outside lenient.outside

variable {R : List (Retirement μ) → List (Retirement μ) → ε → ε → Prop}

/-- Releases of a strict and a lenient world of which only some call the registry back. -/
structure Release.Impartial (R : List (Retirement μ) → List (Retirement μ) → ε → ε → Prop)
    (callsBack : μ → Bool) (onStrict onLenient : Release ε μ) : Prop where
  /-- A middleware that calls back does the same in both worlds. -/
  effect : ∀ {due due' strict lenient} middleware, callsBack middleware = true →
    Alike R due due' strict lenient →
      Alike R due due' (onStrict middleware strict) (onLenient middleware lenient)
  /-- Any other one may be due for a while in the strict world. -/
  strict : ∀ {due due' strict lenient} (retirement : Retirement μ),
    callsBack retirement.handle.middleware = false →
    Alike R (retirement :: due) due' strict lenient →
      Alike R due due' (strict.finish onStrict retirement) lenient
  /-- It may be due for a while in the lenient world. -/
  lenient : ∀ {due due' strict lenient} (retirement : Retirement μ),
    callsBack retirement.handle.middleware = false →
    Alike R due (retirement :: due') strict lenient →
      Alike R due due' strict (lenient.finish onLenient retirement)
  /-- The same handles can become due in both worlds, listed in any order. -/
  defer : ∀ {due due' more more' : List (Retirement μ)} {outside outside'}, more.Perm more' →
    R due due' outside outside' → R (more ++ due) (more' ++ due') outside outside'
  /-- Those that call back are released in the same order. -/
  arrange : ∀ {due due' strict lenient}, Alike R due due' strict lenient → ∀ retired,
    (onStrict.order.arrange strict retired).filter (callsBack ·.handle.middleware) =
      (onLenient.order.arrange lenient retired).filter (callsBack ·.handle.middleware)

/-- Stages of a strict and a lenient world that end in the same way and leave the worlds even. -/
def Stage.Impartial (R : List (Retirement μ) → List (Retirement μ) → ε → ε → Prop)
    (onStrict onLenient : Stage ε μ) : Prop :=
  ∀ request response {strict lenient}, Alike R [] [] strict lenient →
    (onStrict request response strict).result = (onLenient request response lenient).result ∧
      (onStrict request response strict).response =
        (onLenient request response lenient).response ∧
      Alike R [] [] (onStrict request response strict).world
        (onLenient request response lenient).world

namespace Alike

variable {due due' : List (Retirement μ)} {strict lenient : World ε μ}

/-- Worlds that are even have the same registry under two policies. -/
theorem registry_eq (alike : Alike R [] [] strict lenient) :
    lenient.registry = strict.registry.withPolicy .lenient :=
  alike.registry

/-- What commutes with retirements can be entered into both ledgers. -/
theorem note {entry : Metrics.Ledger → Metrics.Ledger} (movable : Metrics.Ledger.Movable entry)
    (alike : Alike R due due' strict lenient) :
    Alike R due due' (strict.mapRegistry (·.note entry)) (lenient.mapRegistry (·.note entry)) where
  policy := alike.policy
  registry := by
    show (lenient.registry.note entry).finished due' = _
    rw [Registry.finished_note movable, alike.registry]
    exact congrArg (Registry.withPolicy · .lenient) (Registry.finished_note movable _ due).symm
  outside := alike.outside

/-- What lies outside may change as long as it stays related. -/
theorem mapOutside (alike : Alike R due due' strict lenient) (change change' : ε → ε)
    (related : R due due' (change strict.outside) (change' lenient.outside)) :
    Alike R due due' (strict.mapOutside change) (lenient.mapOutside change') :=
  ⟨alike.policy, alike.registry, related⟩

/-- A call is answered alike and retires the same handles, whatever is due. -/
theorem step (alike : Alike R due due' strict lenient) (call : Call μ) :
    strict.registry.Agree call (strict.registry.step call).answer
        (lenient.registry.step call).answer ∧
      (lenient.registry.step call).retired = (strict.registry.step call).retired ∧
      Alike R due due' ⟨(strict.registry.step call).registry, strict.outside⟩
        ⟨(lenient.registry.step call).registry, lenient.outside⟩ := by
  -- The call is made in registries in which all that is due has been entered.
  let done := strict.registry.finished due
  have on_strict := strict.registry.step_finished due call
  have on_lenient := lenient.registry.step_finished due' call
  rw [alike.registry] at on_lenient
  have policy : done.policy = .strict := by
    obtain ⟨ledger, same⟩ := strict.registry.finished_eq due
    exact (congrArg Registry.policy same).trans alike.policy
  refine ⟨?_, ?_, (strict.registry.policy_step call).trans alike.policy, ?_, alike.outside⟩
  · have agree := done.agree_step policy call
    rw [on_strict, on_lenient] at agree
    obtain ⟨ledger, same⟩ := strict.registry.finished_eq due
    have content : done.Agree call = strict.registry.Agree call := by
      show (strict.registry.finished due).Agree call = _
      rw [same]
      cases call <;> rfl
    rwa [content] at agree
  · have retired := done.retired_step_withPolicy .lenient call
    rwa [on_strict, on_lenient] at retired
  · have registry := done.registry_step_withPolicy .lenient call
    rwa [on_strict, on_lenient] at registry

variable {callsBack : μ → Bool} {onStrict onLenient : Release ε μ}
  (impartial : onStrict.Impartial R callsBack onLenient)

include impartial

/-- What is due in the lenient world alone is released. -/
theorem finishAll_lenient {retired : List (Retirement μ)}
    (none_calls : ∀ retirement ∈ retired, callsBack retirement.handle.middleware = false)
    (alike : Alike R due (retired ++ due') strict lenient) :
    Alike R due due' strict (lenient.finishAll onLenient retired) := by
  induction retired generalizing lenient with
  | nil => exact alike
  | cons retirement rest ih =>
    have now := impartial.lenient retirement (none_calls retirement List.mem_cons_self) alike
    exact ih (fun other member => none_calls other (List.mem_cons_of_mem _ member)) now

/-- Handles are released in two orders in which those that call back come alike. The others are due
as long as it takes. -/
theorem finishAll {retired retired' : List (Retirement μ)}
    (same : retired.filter (callsBack ·.handle.middleware) =
      retired'.filter (callsBack ·.handle.middleware))
    (alike : Alike R (retired.filter (!callsBack ·.handle.middleware) ++ due)
      (retired'.filter (!callsBack ·.handle.middleware) ++ due') strict lenient) :
    Alike R due due' (strict.finishAll onStrict retired)
      (lenient.finishAll onLenient retired') := by
  -- The strict world goes first. The lenient one catches up with the next that calls back.
  induction retired generalizing retired' strict lenient with
  | nil =>
    have none_calls : ∀ retirement ∈ retired', callsBack retirement.handle.middleware = false := by
      simpa using same.symm
    have all_due : retired'.filter (!callsBack ·.handle.middleware) = retired' := by
      rw [List.filter_eq_self]
      intro retirement member
      rw [none_calls retirement member, Bool.not_false]
    rw [all_due] at alike
    exact finishAll_lenient impartial none_calls alike
  | cons retirement rest ih =>
    cases calls : callsBack retirement.handle.middleware with
    | false =>
      rw [List.filter_cons_of_neg (by rw [calls]; simp)] at same
      rw [List.filter_cons_of_pos (by rw [calls]; rfl)] at alike
      exact ih same (impartial.strict retirement calls alike)
    | true =>
      rw [List.filter_cons_of_pos (by rw [calls])] at same
      rw [List.filter_cons_of_neg (by rw [calls]; simp)] at alike
      obtain ⟨before, after, rfl, none_before, -, same_after⟩ :=
        List.filter_eq_cons_iff.mp same.symm
      have none_calls : ∀ other ∈ before, callsBack other.handle.middleware = false := by
        simpa using none_before
      have all_due : before.filter (!callsBack ·.handle.middleware) = before := by
        rw [List.filter_eq_self]
        intro other member
        rw [none_calls other member, Bool.not_false]
      rw [List.filter_append, List.filter_cons_of_neg (by rw [calls]; simp), all_due,
        List.append_assoc] at alike
      have even := finishAll_lenient impartial none_calls alike
      have both := impartial.effect retirement.handle.middleware calls (even.note
        (Metrics.Ledger.movable_noteRetirement retirement.handle.scope retirement.reason))
      have later := ih same_after.symm both
      rw [World.finishAll_append]
      exact later

/-- Handles that leave together are released, in the order of either world. -/
theorem settle (retired : List (Retirement μ)) (alike : Alike R due due' strict lenient) :
    Alike R due due' (strict.settle onStrict retired) (lenient.settle onLenient retired) := by
  let first := onStrict.order.arrange strict retired
  let second := onLenient.order.arrange lenient retired
  have same : first.Perm second :=
    (onStrict.order.perm strict retired).trans (onLenient.order.perm lenient retired).symm
  have others := same.filter (!callsBack ·.handle.middleware)
  -- All that do not call back are due at first.
  have deferred : Alike R (first.filter (!callsBack ·.handle.middleware) ++ due)
      (second.filter (!callsBack ·.handle.middleware) ++ due') strict lenient := by
    refine ⟨alike.policy, ?_, impartial.defer others alike.outside⟩
    rw [Registry.finished_perm _ List.perm_append_comm, Registry.finished_append, alike.registry,
      strict.registry.finished_perm List.perm_append_comm, Registry.finished_append,
      Registry.finished_perm _ others.symm]
    exact Registry.finished_withPolicy _ _ _
  exact finishAll impartial (impartial.arrange alike retired) deferred

/-- A call is answered alike and leaves the worlds as even as they were. -/
theorem perform (alike : Alike R due due' strict lenient) (call : Call μ) :
    strict.registry.Agree call (strict.perform onStrict call).1
        (lenient.perform onLenient call).1 ∧
      Alike R due due' (strict.perform onStrict call).2 (lenient.perform onLenient call).2 := by
  obtain ⟨agree, retired, after⟩ := alike.step call
  refine ⟨agree, ?_⟩
  show Alike R due due' (World.settle onStrict _ (strict.registry.step call).retired)
    (World.settle onLenient _ (lenient.registry.step call).retired)
  rw [retired]
  exact after.settle impartial _

end Alike

/-! ### Stages -/

namespace Stage.Impartial

/-- The stage that does nothing. -/
theorem idle : (Stage.idle : Stage ε μ).Impartial R Stage.idle :=
  fun _ _ {_ _} alike => ⟨rfl, rfl, alike⟩

/-- The stage behind all handlers looks at the request and the response only. -/
theorem methodNotFound : (Stage.methodNotFound : Stage ε μ).Impartial R Stage.methodNotFound :=
  fun _ _ {_ _} alike => ⟨rfl, rfl, alike⟩

/-- A stage that is run several times, up to its first failure. -/
theorem times {onStrict onLenient : Stage ε μ} (impartial : onStrict.Impartial R onLenient)
    (n : Nat) : (onStrict.times n).Impartial R (onLenient.times n) := by
  induction n with
  | zero => exact idle
  | succ n ih =>
    intro request response strict lenient alike
    obtain ⟨result, answer, worlds⟩ := impartial request response alike
    unfold Stage.times
    simp only [← result, ← answer]
    cases ended : (onStrict request response strict).result with
    | ok _ => exact ih request _ worlds
    | error failure => exact ⟨result, answer, worlds⟩

/-- A dispatch chooses the same handler in both worlds, and is counted under the same outcome. -/
theorem dispatch {onStrict onLenient : Behaviour ε μ} {next next' : Stage ε μ}
    (handles : ∀ middleware,
      (onStrict.handle middleware next).Impartial R (onLenient.handle middleware next'))
    (impartial : next.Impartial R next') :
    (Stage.dispatch onStrict next).Impartial R (Stage.dispatch onLenient next') := by
  intro request response strict lenient alike
  -- The policy has no say in who serves a scope.
  have choice : Stage.chosen? lenient.registry request = Stage.chosen? strict.registry request := by
    rw [alike.registry_eq]
    rfl
  unfold Stage.dispatch
  simp only [choice]
  cases Stage.chosen? strict.registry request with
  | none =>
    obtain ⟨result, answer, worlds⟩ := impartial request response alike
    refine ⟨result, answer, ?_⟩
    simp only [← result]
    exact worlds.note (Metrics.Ledger.movable_noteDispatch _)
  | some handle =>
    obtain ⟨result, answer, worlds⟩ := handles handle.middleware request response alike
    refine ⟨result, answer, ?_⟩
    simp only [← result]
    exact worlds.note (Metrics.Ledger.movable_noteDispatch _)

end Stage.Impartial

end Switchboard
