import Mathlib.Data.Set.Card
import Switchboard.Proofs.Registry.Departures
import Switchboard.Proofs.Registry.Owing

/-!
# `Switchboard.Proofs.Registry.Bulk`: the release of a domain, one step at a time

The release of a domain drops all of its references at once. Here it is compared with two slower
ways to the same end.

`Registry.sweep` visits the holdings one scope after another, in any order, and then clears the
scopes on which nobody is left. `sweep_eq` says that the order does not matter.

The domain can also drop its references one by one, as often on each scope as it holds any and in
any order of the scopes. `Reachable.releaseDomain_eq_releases` says that this leaves the same
registry, but for the ledger's count of single releases, and lets the same handlers go.
-/

set_option autoImplicit false

namespace Switchboard

open Metrics

variable {μ : Type}

namespace Registry

/-! ### Scope by scope -/

/-- How far the visits to the scopes have come. -/
structure Sweep (μ : Type) where
  registry : Registry μ
  /-- The number of scopes on which the domain was listed. -/
  touched : Nat
  /-- Scopes on which nobody is listed any more. They have still got their entries. -/
  emptied : List Scope

/-- A visit to the holdings on a scope takes the domain off the list there. -/
def Sweep.visit (domain : Domain) (sweep : Sweep μ) (scope : Scope) : Sweep μ :=
  let held := sweep.registry.holdings scope
  if held.contains domain then
    let left := held.erase domain
    { registry := { sweep.registry with counts := sweep.registry.counts.insert scope left }
      touched := sweep.touched + 1
      emptied := if left.isEmpty then sweep.emptied ++ [scope] else sweep.emptied }
  else sweep

/-- The registry without the entry of a scope. -/
def unlisted (registry : Registry μ) (scope : Scope) : Registry μ :=
  { registry with counts := registry.counts.erase scope }

/-- A scope on which nobody is listed loses its entry, and its handler leaves unless the scope is
pinned. -/
def clear (effect : Effect μ Nat) (scope : Scope) : Effect μ Nat :=
  let left := effect.registry.unlisted scope
  if effect.registry.pinned.contains scope then { effect with registry := left }
  else
    let vacated := left.vacate scope .lastReference
    { effect with registry := vacated.registry, retired := effect.retired ++ vacated.retired }

/-- The release of a domain by visits to scopes in a given order. -/
def sweep (registry : Registry μ) (domain : Domain) (visited : List Scope) : Effect μ Nat :=
  let swept := visited.foldl (Sweep.visit domain) ⟨registry, 0, []⟩
  swept.emptied.foldl clear { registry := swept.registry, answer := swept.touched }

/-- What has changed when some of the scopes have been visited. -/
structure Swept (origin : Registry μ) (domain : Domain) (visited : List Scope) (sweep : Sweep μ) :
    Prop where
  others : sweep.registry = { origin with counts := sweep.registry.counts }
  counts : ∀ scope, sweep.registry.counts[scope]? =
    if scope ∈ visited ∧ domain ∈ origin.holdings scope
    then some ((origin.holdings scope).erase domain) else origin.counts[scope]?
  touched : sweep.touched = visited.countP fun scope => domain ∈ origin.holdings scope
  emptied : sweep.emptied = visited.filter fun scope => (origin.holdings scope).onlyHeldBy domain

/-- A scope is visited that was not visited before. -/
theorem Swept.visit {origin : Registry μ} {domain : Domain} {visited : List Scope}
    {sweep : Sweep μ} (swept : Swept origin domain visited sweep) {scope : Scope}
    (fresh : scope ∉ visited) :
    Swept origin domain (visited ++ [scope]) (sweep.visit domain scope) := by
  -- Nothing has been changed on the scope before it is visited.
  have untouched : sweep.registry.counts[scope]? = origin.counts[scope]? := by
    rw [swept.counts, if_neg fun both => fresh both.1]
  have held_eq : sweep.registry.holdings scope = origin.holdings scope := by
    rw [holdings, untouched, holdings]
  unfold Sweep.visit
  rw [held_eq]
  by_cases held : domain ∈ origin.holdings scope
  · have listed : (origin.holdings scope).contains domain = true := held
    refine (if_pos listed).symm ▸ ⟨?_, fun other => ?_, ?_, ?_⟩
    · rw [swept.others]
    · rw [Std.ExtTreeMap.getElem?_insert]
      by_cases here : scope = other
      · subst here
        simp [held]
      · simp [here, Ne.symm here, swept.counts]
    · rw [List.countP_append, ← swept.touched]
      simp [held]
    · rw [List.filter_append, ← swept.emptied]
      cases none_left : ((origin.holdings scope).erase domain).isEmpty <;>
        simp [Holdings.onlyHeldBy, listed, none_left]
  · have not_listed : (origin.holdings scope).contains domain = false :=
      Bool.eq_false_of_not_eq_true held
    refine (if_neg held).symm ▸ ⟨swept.others, fun other => ?_, ?_, ?_⟩
    · rw [swept.counts]
      by_cases here : other = scope
      · subst here
        simp [held]
      · simp [here]
    · rw [List.countP_append, ← swept.touched]
      simp [held]
    · rw [List.filter_append, ← swept.emptied]
      simp [Holdings.onlyHeldBy, not_listed]

/-- Scopes are visited one after another, each of them once. -/
theorem swept_foldl (origin : Registry μ) (domain : Domain) {visited : List Scope}
    (once : visited.Nodup) :
    Swept origin domain visited (visited.foldl (Sweep.visit domain) ⟨origin, 0, []⟩) := by
  induction visited using List.reverseRecOn with
  | nil => exact ⟨rfl, fun scope => by simp, rfl, rfl⟩
  | append_singleton earlier scope ih =>
    rw [List.foldl_append]
    have apart := List.nodup_append.mp once
    exact (ih apart.1).visit fun member =>
      apart.2.2 scope member scope (List.mem_singleton.mpr rfl) rfl

/-- What has changed when some scopes have been cleared. -/
structure Cleared (origin : Registry μ) (answer : Nat) (emptied : List Scope)
    (effect : Effect μ Nat) : Prop where
  others : effect.registry = { origin with
    handlers := effect.registry.handlers
    counts := effect.registry.counts }
  counts : ∀ scope, effect.registry.counts[scope]? =
    if scope ∈ emptied then none else origin.counts[scope]?
  occupants : ∀ scope, effect.registry.handler? scope =
    if scope ∈ emptied ∧ scope ∉ origin.pinned then none else origin.handler? scope
  answer : effect.answer = answer
  reason : ∀ retirement ∈ effect.retired, retirement.reason = .lastReference
  /-- Nobody is lost. -/
  conserved : origin.handlers.values.Perm
    (effect.registry.handlers.values ++ effect.retired.map (·.handle))

/-- The occupant of a slot goes with it, and nobody is lost. -/
theorem values_vacate_perm (registry : Registry μ) (scope : Scope) (reason : Reason) :
    registry.handlers.values.Perm ((registry.vacate scope reason).registry.handlers.values ++
      (registry.vacate scope reason).retired.map (·.handle)) := by
  have occupant : (registry.vacate scope reason).retired.map (·.handle) =
      registry.handlers[scope]?.toList := by
    rw [retired_vacate, List.map_map]
    exact List.map_id _
  rw [occupant, handlers_vacate]
  exact (values_perm_erase registry.handlers scope).trans List.perm_append_comm

/-- One more scope is cleared. -/
theorem Cleared.clear {origin : Registry μ} {answer : Nat} {emptied : List Scope}
    {effect : Effect μ Nat} (cleared : Cleared origin answer emptied effect) (scope : Scope) :
    Cleared origin answer (emptied ++ [scope]) (clear effect scope) := by
  let left := effect.registry.unlisted scope
  have pinned : effect.registry.pinned = origin.pinned := by
    rw [cleared.others]
  have counts (other : Scope) : left.counts[other]? =
      if other ∈ emptied ++ [scope] then none else origin.counts[other]? := by
    show (effect.registry.counts.erase scope)[other]? = _
    rw [Std.ExtTreeMap.getElem?_erase, cleared.counts]
    by_cases here : scope = other
    · simp [here]
    · simp [here, Ne.symm here]
  have others : left = { origin with handlers := left.handlers, counts := left.counts } := by
    show effect.registry.unlisted scope = _
    rw [cleared.others]
    rfl
  unfold Registry.clear
  -- On a pinned scope the references go and the handler stays.
  by_cases pin : effect.registry.pinned.contains scope = true
  · rw [if_pos pin]
    refine ⟨others, counts, fun other => ?_, cleared.answer, cleared.reason, cleared.conserved⟩
    refine (cleared.occupants other).trans ?_
    have pinned_origin : scope ∈ origin.pinned := pinned ▸ pin
    by_cases here : other = scope
    · simp [here, pinned_origin]
    · simp [here]
  · rw [if_neg pin]
    -- Without a pin the handler goes as well, and joins those that have left.
    let vacated := left.vacate scope .lastReference
    have unpinned : scope ∉ origin.pinned := pinned ▸ pin
    refine ⟨?_, fun other => ?_, fun other => ?_, cleared.answer, ?_, ?_⟩
    · show vacated.registry = _
      rw [registry_vacate, others]
    · show vacated.registry.counts[other]? = _
      rw [counts_vacate]
      exact counts other
    · show vacated.registry.handlers[other]? = _
      rw [handlers_vacate, Std.ExtTreeMap.getElem?_erase]
      by_cases here : scope = other
      · subst here
        simp [unpinned]
      · refine (if_neg (by simpa using here)).trans ((cleared.occupants other).trans ?_)
        simp [Ne.symm here]
    · intro retirement member
      rcases List.mem_append.mp member with earlier | now
      · exact cleared.reason retirement earlier
      · rw [retired_vacate] at now
        obtain ⟨handle, -, rfl⟩ := List.mem_map.mp now
        rfl
    · have now := left.values_vacate_perm scope .lastReference
      show origin.handlers.values.Perm (vacated.registry.handlers.values ++
        (effect.retired ++ vacated.retired).map (·.handle))
      refine cleared.conserved.trans ((now.append_right _).trans ?_)
      rw [List.map_append, List.append_assoc]
      exact List.perm_append_comm.append_left _

/-- Scopes are cleared one after another. -/
theorem cleared_foldl (effect : Effect μ Nat) (none_yet : effect.retired = [])
    (emptied : List Scope) :
    Cleared effect.registry effect.answer emptied (emptied.foldl clear effect) := by
  induction emptied using List.reverseRecOn with
  | nil => exact ⟨rfl, fun _ => by simp, fun _ => by simp, rfl, by simp [none_yet],
      by simp [none_yet]⟩
  | append_singleton earlier scope ih =>
    rw [List.foldl_append]
    exact ih.clear scope

section AnyOrder

variable (registry : Registry μ) (domain : Domain) {visited : List Scope}

/-- How far a sweep has come when all of its visits are made and nothing is cleared yet. -/
def visits (visited : List Scope) : Sweep μ :=
  visited.foldl (Sweep.visit domain) ⟨registry, 0, []⟩

/-- The second half of a sweep clears the scopes on which the visits left nobody. -/
theorem cleared_sweep (visited : List Scope) :
    Cleared (registry.visits domain visited).registry (registry.visits domain visited).touched
      (registry.visits domain visited).emptied (registry.sweep domain visited) :=
  cleared_foldl
    { registry := (registry.visits domain visited).registry
      answer := (registry.visits domain visited).touched } rfl _

variable (all : visited.Perm registry.counts.keys)

include all

/-- Every scope with an entry is visited once. -/
theorem swept_visits : Swept registry domain visited (registry.visits domain visited) :=
  registry.swept_foldl domain (all.nodup_iff.mpr Std.ExtTreeMap.nodup_keys)

/-- What was visited is what is listed, in whatever order. -/
theorem mem_visited_iff (scope : Scope) : scope ∈ visited ↔ scope ∈ registry.counts :=
  all.mem_iff.trans Std.ExtTreeMap.mem_keys

/-- The visits leave nobody on the scopes on which the domain was alone. -/
theorem mem_emptied_iff (scope : Scope) :
    scope ∈ (registry.visits domain visited).emptied ↔
      (registry.holdings scope).onlyHeldBy domain = true := by
  rw [(registry.swept_visits domain all).emptied, List.mem_filter, registry.mem_visited_iff all]
  refine and_iff_right_of_imp fun only => ?_
  rw [Holdings.onlyHeldBy, Bool.and_eq_true] at only
  exact mem_counts_of_mem_holdings only.1

/-- The handlers that stay are the same. -/
theorem handlers_sweep :
    (registry.sweep domain visited).registry.handlers =
      (registry.releaseDomain domain).registry.handlers := by
  have visits := registry.swept_visits domain all
  apply Std.ExtTreeMap.ext_getElem?
  intro scope
  refine ((registry.cleared_sweep domain visited).occupants scope).trans ?_
  show _ = (registry.releaseDomain domain).registry.handler? scope
  have same : (registry.visits domain visited).registry.handler? scope =
      registry.handler? scope := by
    rw [visits.others]
    rfl
  have pinned : (registry.visits domain visited).registry.pinned = registry.pinned := by
    rw [visits.others]
  rw [handler?_releaseDomain, same, pinned]
  simp only [registry.mem_emptied_iff domain all, dependsOn, Bool.and_eq_true, Bool.not_eq_true',
    Std.ExtTreeSet.mem_iff_contains, Bool.not_eq_true]

/-- The counts are the same. -/
theorem counts_sweep :
    (registry.sweep domain visited).registry.counts =
      (registry.releaseDomain domain).registry.counts := by
  apply Std.ExtTreeMap.ext_getElem?
  intro scope
  have listed_iff : scope ∈ registry.counts ∧ domain ∈ registry.holdings scope ↔
      domain ∈ registry.holdings scope :=
    and_iff_right_of_imp mem_counts_of_mem_holdings
  rw [(registry.cleared_sweep domain visited).counts, (registry.swept_visits domain all).counts]
  simp only [registry.mem_emptied_iff domain all, registry.mem_visited_iff all, listed_iff]
  show _ = (registry.counts.filterMap _)[scope]?
  rw [Std.ExtTreeMap.getElem?_filterMap', holdings]
  cases registry.counts[scope]? with
  | none => simp
  | some held =>
    by_cases here : domain ∈ held
    · simp [here]
    · have not_listed : held.onlyHeldBy domain = false := by
        simp [Holdings.onlyHeldBy, here]
      have same : held.erase domain = held := erase_eq_self (Std.ExtTreeMap.getElem?_eq_none here)
      simp [here, not_listed, same]

/-- A sweep changes nothing but handlers and counts. -/
theorem registry_sweep :
    (registry.sweep domain visited).registry = (registry.releaseDomain domain).registry := by
  calc (registry.sweep domain visited).registry
    _ = { registry with
          handlers := (registry.sweep domain visited).registry.handlers
          counts := (registry.sweep domain visited).registry.counts } :=
      (registry.cleared_sweep domain visited).others.trans
        (by rw [(registry.swept_visits domain all).others])
    _ = (registry.releaseDomain domain).registry := by
      rw [registry.handlers_sweep domain all, registry.counts_sweep domain all]
      rfl

/-- The visits that count are those to the scopes on which the domain is listed. -/
theorem answer_sweep :
    (registry.sweep domain visited).answer = (registry.releaseDomain domain).answer := by
  have once : visited.Nodup := all.nodup_iff.mpr Std.ExtTreeMap.nodup_keys
  have same : (visited.filter fun scope => domain ∈ registry.holdings scope).Perm
      (registry.counts.filter fun _ held => held.contains domain).keys := by
    rw [List.perm_ext_iff_of_nodup (once.filter _) Std.ExtTreeMap.nodup_keys]
    intro scope
    rw [mem_keys_filter_contains, List.mem_filter, registry.mem_visited_iff all,
      decide_eq_true_eq]
    exact and_iff_right_of_imp mem_counts_of_mem_holdings
  rw [(registry.cleared_sweep domain visited).answer, (registry.swept_visits domain all).touched,
    List.countP_eq_length_filter, same.length_eq, Std.ExtTreeMap.length_keys]
  rfl

/-- Whoever does not stay leaves, so the same handlers leave, all with the last reference. -/
theorem retired_sweep_perm :
    (registry.sweep domain visited).retired.Perm (registry.releaseDomain domain).retired := by
  have bulk := registry.handlers_step_perm (.releaseDomain domain)
  rw [accepted?_of_handle?_eq_none _ rfl, Option.toList_none, List.nil_append] at bulk
  have swept := (registry.cleared_sweep domain visited).conserved
  have unchanged : (registry.visits domain visited).registry.handlers = registry.handlers := by
    rw [(registry.swept_visits domain all).others]
  rw [unchanged, registry.handlers_sweep domain all] at swept
  exact perm_of_reason (registry.cleared_sweep domain visited).reason
    (fun retirement leaves => ((mem_retired_releaseDomain registry domain _).mp leaves).1)
    ((List.perm_append_left_iff _).mp (swept.symm.trans bulk))

end AnyOrder

/-- A release of a domain does the same in whatever order the scopes are visited. Only the handlers
may leave in another order. -/
theorem sweep_eq (registry : Registry μ) (domain : Domain) {visited : List Scope}
    (all : visited.Perm registry.counts.keys) :
    (registry.sweep domain visited).registry = (registry.releaseDomain domain).registry ∧
      (registry.sweep domain visited).answer = (registry.releaseDomain domain).answer ∧
      (registry.sweep domain visited).retired.Perm (registry.releaseDomain domain).retired :=
  ⟨registry.registry_sweep domain all, registry.answer_sweep domain all,
    registry.retired_sweep_perm domain all⟩

/-! ### Reference by reference -/

section References

variable {registry : Registry μ} {domain : Domain} {order : List Scope}

/-- A domain holds all references that are to be released, as many on a scope as it is listed. -/
def HoldsEach (registry : Registry μ) (domain : Domain) (order : List Scope) : Prop :=
  ∀ scope, order.count scope ≤ (registry.domainCount scope domain).toNat

/-- The first reference to be released is held. -/
theorem HoldsEach.head {scope : Scope} (holds : registry.HoldsEach domain (scope :: order)) :
    domain ∈ registry.holdings scope := by
  apply Holdings.mem_of_of_ne_zero
  intro none_held
  have enough := holds scope
  rw [domainCount, none_held, List.count_cons_self, UInt32.toNat_zero] at enough
  omega

/-- The others are still held when the first one was released. -/
theorem HoldsEach.tail {scope : Scope} (holds : registry.HoldsEach domain (scope :: order))
    (sound : registry.Sound) : (registry.release scope domain).registry.HoldsEach domain order := by
  intro other
  have enough := holds other
  have less := sound.toNat_domainCount_release domain scope other domain
  rw [List.count_cons] at enough
  by_cases here : scope = other
  · subst here
    simp only [beq_self_eq_true, if_true, true_and] at enough less
    omega
  · simp only [beq_iff_eq, here, Ne.symm here, if_false, false_and] at enough less
    omega

/-- No release fails as long as there is something to release. -/
theorem HoldsEach.answers (holds : registry.HoldsEach domain order) (sound : registry.Sound) :
    ∃ replies : List Bool, (registry.flat (releases domain order)).1 = replies.map .flag := by
  induction order generalizing registry with
  | nil => exact ⟨[], rfl⟩
  | cons scope rest ih =>
    -- The first release is of a reference that is held, and leaves enough for the others.
    obtain ⟨replies, later⟩ := ih (holds.tail sound) (sound.release scope domain)
    have reply := registry.answer_release scope domain
    rw [if_pos holds.head] at reply
    refine ⟨(registry.lastReference scope domain && (registry.handler? scope).isSome) ::
      replies, ?_⟩
    rw [releases, List.map_cons, answers_flat_cons]
    show Answer.ofRelease (registry.release scope domain).answer ::
      (flat (registry.release scope domain).registry (releases domain rest)).1 = _
    rw [reply, later]
    rfl

/-- Releases of references that are held are counted as releases, and enter nothing else. -/
theorem HoldsEach.ledger (holds : registry.HoldsEach domain order) (sound : registry.Sound) :
    ∃ counted, (registry.after (releases domain order)).ledger =
      { registry.ledger with releases := counted } := by
  induction order generalizing registry with
  | nil => exact ⟨_, rfl⟩
  | cons scope rest ih =>
    obtain ⟨counted, later⟩ := ih (holds.tail sound) (sound.release scope domain)
    have first : (registry.release scope domain).registry.ledger =
        registry.ledger.noteRelease scope :=
      (registry.ledger_step (.release scope domain)).trans (if_pos holds.head)
    refine ⟨counted, later.trans ?_⟩
    rw [first]
    rfl

/-- Whoever leaves by a release leaves with the last reference. -/
theorem reason_of_releases (domain : Domain) (order : List Scope) :
    ∀ call ∈ releases domain order, ∀ registry : Registry μ,
      ∀ retirement ∈ (registry.step call).retired, retirement.reason = .lastReference := by
  intro call member registry retirement leaves
  obtain ⟨scope, -, rfl⟩ := List.mem_map.mp member
  change retirement ∈ (registry.release scope domain).retired at leaves
  rw [retired_release] at leaves
  split at leaves
  · obtain ⟨handle, -, rfl⟩ := List.mem_map.mp leaves
    rfl
  · exact absurd leaves List.not_mem_nil

/-- It does not matter to retirements what the count of releases is. -/
theorem finished_withReleases (registry : Registry μ) (counted : Counter)
    (retired : List (Retirement μ)) :
    finished { registry with ledger := { registry.ledger with releases := counted } } retired =
      { registry.finished retired with
        ledger := { (registry.finished retired).ledger with releases := counted } } := by
  induction retired generalizing registry with
  | nil => rfl
  | cons retirement rest ih =>
    exact ih (registry.note (·.noteRetirement retirement.handle.scope retirement.reason))

section All

variable (sound : registry.Sound)
  (each : ∀ scope, order.count scope = (registry.domainCount scope domain).toNat)

include sound each

/-- When all references of a domain have been released one by one, the maps are those after the
release of the domain. -/
theorem Sound.after_releases_eq : ∃ counted,
    registry.after (releases domain order) =
      { (registry.releaseDomain domain).registry with
        ledger := { registry.ledger with releases := counted } } := by
  let single := registry.after (releases domain order)
  let bulk := (registry.releaseDomain domain).registry
  have sound_single : single.Sound := sound.after_releases domain order
  have sound_bulk : bulk.Sound := sound.releaseDomain domain
  have pinned : single.pinned = bulk.pinned := pinned_after_releases domain order
  -- All references of the domain are gone either way, and nobody else's are touched.
  have counts : single.counts = bulk.counts := by
    refine sound_single.counts_eq sound_bulk fun scope holder => UInt32.toNat_inj.mp ?_
    rw [sound.toNat_domainCount_after_releases domain order, domainCount_releaseDomain, each]
    by_cases same : holder = domain
    · rw [if_pos same, if_pos same, same, Nat.sub_self]
      rfl
    · rw [if_neg same, if_neg same, Nat.sub_zero]
  have passes_none : ∀ call ∈ [Call.releaseDomain (μ := μ) domain], call.handle? = none :=
    passes_none_of_singleton rfl
  -- Where counts and pins are the same, the same slots are occupied, and by those who were there.
  have handlers : single.handlers = bulk.handlers :=
    handlers_eq_of_counts_eq sound_single sound_bulk
      (fun _ _ => handler?_of_after (passes_none_of_releases domain order))
      (fun _ _ => handler?_of_after passes_none) counts pinned
  have holds : registry.HoldsEach domain order := fun scope => Nat.le_of_eq (each scope)
  obtain ⟨counted, ledger⟩ := holds.ledger sound
  exact ⟨counted, Registry.ext (registry.policy_after _) handlers counts pinned ledger⟩

/-- The same handlers leave, all of them with their last reference. -/
theorem Sound.departures_releases_perm :
    (registry.departures (releases domain order)).Perm (registry.releaseDomain domain).retired := by
  obtain ⟨counted, same⟩ := sound.after_releases_eq each
  have stay : (registry.after (releases domain order)).handlers =
      (registry.after [.releaseDomain domain]).handlers := by
    rw [same]
    rfl
  have handles := departures_perm (passes_none_of_releases domain order)
    (passes_none_of_singleton rfl) stay
  refine perm_of_reason (reason_of_mem_departures (reason_of_releases domain order) registry)
    (fun retirement leaves => ((mem_retired_releaseDomain registry domain _).mp leaves).1) ?_
  rwa [departures_singleton] at handles

/-- The registry after all releases, with the retirements entered. -/
theorem Sound.registry_flat_releases :
    let single := (registry.flat (releases domain order)).2
    let bulk := (registry.releaseDomain domain).registry.finished
      (registry.releaseDomain domain).retired
    single = { bulk with ledger := { bulk.ledger with releases := single.ledger.releases } } := by
  intro single bulk
  obtain ⟨counted, same⟩ := sound.after_releases_eq each
  have whole : single =
      { bulk with ledger := { bulk.ledger with releases := counted } } := by
    calc single
      _ = (registry.after (releases domain order)).finished
            (registry.departures (releases domain order)) := registry.registry_flat _
      _ = (registry.after (releases domain order)).finished
            (registry.releaseDomain domain).retired :=
        finished_perm _ (sound.departures_releases_perm each)
      _ = { bulk with ledger := { bulk.ledger with releases := counted } } := by
        rw [same]
        exact finished_withReleases (registry.releaseDomain domain).registry counted _
  have count : single.ledger.releases = counted := congrArg (·.ledger.releases) whole
  rw [count]
  exact whole

end All

end References

/-- The release of a domain answers with the number of scopes on which the domain has a count. -/
theorem Sound.answer_releaseDomain_eq_ncard {registry : Registry μ} (sound : registry.Sound)
    (domain : Domain) :
    (registry.releaseDomain domain).answer =
      {scope | 0 < registry.domainCount scope domain}.ncard := by
  let listed := (registry.counts.keys.filter (registry.domainCount · domain ≠ 0)).toFinset
  -- A domain with a count on a scope has an entry there.
  have among (scope : Scope) : scope ∈ listed ↔ registry.domainCount scope domain ≠ 0 := by
    rw [List.mem_toFinset, List.mem_filter, decide_eq_true_eq, Std.ExtTreeMap.mem_keys]
    refine and_iff_right_of_imp fun held => ?_
    exact mem_counts_of_mem_holdings (Holdings.mem_of_of_ne_zero held)
  have same : {scope | 0 < registry.domainCount scope domain} = ↑listed := by
    ext scope
    show 0 < _ ↔ scope ∈ listed
    rw [among]
    exact UInt32.pos_iff_ne_zero
  rw [same, Set.ncard_coe_finset]
  exact sound.answer_releaseDomain among

/-- Those whom a call removes were in different slots. -/
theorem Sound.nodup_scopes_removed {registry : Registry μ} (sound : registry.Sound) (call : Call μ)
    (passes_none : call.handle? = none) : ((registry.removed call).map (·.scope)).Nodup := by
  have conserved := (registry.handlers_step_perm call).map (·.scope)
  rw [accepted?_of_handle?_eq_none _ passes_none, Option.toList_none, List.nil_append] at conserved
  have apart := conserved.nodup_iff.mp sound.nodup_scopes
  rw [List.map_append, List.nodup_append] at apart
  exact apart.2.1

end Registry

namespace Chronicle

/-- A sweep in a story comes to the same as the release of the domain, if those who leave have
nothing to do. -/
theorem run_sweep_of_quiet {script : Script μ} (depth : Nat) {story : Story μ} (domain : Domain)
    (quiet : ∀ retirement ∈ (story.registry.releaseDomain domain).retired, ∀ entries,
      script.onRelease retirement.handle.middleware entries = [])
    {visited : List Scope} (all : visited.Perm story.registry.counts.keys) :
    let bulk := story.registry.releaseDomain domain
    let swept := story.run (script.behaviour depth).release (·.sweep domain visited)
    swept.1 = bulk.answer ∧ swept.2.registry = bulk.registry.finished bulk.retired ∧
      LetGo story (bulk.retired.map (·.handle)) swept.2 := by
  intro bulk swept
  let sweep := story.registry.sweep domain visited
  obtain ⟨same, answer, leave⟩ := story.registry.sweep_eq domain all
  -- Whoever leaves by the sweep leaves by the release of the domain as well.
  obtain ⟨arranged, perm, ran⟩ := settle_inert depth
    (fun retirement leaves => quiet retirement (leave.mem_iff.mp leaves))
    (⟨sweep.registry, story.outside⟩ : Story μ)
  change swept.2 = _ at ran
  refine ⟨answer, ?_, arranged.map (·.handle), (perm.trans leave).map _, ?_⟩
  · rw [ran]
    show sweep.registry.finished sweep.retired = _
    rw [same]
    exact Registry.finished_perm _ leave
  · have entered := released_map_released (arranged.map (·.handle.middleware))
    rw [List.map_map] at entered
    rw [ran, released_append, List.map_map]
    exact congrArg _ entered

/-- The release of a domain in any story that can be reached, as long as those who leave have
nothing to do. It is compared with single releases of all references that the domain holds, in any
order of the scopes.

Both leave the same registry and the same ledger, but for the count of single releases, and let the
same handlers go, once each. None of the single releases fails, and the release of the domain is
answered with the number of scopes that it held. If the scopes are visited one after another, their
order makes no difference. -/
theorem Reachable.releaseDomain_eq_releases {script : Script μ} {depth : Nat}
    {policy : ReleasePolicy} {story : Story μ} (reachable : Reachable script depth policy story)
    (roomy : Roomy story.outside) (inert : script.InertIn story.registry) (domain : Domain)
    (order : List Scope)
    (each : ∀ scope, order.count scope = (story.registry.domainCount scope domain).toNat) :
    let bulk := Chronicle.act (script.behaviour depth) story (.call (.releaseDomain domain))
    let single := run (script.behaviour depth) story
      ((Registry.releases domain order).map .call)
    let scopes := {scope | 0 < story.registry.domainCount scope domain}
    single.registry = { bulk.registry with
      ledger := { bulk.registry.ledger with releases := single.registry.ledger.releases } } ∧
    (∃ replies : List Bool, answers single.outside = answers story.outside ++ replies.map .flag) ∧
    answers bulk.outside = answers story.outside ++ [.count scopes.ncard] ∧
    ∃ gone : List (Handle μ),
      (∀ handle ∈ gone, story.registry.handler? handle.scope = some handle) ∧
      (gone.map (·.scope)).Nodup ∧
      LetGo story gone bulk ∧ LetGo story gone single ∧
      ∀ visited : List Scope, visited.Perm story.registry.counts.keys →
        let swept := story.run (script.behaviour depth).release (·.sweep domain visited)
        swept.1 = scopes.ncard ∧ swept.2.registry = bulk.registry ∧ LetGo story gone swept.2 := by
  intro bulk single scopes
  have sound := (reachable.settled roomy).sound
  let effect := story.registry.releaseDomain domain
  let calls : List (Call μ) := Registry.releases domain order
  have holds : story.registry.HoldsEach domain order := fun scope => Nat.le_of_eq (each scope)
  have passes_none : ∀ call ∈ [Call.releaseDomain (μ := μ) domain], call.handle? = none :=
    Registry.passes_none_of_singleton rfl
  have quiet_bulk := inert.departures passes_none
  have quiet_single := inert.departures (Registry.passes_none_of_releases domain order)
  -- As those who leave have nothing to do, both runs are the calls one after another.
  have ran_single : Runs calls story single := run_calls_of_quiet depth quiet_single
  have ran_bulk : Runs [.releaseDomain domain] story bulk := run_calls_of_quiet depth quiet_bulk
  have departed : story.registry.departures [.releaseDomain domain] = effect.retired :=
    Registry.departures_singleton _ _
  have registry : bulk.registry = effect.registry.finished effect.retired :=
    ran_bulk.registry_of_singleton
  have number : effect.answer = scopes.ncard := sound.answer_releaseDomain_eq_ncard domain
  refine ⟨?_, ?_, ?_, effect.retired.map (·.handle), fun handle leaves => ?_, ?_, ?_, ?_,
    fun visited all => ?_⟩
  · rw [registry, ran_single.registry]
    exact sound.registry_flat_releases each
  · obtain ⟨replies, answered⟩ := holds.answers sound
    exact ⟨replies, by rw [ran_single.answers, answered]⟩
  · rw [ran_bulk.answers, ← number]
    rfl
  · have removed : handle ∈ story.registry.removed (.releaseDomain domain) := leaves
    exact (sound.ends_of_mem_removed removed).1
  · exact sound.nodup_scopes_removed (.releaseDomain domain) rfl
  · exact ran_bulk.letGo (.of_eq (congrArg _ departed))
  · exact ran_single.letGo ((sound.departures_releases_perm each).map (·.handle))
  · rw [departed] at quiet_bulk
    obtain ⟨answer, same, let_go⟩ := run_sweep_of_quiet depth domain quiet_bulk all
    exact ⟨answer.trans number, same.trans registry.symm, let_go⟩

/-- A guest holds two references on a wallet, and shares another scope with somebody else. -/
def twoScopesHeld : Story Nat :=
  tell .silent 0 .strict
    [.call (.register ⟨Scope.wallet⟩ ⟨"guest"⟩ ⟨⟨Scope.wallet⟩, 0⟩),
     .call (.register ⟨"eip155:5"⟩ ⟨"guest"⟩ ⟨⟨"eip155:5"⟩, 1⟩),
     .call (.register ⟨Scope.wallet⟩ ⟨"guest"⟩ ⟨⟨Scope.wallet⟩, 2⟩),
     .call (.register ⟨"eip155:5"⟩ ⟨"host"⟩ ⟨⟨"eip155:5"⟩, 3⟩)]

/-- The guest's handler leaves the wallet, and the shared scope keeps its own. -/
theorem releaseDomain_eq_releases_of_two_scopes :
    let order : List Scope := [⟨Scope.wallet⟩, ⟨"eip155:5"⟩, ⟨Scope.wallet⟩]
    let bulk := act (Script.silent.behaviour 0) twoScopesHeld (.call (.releaseDomain ⟨"guest"⟩))
    let single := run (Script.silent.behaviour 0) twoScopesHeld
      ((Registry.releases ⟨"guest"⟩ order).map .call)
    Roomy twoScopesHeld.outside ∧
      (∀ scope, order.count scope = (twoScopesHeld.registry.domainCount scope ⟨"guest"⟩).toNat) ∧
      single.registry.handlers = bulk.registry.handlers ∧
      single.registry.ledger.retirements = bulk.registry.ledger.retirements ∧
      released single.outside = [0] ∧ released bulk.outside = [0] := by
  intro order bulk single
  have roomy : Roomy twoScopesHeld.outside := roomy_of_length_lt _ _ _ _ (by decide +kernel)
  have each (scope : Scope) :
      order.count scope = (twoScopesHeld.registry.domainCount scope ⟨"guest"⟩).toNat := by
    by_cases wallet : scope = ⟨Scope.wallet⟩
    · subst wallet
      decide +kernel
    by_cases five : scope = ⟨"eip155:5"⟩
    · subst five
      decide +kernel
    -- On other scopes nobody holds anything.
    have listed : twoScopesHeld.registry.counts.keys = [⟨"eip155:5"⟩, ⟨Scope.wallet⟩] := by
      decide +kernel
    have absent : scope ∉ twoScopesHeld.registry.counts := by
      rw [← Std.ExtTreeMap.mem_keys, listed]
      simp [wallet, five]
    rw [Registry.domainCount, Registry.holdings, Std.ExtTreeMap.getElem?_eq_none absent,
      Option.getD_none, Holdings.of_empty, UInt32.toNat_zero]
    simp [order, Ne.symm wallet, Ne.symm five]
  have reachable : Reachable .silent 0 .strict twoScopesHeld := reachable_run .start _
  obtain ⟨same, -, -, -⟩ := reachable.releaseDomain_eq_releases roomy (fun _ _ _ _ => rfl)
    ⟨"guest"⟩ order each
  exact ⟨roomy, each, (congrArg (·.handlers) same).trans rfl,
    (congrArg (·.ledger.retirements) same).trans rfl, by decide +kernel, by decide +kernel⟩

end Chronicle

end Switchboard
