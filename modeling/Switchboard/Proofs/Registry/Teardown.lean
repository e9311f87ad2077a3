import Switchboard.Proofs.Registry.Departures

/-!
# `Switchboard.Proofs.Registry.Teardown`: everything is removed, at once or scope by scope

`releaseAll` clears the three maps of a registry. The same can be done by retiring every scope that
has a handler, in any order. A retirement only finds scopes with a handler, so the two agree because
references and pins never are without one (`Registry.Staffed`).

`Attainable.releaseAll_eq_retires` says so for all stories, also where counts have wrapped around:
the registry is the same, with its ledger, the same handlers are released, and the answer is the
number of scopes that were retired. After that the registry is as good as new, and whatever is left
to remove is nothing.
-/

set_option autoImplicit false

namespace Switchboard

variable {μ : Type}

namespace Registry

/-- The retirements of scopes, one after another. -/
def retires (scopes : List Scope) : List (Call μ) := scopes.map .retire

/-- Retirements pass no handles. -/
theorem passes_none_of_retires (scopes : List Scope) (call : Call μ)
    (member : call ∈ retires scopes) : call.handle? = none := by
  obtain ⟨scope, -, rfl⟩ := List.mem_map.mp member
  rfl

/-- Whoever leaves by a retirement was forced to. -/
theorem reason_of_retires (scopes : List Scope) :
    ∀ call ∈ retires scopes, ∀ registry : Registry μ,
      ∀ retirement ∈ (registry.step call).retired, retirement.reason = .forced := by
  intro call member registry retirement leaves
  obtain ⟨scope, -, rfl⟩ := List.mem_map.mp member
  change retirement ∈ (registry.retire scope).retired at leaves
  rw [retired_retire] at leaves
  obtain ⟨handle, -, rfl⟩ := List.mem_map.mp leaves
  rfl

/-- What retirements leave: the scopes are removed from all maps, and the ledger has no entry of
it yet. -/
structure Retired (origin : Registry μ) (scopes : List Scope) (registry : Registry μ) : Prop where
  ledger : registry.ledger = origin.ledger
  occupants : ∀ scope, registry.handler? scope =
    if scope ∈ scopes then none else origin.handler? scope
  counts : ∀ scope, scope ∈ registry.counts ↔ scope ∉ scopes ∧ scope ∈ origin.counts
  pinned : ∀ scope, scope ∈ registry.pinned ↔ scope ∉ scopes ∧ scope ∈ origin.pinned

/-- After a row of retirements, these scopes have nothing left and the others are as they were. -/
theorem retired_after (registry : Registry μ) (scopes : List Scope) :
    Retired registry scopes (registry.after (retires scopes)) := by
  induction scopes generalizing registry with
  | nil => exact ⟨rfl, fun _ => rfl, fun _ => by simp [retires], fun _ => by simp [retires]⟩
  | cons scope rest ih =>
    have later : Retired (registry.retire scope).registry rest
        (registry.after (retires (scope :: rest))) := ih _
    refine ⟨later.ledger.trans (registry.ledger_step (.retire scope)), fun other => ?_,
      fun other => ?_, fun other => ?_⟩
    · rw [later.occupants, handler?_retire]
      by_cases here : other = scope <;> simp [here]
    · rw [later.counts, mem_counts_retire, List.mem_cons, not_or]
      tauto
    · rw [later.pinned, mem_pinned_retire, List.mem_cons, not_or]
      tauto

section All

variable {registry : Registry μ} {order : List Scope}

/-- When every scope with a handler has been retired, nothing is left. -/
theorem Staffed.after_retires (staffed : registry.Staffed)
    (all : order.Perm registry.scopes) :
    registry.after (retires order) = registry.releaseAll.registry := by
  have retired := registry.retired_after order
  have among (scope : Scope) : scope ∈ order ↔ (registry.handler? scope).isSome := by
    rw [all.mem_iff, mem_scopes_iff, isRegistered, contains_handlers]
  have handlers : (registry.after (retires order)).handlers = ∅ := by
    apply Std.ExtTreeMap.ext_getElem?
    intro scope
    show (registry.after (retires order)).handler? scope = _
    rw [retired.occupants, Std.ExtTreeMap.getElem?_empty]
    split
    · rfl
    · rename_i absent
      rwa [among, Option.not_isSome_iff_eq_none] at absent
  -- References and pins are found only where there is a handler, and nothing is left there.
  have counts : (registry.after (retires order)).counts = ∅ := by
    rw [Std.ExtTreeMap.eq_empty_iff_forall_not_mem]
    intro scope listed
    obtain ⟨absent, before⟩ := (retired.counts scope).mp listed
    exact absent ((among scope).mpr ((staffed.occupied scope).mpr (Or.inl before)))
  have pinned : (registry.after (retires order)).pinned = ∅ := by
    rw [Std.ExtTreeSet.eq_empty_iff_forall_not_mem]
    intro scope pin
    obtain ⟨absent, before⟩ := (retired.pinned scope).mp pin
    exact absent ((among scope).mpr ((staffed.occupied scope).mpr (Or.inr before)))
  exact Registry.ext (registry.policy_after _) handlers counts pinned retired.ledger

/-- The same handlers leave. -/
theorem Staffed.departures_retires_perm (staffed : registry.Staffed)
    (all : order.Perm registry.scopes) :
    (registry.departures (retires order)).Perm registry.releaseAll.retired := by
  have stay : (registry.after (retires order)).handlers =
      (registry.after [.releaseAll]).handlers := by
    rw [staffed.after_retires all]
    rfl
  have handles := departures_perm (passes_none_of_retires order) (passes_none_of_singleton rfl) stay
  refine perm_of_reason (reason_of_mem_departures (reason_of_retires order) registry)
    (fun retirement leaves => ((mem_retired_releaseAll registry _).mp leaves).1) ?_
  rwa [departures_singleton] at handles

/-- Every retirement finds its handler, as long as no scope is retired twice. -/
theorem answers_flat_retires (once : order.Nodup)
    (occupied : ∀ scope ∈ order, (registry.handler? scope).isSome) :
    (registry.flat (retires order)).1 = (List.replicate order.length true).map .flag := by
  induction order generalizing registry with
  | nil => rfl
  | cons scope rest ih =>
    obtain ⟨fresh, once_rest⟩ := List.nodup_cons.mp once
    have reply : (registry.retire scope).answer = true := by
      rw [answer_retire]
      exact occupied scope List.mem_cons_self
    -- The first retirement leaves the handlers of the others, which are other scopes.
    have later := @ih (registry.retire scope).registry once_rest fun other member => by
      have apart : other ≠ scope := fun same => fresh (same ▸ member)
      rw [handler?_retire, if_neg apart]
      exact occupied other (List.mem_cons_of_mem _ member)
    rw [retires, List.map_cons, answers_flat_cons]
    show Answer.flag (registry.retire scope).answer ::
      (flat (registry.retire scope).registry (retires rest)).1 = _
    rw [reply, later]
    rfl

end All

/-! ### Nothing left -/

/-- A registry without handlers, references and pins. -/
def Bare (registry : Registry μ) : Prop :=
  registry = { Registry.empty registry.policy with ledger := registry.ledger }

/-- Nobody is retired where nobody is left. -/
theorem Bare.retire {registry : Registry μ} (bare : registry.Bare) (scope : Scope) :
    registry.retire scope = { registry, answer := false } := by
  rw [bare]
  simp [Registry.retire, vacate, Registry.empty]

/-- Nothing is released where nothing is left. -/
theorem Bare.releaseAll {registry : Registry μ} (bare : registry.Bare) :
    registry.releaseAll = { registry, answer := 0 } := by
  rw [bare]
  simp [Registry.releaseAll, Registry.empty]

/-- What removes handlers finds none. -/
theorem Bare.step {registry : Registry μ} (bare : registry.Bare) {call : Call μ}
    (removal : call = .releaseAll ∨ ∃ scope, call = .retire scope) :
    (registry.step call).registry = registry ∧ (registry.step call).retired = [] := by
  rcases removal with rfl | ⟨scope, rfl⟩
  · show registry.releaseAll.registry = registry ∧ registry.releaseAll.retired = []
    rw [bare.releaseAll]
    exact ⟨rfl, rfl⟩
  · show (registry.retire scope).registry = registry ∧ (registry.retire scope).retired = []
    rw [bare.retire]
    exact ⟨rfl, rfl⟩

end Registry

namespace Chronicle

/-! ### Stories without regard to room -/

/-- The stories that can be reached from a new registry, also by taking so many references that
counts wrap around. -/
inductive Attainable (script : Script μ) (depth : Nat) (policy : ReleasePolicy) : Story μ → Prop
  | start : Attainable script depth policy ⟨.empty policy, []⟩
  | act {story : Story μ} (deed : Deed μ) : Attainable script depth policy story →
      Attainable script depth policy (act (script.behaviour depth) story deed)
  | connect {story : Story μ} (build : Scope → List (Entry μ) → Except Failure (Handle μ))
      (domain : Domain) (scopes : List Scope) : Attainable script depth policy story →
      Attainable script depth policy
        ((script.pipeline depth).connect (builder build) domain scopes story).2
  | disconnect {story : Story μ} (domain : Domain) : Attainable script depth policy story →
      Attainable script depth policy ((script.pipeline depth).disconnect domain story).2
  | shutdown {story : Story μ} : Attainable script depth policy story →
      Attainable script depth policy ((script.pipeline depth).shutdown story).2

/-- What can be reached with room can be reached without regard to it. -/
theorem Reachable.attainable {script : Script μ} {depth : Nat} {policy : ReleasePolicy}
    {story : Story μ} (reachable : Reachable script depth policy story) :
    Attainable script depth policy story := by
  induction reachable with
  | start => exact .start
  | act deed _ ih => exact .act deed ih
  | connect build domain scopes _ _ ih => exact .connect build domain scopes ih
  | disconnect domain _ ih => exact .disconnect domain ih
  | shutdown _ ih => exact .shutdown ih

/-- What a registry keeps through every call and through notes in the ledger. -/
structure Kept (P : Registry μ → Prop) : Prop where
  step : ∀ {registry} (call : Call μ), P registry → P (registry.step call).registry
  note : ∀ {registry} (entry : Metrics.Ledger → Metrics.Ledger), P registry →
    P (registry.note entry)

namespace Kept

variable {P : Registry μ → Prop} {script : Script μ} {depth : Nat} {story : Story μ}

/-- What is kept through calls and notes is kept by every event. -/
theorem stepwise (kept : Kept P) : Stepwise fun _ (story : Story μ) => P story.registry where
  reorder _ h := h
  call call h := kept.step call h
  release retirement h :=
    kept.note (·.noteRetirement retirement.handle.scope retirement.reason) h
  handle _ _ _ h := h
  note outcome h := kept.note (·.noteDispatch outcome) h

/-- An operation keeps it if the registry does until the first release. -/
theorem run {α : Type} (kept : Kept P) (operation : Registry μ → Effect μ α)
    (h : P (operation story.registry).registry) :
    P (story.run (script.behaviour depth).release operation).2.registry :=
  @Keeps.settle _ _ _ (kept.stepwise.keeps script depth) [] _
    ⟨(operation story.registry).registry, story.outside⟩ h

/-- It is kept when references are given back. -/
theorem giveBack (kept : Kept P) (h : P story.registry) (domain : Domain) (scopes : List Scope) :
    P ((script.pipeline depth).giveBack domain scopes story).registry := by
  induction scopes generalizing story with
  | nil => exact h
  | cons scope rest ih => exact ih (kept.run _ (kept.step (.release scope domain) h))

/-- It is kept through calls one after another. -/
theorem after (kept : Kept P) {registry : Registry μ} (h : P registry) (calls : List (Call μ)) :
    P (registry.after calls) := by
  induction calls generalizing registry with
  | nil => exact h
  | cons call rest ih => exact ih (kept.step call h)

/-- It is kept through connections. -/
theorem connect (kept : Kept P) (h : P story.registry)
    (build : Scope → List (Entry μ) → Except Failure (Handle μ)) (domain : Domain)
    (scopes : List Scope) :
    P ((script.pipeline depth).connect (builder build) domain scopes story).2.registry := by
  have registered : P (Pipeline.registered (builder build) domain scopes story).registry :=
    kept.after h _
  cases result : ((builder build).assemble scopes story.outside).result with
  | ok _ =>
    rw [Pipeline.world_connect_of_ok _ _ _ result]
    exact registered
  | error failure =>
    rw [Pipeline.world_connect_of_error _ _ _ result]
    exact kept.giveBack registered domain _

/-- What is kept holds of every registry, if it does of a new one. -/
theorem of_attainable (kept : Kept P) {policy : ReleasePolicy} (start : P (.empty policy))
    (attainable : Attainable script depth policy story) : P story.registry := by
  induction attainable with
  | start => exact start
  | @act story deed _ ih =>
    have keeps := kept.stepwise.keeps script depth
    exact @Stepwise.keeps_act _ _ _ kept.stepwise keeps [] story ih deed
  | connect build domain scopes _ ih => exact kept.connect ih build domain scopes
  | disconnect domain _ ih => exact kept.run _ (kept.step (.releaseDomain domain) ih)
  | shutdown _ ih => exact kept.run _ (kept.step .releaseAll ih)

end Kept

/-- Every registry that can be attained is staffed. -/
theorem Attainable.staffed {script : Script μ} {depth : Nat} {policy : ReleasePolicy}
    {story : Story μ} (attainable : Attainable script depth policy story) :
    story.registry.Staffed :=
  have kept : Kept (Registry.Staffed (μ := μ)) :=
    ⟨fun call staffed => staffed.step call, fun entry staffed => staffed.note entry⟩
  kept.of_attainable (.empty policy) attainable

/-- The policy is the one with which a registry began. -/
theorem Attainable.policy_eq {script : Script μ} {depth : Nat} {policy : ReleasePolicy}
    {story : Story μ} (attainable : Attainable script depth policy story) :
    story.registry.policy = policy :=
  Kept.of_attainable (P := fun registry => registry.policy = policy)
    ⟨fun call same => (Registry.policy_step _ call).trans same, fun _ same => same⟩ rfl attainable

/-! ### Everything is removed -/

/-- To remove what is left of nothing is only entered into the chronicle. -/
theorem run_of_bare {script : Script μ} (depth : Nat) {calls : List (Call μ)}
    (removals : ∀ call ∈ calls, call = .releaseAll ∨ ∃ scope, call = .retire scope)
    {story : Story μ} (bare : story.registry.Bare) :
    run (script.behaviour depth) story (calls.map .call) =
      ⟨story.registry, story.outside ++ calls.map (.called story.registry ·)⟩ := by
  induction calls generalizing story with
  | nil => exact congrArg (World.mk _) (List.append_nil _).symm
  | cons call rest ih =>
    have idle : act (script.behaviour depth) story (.call call) =
        ⟨story.registry, story.outside ++ [.called story.registry call]⟩ := by
      obtain ⟨same, nobody⟩ := bare.step (removals call List.mem_cons_self)
      show (afterCall story call).settle _ (story.registry.step call).retired = _
      rw [nobody, World.settle_nil, afterCall, same]
    show run _ (act _ story (.call call)) (rest.map .call) = _
    rw [idle]
    refine (@ih (fun other member => removals other (List.mem_cons_of_mem _ member))
      ⟨story.registry, story.outside ++ [.called story.registry call]⟩ bare).trans ?_
    rw [List.append_assoc]
    rfl

/-- Everything is released in any story, as long as those who leave have nothing to do. It is
compared with the retirement of every scope that has a handler, in any order.

Both leave the same registry with the same ledger, and release every handler that there was, once
each. The answer is the number of retirements that were answered with `true`. The registry is then
as it was in the beginning, but for the ledger. Further removals are answered with `false` or zero,
change nothing and release nobody. -/
theorem Attainable.releaseAll_eq_retires {script : Script μ} {depth : Nat}
    {policy : ReleasePolicy} {story : Story μ} (attainable : Attainable script depth policy story)
    (inert : script.InertIn story.registry) (order : List Scope)
    (all : order.Perm story.registry.scopes) :
    let bulk := Chronicle.act (script.behaviour depth) story (.call .releaseAll)
    let single := run (script.behaviour depth) story ((Registry.retires order).map .call)
    single.registry = bulk.registry ∧
    LetGo story story.registry.handlers.values bulk ∧
    LetGo story story.registry.handlers.values single ∧
    (∃ replies : List Bool,
      answers single.outside = answers story.outside ++ replies.map .flag ∧
      answers bulk.outside = answers story.outside ++ [.count (replies.count true)]) ∧
    bulk.registry = { Registry.empty policy with ledger := bulk.registry.ledger } ∧
    (∀ scope, (bulk.registry.retire scope).answer = false) ∧
    bulk.registry.releaseAll.answer = 0 ∧
    ∀ calls : List (Call μ),
      (∀ call ∈ calls, call = .releaseAll ∨ ∃ scope, call = .retire scope) →
      run (script.behaviour depth) bulk (calls.map .call) =
        ⟨bulk.registry, bulk.outside ++ calls.map (.called bulk.registry ·)⟩ := by
  intro bulk single
  -- References need no room here: what is known of occupied slots holds without any bound.
  have staffed := attainable.staffed
  let effect := story.registry.releaseAll
  let calls : List (Call μ) := Registry.retires order
  have ran_single : Runs calls story single :=
    run_calls_of_quiet depth (inert.departures (Registry.passes_none_of_retires order))
  have ran_bulk : Runs [.releaseAll] story bulk :=
    run_calls_of_quiet depth (inert.departures (Registry.passes_none_of_singleton rfl))
  have everybody : effect.retired.map (·.handle) = story.registry.handlers.values := by
    show (story.registry.handlers.values.map _).map _ = _
    rw [List.map_map]
    exact List.map_id _
  have registry : bulk.registry = effect.registry.finished effect.retired :=
    ran_bulk.registry_of_singleton
  have bare : bulk.registry = { Registry.empty policy with ledger := bulk.registry.ledger } := by
    obtain ⟨ledger, finished⟩ := effect.registry.finished_eq effect.retired
    have policy_eq : effect.registry.policy = policy := attainable.policy_eq
    rw [registry, finished, policy_eq]
    rfl
  have still_bare : bulk.registry.Bare := by
    rw [bare]
    rfl
  refine ⟨?_, ?_, ?_, ⟨List.replicate order.length true, ?_, ?_⟩, bare, fun scope => ?_, ?_,
    fun removals all_removals => run_of_bare depth all_removals still_bare⟩
  · rw [ran_single.registry, Registry.registry_flat, staffed.after_retires all, registry]
    exact Registry.finished_perm _ (staffed.departures_retires_perm all)
  · exact ran_bulk.letGo (.of_eq ((congrArg _ (Registry.departures_singleton _ _)).trans everybody))
  · have leave := (staffed.departures_retires_perm all).map (·.handle)
    rw [everybody] at leave
    exact ran_single.letGo leave
  · have once : order.Nodup := all.nodup_iff.mpr Std.ExtTreeMap.nodup_keys
    rw [ran_single.answers, Registry.answers_flat_retires once]
    intro scope member
    rw [← Registry.contains_handlers]
    exact (story.registry.mem_scopes_iff scope).mp (all.mem_iff.mp member)
  · have number : story.registry.handlers.size = order.length := by
      rw [all.length_eq]
      exact Std.ExtTreeMap.length_keys.symm
    rw [ran_bulk.answers, List.count_replicate_self, ← number]
    rfl
  · rw [still_bare.retire]
  · rw [still_bare.releaseAll]

/-- A wallet that is installed, and a scope on which a guest holds a reference. -/
def twoOccupied : Story Nat :=
  tell .silent 0 .lenient
    [.call (.install ⟨Scope.wallet⟩ ⟨⟨Scope.wallet⟩, 0⟩),
     .call (.register ⟨"eip155:5"⟩ ⟨"guest"⟩ ⟨⟨"eip155:5"⟩, 1⟩)]

/-- The two handlers leave in different orders, and nothing else is different. -/
theorem releaseAll_eq_retires_of_two_scopes :
    let order : List Scope := [⟨Scope.wallet⟩, ⟨"eip155:5"⟩]
    let bulk := act (Script.silent.behaviour 0) twoOccupied (.call .releaseAll)
    let single := run (Script.silent.behaviour 0) twoOccupied ((Registry.retires order).map .call)
    Attainable .silent 0 .lenient twoOccupied ∧ order.Perm twoOccupied.registry.scopes ∧
      single.registry = bulk.registry ∧ released single.outside = [0, 1] ∧
      released bulk.outside = [1, 0] := by
  intro order bulk single
  have attainable : Attainable .silent 0 .lenient twoOccupied := (reachable_run .start _).attainable
  have all : order.Perm twoOccupied.registry.scopes := by
    have scopes : twoOccupied.registry.scopes = [⟨"eip155:5"⟩, ⟨Scope.wallet⟩] := by decide +kernel
    rw [scopes]
    exact .swap _ _ _
  have same := (attainable.releaseAll_eq_retires (fun _ _ _ _ => rfl) order all).1
  exact ⟨attainable, all, same, by decide +kernel, by decide +kernel⟩

end Chronicle

end Switchboard
