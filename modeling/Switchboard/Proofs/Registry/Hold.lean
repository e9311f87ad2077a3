import Switchboard.Proofs.Registry.Counts
import Switchboard.Proofs.Registry.Fate
import Switchboard.Proofs.Registry.Flat

/-!
# `Switchboard.Proofs.Registry.Hold`: a hold protects the handler

A domain that holds a reference on a scope can rely on the scope's handler. Four calls take such a
hold away (`Call.TakesAway`): a release by the domain itself on that scope, the release of the
domain, the retirement of the scope, and the release of everything. Whatever else happens,

* the domain's count does not go down (`Sound.domainCount_le_step`),
* the handler does not leave, because no other call ends a scope on which references are held
  (`not_ends_of_held`).

`Guarded` carries this through a run, and `Reachable.hold_protects` states it for every run from
every story that can be reached: the handler stays the same one, only handles of other scopes are
released, and every request for the scope is forwarded to it. A run among middlewares that do
nothing makes no calls but its own (`spared_of_silent`).
-/

set_option autoImplicit false

namespace Switchboard

open Rpc

variable {μ : Type}

/-- A call that can take away what a domain holds on a scope. -/
def Call.TakesAway (scope : Scope) (domain : Domain) : Call μ → Prop
  | .release target holder => target = scope ∧ holder = domain
  | .releaseDomain holder => holder = domain
  | .retire target => target = scope
  | .releaseAll => True
  | _ => False

namespace Stage

variable {ε : Type}

/-- The stage of one middleware, with the outcome entered into the ledger. -/
def forward (behaviour : Behaviour ε μ) (middleware : μ) (next : Stage ε μ) : Stage ε μ :=
  fun request response world =>
    let passage := behaviour.handle middleware next request response world
    let outcome := outcome true passage.result
    { passage with
      world := passage.world.mapRegistry fun registry => registry.note (·.noteDispatch outcome) }

/-- A request for an occupied scope is forwarded to the handler. -/
theorem dispatch_of_handler? (behaviour : Behaviour ε μ) (next : Stage ε μ) {request : Request}
    (response : Response) {world : World ε μ} {scope : Scope} {handle : Handle μ}
    (addressed : request.scope = some scope)
    (occupied : world.registry.handler? scope = some handle) :
    dispatch behaviour next request response world =
      forward behaviour handle.middleware next request response world := by
  have chosen : chosen? world.registry request = some handle := by
    rw [chosen?, addressed]
    exact occupied
  unfold dispatch forward
  rw [chosen]
  rfl

end Stage

namespace Registry

variable {registry : Registry μ} {scope : Scope} {domain : Domain}

/-- Only a call that takes a domain's references away can lower its count. -/
theorem Sound.domainCount_le_step (sound : registry.Sound) {call : Call μ}
    (room : registry.HasRoom [call]) (spares : ¬call.TakesAway scope domain) :
    registry.domainCount scope domain ≤ (registry.step call).registry.domainCount scope domain := by
  have counted := Chronicle.toNat_domainCount_step sound call room scope domain
  have not_reset : (Chronicle.Entry.called registry call).resets scope domain = false := by
    cases call <;> simp_all [Chronicle.Entry.resets, Call.TakesAway]
  have not_dropped : (Chronicle.Entry.called registry call).drops scope domain = false := by
    cases call <;> simp_all [Chronicle.Entry.drops, Call.TakesAway]
  rw [not_reset, not_dropped] at counted
  simp only [Bool.false_eq_true, if_false, Nat.add_zero] at counted
  rw [UInt32.le_iff_toNat_le, counted]
  exact Nat.le_add_right _ _

/-- While a domain holds references on a scope, no call ends the scope but one that takes them
away. -/
theorem not_ends_of_held (held : registry.domainCount scope domain ≠ 0) {call : Call μ}
    (spares : ¬call.TakesAway scope domain) : ¬registry.Ends scope call := by
  intro ends
  cases call with
  | release target holder =>
    -- Whoever drops the last reference is the only holder, so it would be the domain.
    obtain ⟨here, -, alone, -⟩ := ends
    exact held (alone domain fun same => spares ⟨here, same.symm⟩)
  | releaseDomain holder =>
    obtain ⟨-, alone, -⟩ := ends
    exact held (alone domain fun same => spares same.symm)
  | retire target => exact spares ends
  | releaseAll => exact spares trivial
  | _ => exact ends

end Registry

namespace Chronicle

/-- A handle of another scope that a call has removed. -/
def RemovedElsewhere (scope : Scope) (entries : List (Entry μ)) (handle : Handle μ) : Prop :=
  handle.scope ≠ scope ∧ Removed entries handle

/-- What holds while a domain's hold on a scope is spared: `handle` serves the scope, the domain
holds at least `least` references, and whatever is due or was released is a handle of another scope.
The entries are those since the hold began. -/
structure Guarded (scope : Scope) (domain : Domain) (handle : Handle μ) (least : UInt32)
    (entries : List (Entry μ)) (due : List (Retirement μ)) (registry : Registry μ) : Prop where
  sound : registry.Sound
  occupied : registry.handler? scope = some handle
  least_le : least ≤ registry.domainCount scope domain
  /-- Every call found the handle in its slot and left it there. -/
  found_occupied : ∀ found call, .called found call ∈ entries →
    found.handler? scope = some handle ∧ handle ∉ found.removed call
  due_elsewhere : ∀ retirement ∈ due, RemovedElsewhere scope entries retirement.handle
  released_elsewhere : ∀ before middleware after,
    entries = before ++ .released middleware :: after →
      ∃ other, other.middleware = middleware ∧ RemovedElsewhere scope before other

/-- No call among the entries takes the hold away. -/
def Spared (scope : Scope) (domain : Domain) (entries : List (Entry μ)) : Prop :=
  ∀ found call, .called found call ∈ entries → ¬call.TakesAway scope domain

/-- What is spared until the end is spared on the way. -/
theorem Spared.earlier {scope : Scope} {domain : Domain} {entries later : List (Entry μ)}
    (spared : Spared scope domain (entries ++ later)) : Spared scope domain entries :=
  fun found call entered => spared found call (List.mem_append_left _ entered)

/-- What is spared from the beginning is spared from any moment on. -/
theorem Spared.later {scope : Scope} {domain : Domain} {entries later : List (Entry μ)}
    (spared : Spared scope domain (entries ++ later)) : Spared scope domain later :=
  fun found call entered => spared found call (List.mem_append_right _ entered)

namespace Guarded

variable {scope : Scope} {domain : Domain} {handle : Handle μ} {least : UInt32}
  {entries : List (Entry μ)} {due : List (Retirement μ)} {registry : Registry μ}

/-- A hold begins where the domain holds as much as is to be guarded. -/
theorem start (sound : registry.Sound) (occupied : registry.handler? scope = some handle) :
    Guarded scope domain handle (registry.domainCount scope domain) [] [] registry where
  sound := sound
  occupied := occupied
  least_le := UInt32.le_refl _
  found_occupied _ _ member := absurd member List.not_mem_nil
  due_elsewhere _ member := absurd member List.not_mem_nil
  released_elsewhere _ _ _ same := by simp at same

/-- What is noted in the ledger guards as before. -/
theorem note (guarded : Guarded scope domain handle least entries due registry)
    (entry : Metrics.Ledger → Metrics.Ledger) :
    Guarded scope domain handle least entries due (registry.note entry) :=
  ⟨guarded.sound.note entry, guarded.occupied, guarded.least_le, guarded.found_occupied,
    guarded.due_elsewhere, guarded.released_elsewhere⟩

/-- A request that reaches some middleware guards as before. -/
theorem handled (guarded : Guarded scope domain handle least entries due registry)
    (reached : μ) :
    Guarded scope domain handle least (entries ++ [.handled reached]) due registry where
  sound := guarded.sound
  occupied := guarded.occupied
  least_le := guarded.least_le
  found_occupied found call member := by
    rcases List.mem_append.mp member with old | new
    · exact guarded.found_occupied found call old
    · exact absurd (List.mem_singleton.mp new) (by simp)
  due_elsewhere retirement member :=
    (guarded.due_elsewhere retirement member).imp_right (·.later _)
  released_elsewhere before middleware after same := by
    rcases eq_or_of_concat_eq_append same with ⟨-, this_one, -⟩ | ⟨rest, -, earlier⟩
    · exact absurd this_one (by simp)
    · exact guarded.released_elsewhere before middleware rest earlier

/-- The domain goes on holding references. -/
theorem held (guarded : Guarded scope domain handle least entries due registry)
    (positive : least ≠ 0) : registry.domainCount scope domain ≠ 0 := by
  intro none_held
  have none_guarded := guarded.least_le
  rw [none_held, UInt32.le_zero_iff] at none_guarded
  exact positive none_guarded

/-- A call that spares the hold. The handles that it removes are those of scopes that it ends, and
it does not end this one. -/
theorem call (guarded : Guarded scope domain handle least entries due registry)
    (positive : least ≠ 0) (call : Call μ) (room : registry.HasRoom [call])
    (spares : ¬call.TakesAway scope domain) :
    Guarded scope domain handle least (entries ++ [.called registry call])
      ((registry.step call).retired ++ due) (registry.step call).registry := by
  have spared := Registry.not_ends_of_held (guarded.held positive) spares
  -- Handles are bound to their scopes, so a handle that leaves is that of a scope that ends.
  have removed_elsewhere {other : Handle μ} (leaves : other ∈ registry.removed call) :
      other.scope ≠ scope := by
    rintro rfl
    exact spared (guarded.sound.ends_of_mem_removed leaves).2
  exact {
    sound := guarded.sound.step call room
    occupied := guarded.sound.handler?_step_of_not_ends room guarded.occupied spared
    least_le :=
      UInt32.le_trans guarded.least_le (guarded.sound.domainCount_le_step room spares)
    found_occupied := by
      intro found other member
      rcases List.mem_append.mp member with old | new
      · exact guarded.found_occupied found other old
      · obtain ⟨rfl, rfl⟩ := Entry.called.inj (List.mem_singleton.mp new)
        have bound := guarded.sound.bound scope handle guarded.occupied
        exact ⟨guarded.occupied, fun leaves => removed_elsewhere leaves bound⟩
    due_elsewhere := by
      intro retirement member
      rcases List.mem_append.mp member with new | old
      · have leaves : retirement.handle ∈ registry.removed call := List.mem_map_of_mem new
        exact ⟨removed_elsewhere leaves, registry, call,
          List.mem_append_right _ (List.mem_singleton.mpr rfl), leaves⟩
      · exact (guarded.due_elsewhere retirement old).imp_right (·.later _)
    released_elsewhere := by
      intro before middleware after same
      rcases eq_or_of_concat_eq_append same with ⟨-, this_one, -⟩ | ⟨rest, -, earlier⟩
      · exact absurd this_one (by simp)
      · exact guarded.released_elsewhere before middleware rest earlier }

/-- The first handle that is due is released. -/
theorem release {retirement : Retirement μ}
    (guarded : Guarded scope domain handle least entries (retirement :: due) registry) :
    Guarded scope domain handle least (entries ++ [.released retirement.handle.middleware]) due
      registry where
  sound := guarded.sound
  occupied := guarded.occupied
  least_le := guarded.least_le
  found_occupied found call member := by
    rcases List.mem_append.mp member with old | new
    · exact guarded.found_occupied found call old
    · exact absurd (List.mem_singleton.mp new) (by simp)
  due_elsewhere other member :=
    (guarded.due_elsewhere other (List.mem_cons_of_mem _ member)).imp_right (·.later _)
  released_elsewhere before middleware after same := by
    rcases eq_or_of_concat_eq_append same with ⟨-, this_one, rfl⟩ | ⟨rest, -, earlier⟩
    · exact ⟨retirement.handle, Entry.released.inj this_one,
        guarded.due_elsewhere retirement List.mem_cons_self⟩
    · exact guarded.released_elsewhere before middleware rest earlier

/-- Whoever comes first of those that are due, the hold is guarded. -/
theorem reorder {due' : List (Retirement μ)} (same : due.Perm due')
    (guarded : Guarded scope domain handle least entries due registry) :
    Guarded scope domain handle least entries due' registry :=
  { guarded with
    due_elsewhere := fun retirement member =>
      guarded.due_elsewhere retirement (same.mem_iff.mpr member) }

/-- Every event keeps a spared hold guarded, as long as there is room. The entries before the hold
began are `past`. -/
theorem stepwise (past : List (Entry μ)) (positive : least ≠ 0) :
    Stepwise fun due (story : Story μ) => ∃ entries, story.outside = past ++ entries ∧
      (Roomy story.outside → Spared scope domain entries →
        Guarded scope domain handle least entries due story.registry) where
  -- The guard speaks of each handle that is due by itself, so that their order is of no account.
  reorder same := by
    rintro ⟨entries, past, guards⟩
    exact ⟨entries, past, fun roomy spared => (guards roomy spared).reorder same⟩
  call := by
    rintro due story call ⟨entries, same, guards⟩
    refine ⟨entries ++ [.called story.registry call], ?_, fun roomy spared => ?_⟩
    · show story.outside ++ _ = _
      rw [same, List.append_assoc]
    · exact (guards roomy.earlier spared.earlier).call positive call roomy.last
        (spared story.registry call (List.mem_append_right _ (List.mem_singleton.mpr rfl)))
  release := by
    rintro due story retirement ⟨entries, same, guards⟩
    refine ⟨entries ++ [.released retirement.handle.middleware], ?_, fun roomy spared => ?_⟩
    · show story.outside ++ _ = _
      rw [same, List.append_assoc]
    · exact (guards roomy.earlier spared.earlier).release.note
        (·.noteRetirement retirement.handle.scope retirement.reason)
  handle := by
    rintro due story target reached - ⟨entries, same, guards⟩
    refine ⟨entries ++ [.handled reached.middleware], ?_, fun roomy spared => ?_⟩
    · show story.outside ++ _ = _
      rw [same, List.append_assoc]
    · exact (guards roomy.earlier spared.earlier).handled reached.middleware
  note := by
    rintro due story outcome ⟨entries, same, guards⟩
    exact ⟨entries, same, fun roomy spared => (guards roomy spared).note (·.noteDispatch outcome)⟩

end Guarded

/-! ### Runs -/

section Runs

variable {script : Script μ} {depth : Nat}

/-- Deeds one after another can be done in two parts. -/
theorem run_append (behaviour : Behaviour (List (Entry μ)) μ) (story : Story μ)
    (first rest : List (Deed μ)) :
    run behaviour story (first ++ rest) = run behaviour (run behaviour story first) rest :=
  List.foldl_append

/-- A run only adds to the chronicle. -/
theorem outside_run (script : Script μ) (depth : Nat) (story : Story μ) (deeds : List (Deed μ)) :
    ∃ entries, (run (script.behaviour depth) story deeds).outside = story.outside ++ entries := by
  -- Each event of a run adds its entry at the end, or none.
  have grows : Stepwise fun _ (later : Story μ) =>
      ∃ entries, later.outside = story.outside ++ entries := {
    reorder := fun _ known => known
    call := fun {_ later} call ⟨entries, same⟩ =>
      ⟨entries ++ [.called later.registry call], by
        show later.outside ++ _ = _
        rw [same, List.append_assoc]⟩
    release := fun {_ later} retirement ⟨entries, same⟩ =>
      ⟨entries ++ [.released retirement.handle.middleware], by
        show later.outside ++ _ = _
        rw [same, List.append_assoc]⟩
    handle := fun {_ later} _ reached _ ⟨entries, same⟩ =>
      ⟨entries ++ [.handled reached.middleware], by
        show later.outside ++ _ = _
        rw [same, List.append_assoc]⟩
    note := fun _ known => known }
  exact @Stepwise.keeps_run _ _ _ grows (grows.keeps script depth) [] _
    ⟨[], (List.append_nil _).symm⟩ deeds

/-- A run that spares a hold guards it from its first deed to its last. -/
theorem guarded_run (script : Script μ) (depth : Nat) {story : Story μ}
    (sound : story.registry.Sound) {scope : Scope} {domain : Domain} {handle : Handle μ}
    (occupied : story.registry.handler? scope = some handle)
    (held : story.registry.domainCount scope domain ≠ 0) {deeds : List (Deed μ)}
    {entries : List (Entry μ)}
    (new : (run (script.behaviour depth) story deeds).outside = story.outside ++ entries)
    (roomy : Roomy (story.outside ++ entries)) (spared : Spared scope domain entries) :
    Guarded scope domain handle (story.registry.domainCount scope domain) entries []
      (run (script.behaviour depth) story deeds).registry := by
  have stepwise := @Guarded.stepwise _ scope domain handle _ story.outside held
  have first : Guarded scope domain handle _ [] [] story.registry := .start sound occupied
  obtain ⟨written, same, guards⟩ :=
    @Stepwise.keeps_run _ _ _ stepwise (stepwise.keeps script depth) [] _
      ⟨[], (List.append_nil _).symm, fun _ _ => first⟩ deeds
  obtain rfl : written = entries := List.append_cancel_left (same.symm.trans new)
  exact guards (new ▸ roomy) spared

/-- A run that spares a hold guards it from each moment on to every later one. -/
theorem guarded_between {story : Story μ} (sound : story.registry.Sound) {scope : Scope}
    {domain : Domain} {handle : Handle μ} (occupied : story.registry.handler? scope = some handle)
    (held : story.registry.domainCount scope domain ≠ 0) {first more rest : List (Deed μ)}
    {entries : List (Entry μ)}
    (new : (run (script.behaviour depth) story (first ++ more ++ rest)).outside =
      story.outside ++ entries)
    (roomy : Roomy (story.outside ++ entries)) (spared : Spared scope domain entries) :
    let earlier := run (script.behaviour depth) story first
    let later := run (script.behaviour depth) story (first ++ more)
    earlier.registry.domainCount scope domain ≤ later.registry.domainCount scope domain ∧
      later.registry.handler? scope = some handle := by
  intro earlier later
  -- The entries of the run are those of its three parts.
  obtain ⟨former, at_first⟩ := outside_run script depth story first
  obtain ⟨middle, at_more⟩ := outside_run script depth earlier more
  obtain ⟨final, at_rest⟩ := outside_run script depth later rest
  have later_eq : later = run (script.behaviour depth) earlier more := run_append _ _ _ _
  obtain rfl : former ++ middle ++ final = entries := by
    rw [run_append, at_rest, later_eq, at_more, at_first] at new
    simpa using new
  rw [← List.append_assoc, ← List.append_assoc] at roomy
  have before := guarded_run script depth sound occupied held at_first roomy.earlier.earlier
    spared.earlier.earlier
  have still_held : earlier.registry.domainCount scope domain ≠ 0 := before.held held
  have after := guarded_run script depth before.sound before.occupied still_held at_more
    (at_first ▸ roomy.earlier) spared.earlier.later
  rw [later_eq]
  exact ⟨after.least_le, after.occupied⟩

end Runs

/-! ### Middlewares that do nothing -/

/-- A middleware that has nothing to do only has its release entered. -/
theorem release_inert {script : Script μ} {middleware : μ}
    (inert : ∀ entries, script.onRelease middleware entries = []) (depth : Nat)
    (story : Story μ) :
    (script.behaviour depth).release middleware story = write (.released middleware) story := by
  cases depth with
  | zero => rfl
  | succ depth =>
    show run _ _ (script.onRelease middleware story.outside) = _
    rw [inert]
    rfl

/-- Releases of middlewares that have nothing to do are over when they are entered. -/
theorem finishAll_inert {script : Script μ} (depth : Nat) {retired : List (Retirement μ)}
    (inert : ∀ retirement ∈ retired, ∀ entries,
      script.onRelease retirement.handle.middleware entries = []) (story : Story μ) :
    story.finishAll (script.behaviour depth).release retired =
      ⟨story.registry.finished retired,
        story.outside ++ retired.map (.released ·.handle.middleware)⟩ := by
  induction retired generalizing story with
  | nil =>
    rw [List.map_nil, List.append_nil]
    rfl
  | cons retirement rest ih =>
    have first : story.finish (script.behaviour depth).release retirement =
        afterRelease story retirement :=
      release_inert (inert retirement List.mem_cons_self) depth _
    show (story.finish _ retirement).finishAll _ rest = _
    rw [first, ih fun other member => inert other (List.mem_cons_of_mem _ member), List.map_cons,
      List.append_cons]
    rfl

/-- All that the order decides among middlewares that have nothing to do is in which order they are
entered. -/
theorem settle_inert {script : Script μ} (depth : Nat) {retired : List (Retirement μ)}
    (inert : ∀ retirement ∈ retired, ∀ entries,
      script.onRelease retirement.handle.middleware entries = []) (story : Story μ) :
    ∃ arranged : List (Retirement μ), arranged.Perm retired ∧
      story.settle (script.behaviour depth).release retired =
        ⟨story.registry.finished retired,
          story.outside ++ arranged.map (.released ·.handle.middleware)⟩ := by
  have perm := (script.behaviour depth).release.order.perm story retired
  refine ⟨_, perm, ?_⟩
  have idle := finishAll_inert depth
    (fun retirement member => inert retirement (perm.mem_iff.mp member)) story
  rw [story.registry.finished_perm perm] at idle
  exact idle

/-- Where middlewares do nothing, a deed makes no call but its own. -/
theorem outside_act_silent (depth : Nat) (story : Story μ) (deed : Deed μ) :
    ∃ entries, (act (Script.silent.behaviour depth) story deed).outside =
        story.outside ++ entries ∧
      ∀ found call, .called found call ∈ entries → deed = .call call := by
  cases deed with
  | call call =>
    have inert : ∀ retirement ∈ (story.registry.step call).retired, ∀ entries,
        (Script.silent : Script μ).onRelease retirement.handle.middleware entries = [] :=
      fun _ _ _ => rfl
    -- Whoever the call removes is released, and has nothing to say.
    obtain ⟨arranged, -, released⟩ := settle_inert depth inert (afterCall story call)
    refine ⟨.called story.registry call :: arranged.map (.released ·.handle.middleware), ?_, ?_⟩
    · show (World.settle _ (afterCall story call) (story.registry.step call).retired).outside = _
      rw [released, List.append_cons]
      rfl
    · intro found other member
      rcases List.mem_cons.mp member with same | released
      · rw [(Entry.called.inj same).2]
      · obtain ⟨_, -, absurdity⟩ := List.mem_map.mp released
        exact absurd absurdity (by simp)
  | dispatch request =>
    -- A request reaches one handler at most, which makes no calls.
    cases chosen : Stage.chosen? story.registry request with
    | none =>
      refine ⟨[], ?_, by simp⟩
      simp only [act, Stage.dispatch, chosen, List.append_nil]
      rfl
    | some handle =>
      refine ⟨[.handled handle.middleware], ?_, by simp⟩
      simp only [act, Stage.dispatch, chosen]
      cases depth <;> rfl

/-- Where middlewares do nothing, a run makes no calls but its own. -/
theorem outside_run_silent (depth : Nat) (story : Story μ) (deeds : List (Deed μ)) :
    ∃ entries, (run (Script.silent.behaviour depth) story deeds).outside =
        story.outside ++ entries ∧
      ∀ found call, .called found call ∈ entries → .call call ∈ deeds := by
  induction deeds generalizing story with
  | nil => exact ⟨[], (List.append_nil _).symm, by simp⟩
  | cons deed rest ih =>
    obtain ⟨first, at_first, of_deed⟩ := outside_act_silent depth story deed
    obtain ⟨later, at_later, of_rest⟩ := ih (act (Script.silent.behaviour depth) story deed)
    refine ⟨first ++ later, ?_, fun found call member => ?_⟩
    · rw [← List.append_assoc, ← at_first]
      exact at_later
    · rcases List.mem_append.mp member with here | there
      · exact List.mem_cons.mpr (Or.inl (of_deed found call here).symm)
      · exact List.mem_cons_of_mem _ (of_rest found call there)

/-- Where middlewares do nothing, a hold is spared if no deed takes it away. -/
theorem spared_of_silent {depth : Nat} {scope : Scope} {domain : Domain} {story : Story μ}
    {deeds : List (Deed μ)} {entries : List (Entry μ)}
    (new : (run (Script.silent.behaviour depth) story deeds).outside = story.outside ++ entries)
    (spares : ∀ call, .call call ∈ deeds → ¬call.TakesAway scope domain) :
    Spared scope domain entries := by
  obtain ⟨written, same, of_deeds⟩ := outside_run_silent depth story deeds
  obtain rfl : written = entries := List.append_cancel_left (same.symm.trans new)
  exact fun found call member => spares call (of_deeds found call member)

/-- A run leads from one reachable story to another. -/
theorem reachable_run {script : Script μ} {depth : Nat} {policy : ReleasePolicy} {story : Story μ}
    (reachable : Reachable script depth policy story) (deeds : List (Deed μ)) :
    Reachable script depth policy (run (script.behaviour depth) story deeds) := by
  induction deeds generalizing story with
  | nil => exact reachable
  | cons deed rest ih => exact ih (reachable.act deed)

/-- While a domain holds references on a scope, nobody else can take its handler away.

The run may do anything, through any middlewares, but release the domain's references on the scope,
release the domain, retire the scope or release everything. From one moment of the run to a later
one the domain's count does not go down. The same handle serves the scope throughout, and every
request for the scope is forwarded to it. No call removes the handle, and whatever is released is a
handle of another scope that was removed before. -/
theorem Reachable.hold_protects {script : Script μ} {depth : Nat} {policy : ReleasePolicy}
    {story : Story μ} (reachable : Reachable script depth policy story) {scope : Scope}
    {domain : Domain} (held : story.registry.domainCount scope domain ≠ 0) (deeds : List (Deed μ))
    {entries : List (Entry μ)}
    (new : (run (script.behaviour depth) story deeds).outside = story.outside ++ entries)
    (roomy : Roomy (story.outside ++ entries)) (spared : Spared scope domain entries) :
    ∃ handle, story.registry.handler? scope = some handle ∧
      (∀ first more rest, deeds = first ++ more ++ rest →
        let earlier := run (script.behaviour depth) story first
        let later := run (script.behaviour depth) story (first ++ more)
        earlier.registry.domainCount scope domain ≤ later.registry.domainCount scope domain ∧
        later.registry.handler? scope = some handle ∧
        ∀ (next : Stage (List (Entry μ)) μ) (request : Request) (response : Response),
          request.scope = some scope →
          Stage.dispatch (script.behaviour depth) next request response later =
            Stage.forward (script.behaviour depth) handle.middleware next request response
              later) ∧
      (∀ found call, .called found call ∈ entries →
        found.handler? scope = some handle ∧ handle ∉ found.removed call) ∧
      ∀ before middleware after, entries = before ++ .released middleware :: after →
        ∃ other, other.middleware = middleware ∧ RemovedElsewhere scope before other := by
  have sound := (reachable.settled roomy.earlier).sound
  obtain ⟨handle, occupied⟩ : ∃ handle, story.registry.handler? scope = some handle := by
    have listed := (sound.mem_counts_iff scope).mpr ⟨domain, held⟩
    exact Option.isSome_iff_exists.mp ((sound.occupied scope).mpr (Or.inl listed))
  -- The guard over the whole run gives the entries, and the guard between two moments the rest.
  have whole := guarded_run script depth sound occupied held new roomy spared
  refine ⟨handle, occupied, ?_, whole.found_occupied, whole.released_elsewhere⟩
  rintro first more rest rfl
  obtain ⟨grows, stays⟩ := guarded_between sound occupied held new roomy spared
  exact ⟨grows, stays, fun next request response addressed =>
    Stage.dispatch_of_handler? _ next response addressed stays⟩

/-- A guest takes the wallet, and the host has its own handle dropped. -/
def twoRegister : List (Deed Nat) :=
  [.call (.register ⟨Scope.wallet⟩ ⟨"guest"⟩ ⟨⟨Scope.wallet⟩, 0⟩),
   .call (.register ⟨Scope.wallet⟩ ⟨"host"⟩ ⟨⟨Scope.wallet⟩, 1⟩)]

/-- The host takes another scope, pins the wallet and leaves. -/
def hostLeaves : List (Deed Nat) :=
  [.call (.register ⟨"eip155:1"⟩ ⟨"host"⟩ ⟨⟨"eip155:1"⟩, 2⟩),
   .call (.install ⟨Scope.wallet⟩ ⟨⟨Scope.wallet⟩, 3⟩),
   .call (.release ⟨Scope.wallet⟩ ⟨"host"⟩),
   .dispatch { method := "ping", scope := some ⟨Scope.wallet⟩ },
   .call (.releaseDomain ⟨"host"⟩)]

/-- The host's handle for the other scope is all that is released, and the guest's keeps the
wallet. -/
theorem hold_protects_guest :
    (tell .silent 0 .strict twoRegister).registry.domainCount ⟨Scope.wallet⟩ ⟨"guest"⟩ ≠ 0 ∧
      Roomy (tell .silent 0 .strict (twoRegister ++ hostLeaves)).outside ∧
      released (tell .silent 0 .strict (twoRegister ++ hostLeaves)).outside = [2] ∧
      (tell .silent 0 .strict (twoRegister ++ hostLeaves)).registry.handler? ⟨Scope.wallet⟩ =
        some ⟨⟨Scope.wallet⟩, 0⟩ := by
  have held :
      (tell .silent 0 .strict twoRegister).registry.domainCount ⟨Scope.wallet⟩ ⟨"guest"⟩ ≠ 0 := by
    decide +kernel
  have guests : (tell .silent 0 .strict twoRegister).registry.handler? ⟨Scope.wallet⟩ =
      some ⟨⟨Scope.wallet⟩, 0⟩ := by
    decide +kernel
  have roomy : Roomy (tell .silent 0 .strict (twoRegister ++ hostLeaves)).outside :=
    roomy_of_length_lt .silent 0 .strict (twoRegister ++ hostLeaves) (by decide +kernel)
  have left : released (tell .silent 0 .strict (twoRegister ++ hostLeaves)).outside = [2] := by
    decide +kernel
  have reachable : Reachable .silent 0 .strict (tell .silent 0 .strict twoRegister) :=
    reachable_run .start twoRegister
  have split := run_append (Script.silent.behaviour 0) ⟨.empty .strict, []⟩ twoRegister hostLeaves
  obtain ⟨entries, new⟩ := outside_run .silent 0 (tell .silent 0 .strict twoRegister) hostLeaves
  -- Silent middlewares make no calls, so the calls of the run are those of the host.
  have spared : Spared ⟨Scope.wallet⟩ ⟨"guest"⟩ entries := by
    refine spared_of_silent new fun call member => ?_
    simp only [hostLeaves, List.mem_cons, Deed.call.injEq, List.not_mem_nil, or_false,
      reduceCtorEq, false_or] at member
    rcases member with rfl | rfl | rfl | rfl <;> simp [Call.TakesAway]
  refine ⟨held, roomy, left, ?_⟩
  unfold tell at roomy held guests new reachable ⊢
  rw [split] at roomy ⊢
  obtain ⟨handle, occupied, throughout, -, -⟩ :=
    reachable.hold_protects held hostLeaves new (new ▸ roomy) spared
  obtain rfl := Option.some.inj (guests.symm.trans occupied)
  exact (throughout [] hostLeaves [] (by simp)).2.1

end Chronicle

end Switchboard
