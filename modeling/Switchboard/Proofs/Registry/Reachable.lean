import Switchboard.Proofs.Pipeline.Connect
import Switchboard.Proofs.Registry.Room

/-!
# `Switchboard.Proofs.Registry.Reachable`: what holds of every registry that can be reached

`Chronicle.Reachable` collects the stories that calls, dispatches and the operations of a consumer
lead to from a new registry, with middlewares that follow any script. The main result,
`Reachable.consistent`, says how the three maps fit together in each of them, also in the middle of
an operation, when a middleware makes a call while others are still to be released.
-/

set_option autoImplicit false

namespace Switchboard.Chronicle

variable {μ : Type}

/-- The factory that decides on a handle by the scope and by all that happened before. -/
def builder (build : Scope → List (Entry μ) → Except Failure (Handle μ)) :
    Factory (List (Entry μ)) μ :=
  fun scope entries => (build scope entries, entries ++ [.asked scope])

/-- The pipeline of a consumer among middlewares that follow a script. -/
def Script.pipeline (script : Script μ) (depth : Nat) : Pipeline (List (Entry μ)) μ :=
  { behaviour := script.behaviour depth }

/-- The stories that can be reached from a new registry. A connection needs room for the references
that it takes before it may have to give them back. -/
inductive Reachable (script : Script μ) (depth : Nat) (policy : ReleasePolicy) : Story μ → Prop
  | start : Reachable script depth policy ⟨.empty policy, []⟩
  | act {story : Story μ} (deed : Deed μ) : Reachable script depth policy story →
      Reachable script depth policy (act (script.behaviour depth) story deed)
  | connect {story : Story μ} (build : Scope → List (Entry μ) → Except Failure (Handle μ))
      (domain : Domain) (scopes : List Scope) : Reachable script depth policy story →
      story.registry.HasRoom
        (registrations domain ((builder build).assemble scopes story.outside).built) →
      Reachable script depth policy
        ((script.pipeline depth).connect (builder build) domain scopes story).2
  | disconnect {story : Story μ} (domain : Domain) : Reachable script depth policy story →
      Reachable script depth policy ((script.pipeline depth).disconnect domain story).2
  | shutdown {story : Story μ} : Reachable script depth policy story →
      Reachable script depth policy ((script.pipeline depth).shutdown story).2

/-- The registry is sound, and so is every registry that a call has found. -/
structure Orderly (story : Story μ) : Prop where
  sound : story.registry.Sound
  found_sound : ∀ found call, .called found call ∈ story.outside → found.Sound

namespace Orderly

/-- A new registry is sound, and no call has found another one. -/
theorem start (policy : ReleasePolicy) : Orderly (⟨.empty policy, []⟩ : Story μ) where
  sound := .empty policy
  found_sound _ _ member := absurd member List.not_mem_nil

/-- Notes in the ledger change nothing that soundness is about. -/
theorem note {story : Story μ} (orderly : Orderly story)
    (entry : Metrics.Ledger → Metrics.Ledger) :
    Orderly (story.mapRegistry fun registry => registry.note entry) :=
  ⟨orderly.sound.note entry, orderly.found_sound⟩

/-- Calls that release nothing need not be entered. -/
theorem after {story : Story μ} (orderly : Orderly story) {calls : List (Call μ)}
    (room : story.registry.HasRoom calls) :
    Orderly ⟨story.registry.after calls, story.outside⟩ :=
  ⟨orderly.sound.after room, orderly.found_sound⟩

/-- Entries that are no calls tell of no registry. -/
theorem append {story : Story μ} (orderly : Orderly story) {entries : List (Entry μ)}
    (others : ∀ found call, .called found call ∉ entries) :
    Orderly ⟨story.registry, story.outside ++ entries⟩ where
  sound := orderly.sound
  found_sound found call member := by
    rcases List.mem_append.mp member with old | new
    · exact orderly.found_sound found call old
    · exact absurd new (others found call)

/-- A call finds a sound registry and leaves one. -/
theorem call {story : Story μ} (orderly : Orderly story) (call : Call μ)
    (room : story.registry.HasRoom [call]) : Orderly (afterCall story call) where
  sound := orderly.sound.step call room
  found_sound found other member := by
    rcases List.mem_append.mp member with old | new
    · exact orderly.found_sound found other old
    · rw [(Entry.called.inj (List.mem_singleton.mp new)).1]
      exact orderly.sound

/-- Every event keeps a story orderly, as long as there is room. -/
theorem stepwise :
    Stepwise fun _ (story : Story μ) => Roomy story.outside → Orderly story where
  reorder _ h := h
  call call h roomy := (h roomy.earlier).call call roomy.last
  release retirement h roomy :=
    ((h roomy.earlier).note
      (·.noteRetirement retirement.handle.scope retirement.reason)).append (by simp)
  handle scope handle _ h roomy := (h roomy.earlier).append (by simp)
  note outcome h roomy := (h roomy).note (·.noteDispatch outcome)

end Orderly

/-! ### The operations of a consumer -/

/-- A factory that is asked leaves nothing but that in the chronicle. -/
theorem outside_assemble_builder (build : Scope → List (Entry μ) → Except Failure (Handle μ))
    (scopes : List Scope) (entries : List (Entry μ)) :
    ∃ asked : List Scope,
      ((builder build).assemble scopes entries).outside = entries ++ asked.map .asked := by
  induction scopes generalizing entries with
  | nil => exact ⟨[], (List.append_nil entries).symm⟩
  | cons scope rest ih =>
    unfold Factory.assemble builder
    cases build scope entries with
    | error failure => exact ⟨[scope], rfl⟩
    | ok handle =>
      obtain ⟨asked, later⟩ := ih (entries ++ [.asked scope])
      refine ⟨scope :: asked, ?_⟩
      show ((builder build).assemble rest (entries ++ [.asked scope])).outside = _
      rw [later, List.map_cons, List.append_assoc]
      rfl

section Operations

variable {script : Script μ} {depth : Nat} {story : Story μ}

/-- With room for all references that were taken, the story is orderly. It does not matter which
handles are still due. -/
abbrev Settled (story : Story μ) : Prop := Roomy story.outside → Orderly story

/-- An operation that is not entered into the chronicle keeps a story orderly if it keeps the
registry sound. -/
theorem Settled.run {α : Type} (h : Settled story) (operation : Registry μ → Effect μ α)
    (keeps : story.registry.Sound → (operation story.registry).registry.Sound) :
    Settled (story.run (script.behaviour depth).release operation).2 := by
  -- The maps have changed before the first release, and every release keeps a story orderly.
  have middle : Settled ⟨(operation story.registry).registry, story.outside⟩ := fun roomy =>
    ⟨keeps (h roomy).sound, (h roomy).found_sound⟩
  have keeps_release := Orderly.stepwise.keeps script depth
  exact @Keeps.settle _ _ _ keeps_release [] _ _ middle

/-- One deed keeps a story settled. -/
theorem Settled.act (h : Settled story) (deed : Deed μ) :
    Settled (act (script.behaviour depth) story deed) := by
  have keeps := Orderly.stepwise.keeps script depth
  exact @Stepwise.keeps_act _ _ _ Orderly.stepwise keeps [] _ h deed

/-- References that are given back keep a story settled. -/
theorem Settled.giveBack (h : Settled story) (domain : Domain) (scopes : List Scope) :
    Settled ((script.pipeline depth).giveBack domain scopes story) := by
  induction scopes generalizing story with
  | nil => exact h
  | cons scope rest ih => exact ih (h.run _ fun sound => sound.release scope domain)

/-- A connection keeps a story settled, as long as there is room for its registrations. -/
theorem Settled.connect (h : Settled story)
    (build : Scope → List (Entry μ) → Except Failure (Handle μ)) (domain : Domain)
    (scopes : List Scope)
    (room : story.registry.HasRoom
      (registrations domain ((builder build).assemble scopes story.outside).built)) :
    Settled ((script.pipeline depth).connect (builder build) domain scopes story).2 := by
  -- While it registers, a connection lets no middleware run; only giving back may.
  have registered :
      Settled (Pipeline.registered (builder build) domain scopes story) := by
    intro roomy
    obtain ⟨asked, grown⟩ := outside_assemble_builder build scopes story.outside
    unfold Pipeline.registered at roomy ⊢
    simp only [grown] at roomy ⊢
    have before := h roomy.earlier
    exact (before.after room).append (by simp)
  cases result : ((builder build).assemble scopes story.outside).result with
  | ok _ =>
    rw [Pipeline.world_connect_of_ok _ _ _ result]
    exact registered
  | error failure =>
    rw [Pipeline.world_connect_of_error _ _ _ result]
    exact registered.giveBack domain _

end Operations

/-- Every story that can be reached is settled. -/
theorem Reachable.settled {script : Script μ} {depth : Nat} {policy : ReleasePolicy}
    {story : Story μ} (reachable : Reachable script depth policy story) : Settled story := by
  induction reachable with
  | start => exact fun _ => .start policy
  | act deed _ ih => exact ih.act deed
  | connect build domain scopes _ room ih => exact ih.connect build domain scopes room
  | disconnect domain _ ih => exact ih.run _ fun sound => sound.releaseDomain domain
  | shutdown _ ih => exact ih.run _ fun _ => .releaseAll _

/-- The three maps of a registry fit together in every story that can be reached, and did so
whenever a call began. Nobody is listed without a reference. A scope has a handler exactly if
references are held on it or it is pinned, and the handler is bound to it. So the scopes are listed
once each, in ascending order, whoever has references has a handler, and a registry without handlers
and references is as it was in the beginning. -/
theorem Reachable.consistent {script : Script μ} {depth : Nat} {policy : ReleasePolicy}
    {story : Story μ} (reachable : Reachable script depth policy story)
    (roomy : Roomy story.outside) (registry : Registry μ)
    (seen : registry = story.registry ∨ ∃ call, .called registry call ∈ story.outside) :
    (∀ (scope : Scope) (held : Holdings), registry.counts[scope]? = some held →
      held ≠ ∅ ∧ ∀ (domain : Domain) (count : UInt32), held[domain]? = some count → 1 ≤ count) ∧
    (∀ scope, scope ∈ registry.handlers ↔ scope ∈ registry.counts ∨ scope ∈ registry.pinned) ∧
    (∀ (scope : Scope) (handle : Handle μ), registry.handlers[scope]? = some handle →
      handle.scope = scope) ∧
    registry.scopes.Pairwise (compare · · = .lt) ∧
    (∀ scope, scope ∈ registry.scopes ↔ registry.isRegistered scope = true) ∧
    (∀ scope, 0 < registry.referenceCount scope → registry.isRegistered scope = true) ∧
    (registry.isEmpty = true →
      registry = { Registry.empty registry.policy with ledger := registry.ledger }) := by
  have orderly := reachable.settled roomy
  -- Registries that calls have found are sound by the chronicle, and the last one is by itself.
  have sound : registry.Sound := by
    rcases seen with rfl | ⟨call, entered⟩
    · exact orderly.sound
    · exact orderly.found_sound registry call entered
  refine ⟨fun scope held listed => ⟨?_, fun domain count holds => ?_⟩, sound.mem_handlers_iff,
    sound.bound, Std.ExtTreeMap.ordered_keys, registry.mem_scopes_iff,
    fun scope => sound.isRegistered_of_referenceCount_pos, sound.eq_empty_of_isEmpty⟩
  · have some_held := sound.held scope
      (Std.ExtTreeMap.mem_iff_isSome_getElem?.mpr (by simp [listed]))
    rwa [Registry.holdings, listed] at some_held
  · -- A count that is listed is not zero, and so at least one.
    have some_held := sound.proper scope domain
    rw [Registry.holdings, listed, Option.getD_some, Holdings.of, holds, Option.getD_some]
      at some_held
    have not_zero := some_held (Std.ExtTreeMap.mem_iff_isSome_getElem?.mpr (by simp [holds]))
    rw [UInt32.le_iff_toNat_le, UInt32.toNat_one]
    exact Nat.one_le_iff_ne_zero.mpr fun zero => not_zero (UInt32.toNat_inj.mp zero)

/-- A wallet that was installed, before two references are taken on it. -/
def installed : Story Nat :=
  act (Script.silent.behaviour 0) ⟨.empty .strict, []⟩
    (.call (.install ⟨Scope.wallet⟩ ⟨⟨Scope.wallet⟩, 0⟩))

/-- The wallet with two references of a guest. -/
def shared : Story Nat :=
  ((Script.silent.pipeline 0).connect (builder fun scope entries => .ok ⟨scope, entries.length⟩)
    ⟨"guest"⟩ [⟨Scope.wallet⟩, ⟨Scope.wallet⟩] installed).2

/-- The wallet with two references has a handler. -/
theorem consistent_shared :
    Reachable .silent 0 .strict shared ∧ Roomy shared.outside ∧
      0 < shared.registry.referenceCount ⟨Scope.wallet⟩ ∧
      shared.registry.isRegistered ⟨Scope.wallet⟩ = true := by
  have no_counts : installed.registry.counts = ∅ := by decide +kernel
  have room (calls : List (Call Nat)) (short : calls.length < 2 ^ 32) :
      installed.registry.HasRoom calls := by
    intro scope
    have few := List.countP_le_length (l := calls) (p := (·.takesOn scope))
    simp only [Registry.references, Registry.holdings, no_counts, Std.ExtTreeMap.getElem?_empty,
      Option.getD_none, Holdings.sum_empty]
    omega
  -- The wallet was installed by a deed, and is shared by a connection.
  have reachable : Reachable .silent 0 .strict shared :=
    .connect _ _ _ (.act _ .start) (room _ (by decide +kernel))
  have roomy : Roomy shared.outside := by
    have entries : shared.outside =
        [.called (.empty .strict) (.install ⟨Scope.wallet⟩ ⟨⟨Scope.wallet⟩, 0⟩),
          .asked ⟨Scope.wallet⟩, .asked ⟨Scope.wallet⟩] := by
      decide +kernel
    rw [entries]
    simp [Roomy, Entry.HasRoom, Registry.HasRoom, Registry.references, Registry.holdings,
      Registry.empty, Call.takesOn]
  have positive : 0 < shared.registry.referenceCount ⟨Scope.wallet⟩ := by decide +kernel
  obtain ⟨-, -, -, -, -, registered, -⟩ := reachable.consistent roomy shared.registry (Or.inl rfl)
  exact ⟨reachable, roomy, positive, registered _ positive⟩

end Switchboard.Chronicle
