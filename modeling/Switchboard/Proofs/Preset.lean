import Switchboard.Proofs.Pipeline.Connect
import Switchboard.Preset

/-!
# `Switchboard.Proofs.Preset`: a registry of presets

Presets never call the registry, so an operation among them is over when the maps have changed
(`perform_eq`). `Preset.Tracked` follows their serial numbers: no two presets share one, and none
that is in the registry was released. `Preset.Stocked` adds where they come from, and is kept by
every operation of a consumer.
-/

set_option autoImplicit false

namespace Switchboard

open Metrics Rpc

/-! ### Presets from a catalogue -/

namespace Catalogue

variable (catalogue : Catalogue)

/-- Whether presets can be built for a scope. -/
def lists (scope : Scope) : Bool := (catalogue.results[scope]?).isSome

/-- For a listed scope a preset with its results is built. -/
theorem build_of_lists {scope : Scope} {results : Results}
    (listed : catalogue.results[scope]? = some results) (pool : Preset.Pool) :
    catalogue.build scope pool =
      (.ok ⟨scope, ⟨pool.next, scope, results⟩⟩, { pool with next := pool.next + 1 }) := by
  unfold build
  rw [listed]
  rfl

/-- For a scope that is not listed nothing is built, and no number is used up. -/
theorem build_of_not_lists {scope : Scope} (unlisted : catalogue.results[scope]? = none)
    (pool : Preset.Pool) :
    catalogue.build scope pool =
      (.error (.invalidScope ("no middleware configured for " ++ scope.text)), pool) := by
  unfold build
  rw [unlisted]

/-- What a catalogue comes to when it is asked for the presets of all scopes. -/
structure Builds (scopes : List Scope) (pool : Preset.Pool)
    (assembly : Assembly Preset.Pool Preset) : Prop where
  /-- The first scope that is not listed ends it. -/
  result : assembly.result =
    match scopes.find? (!catalogue.lists ·) with
    | none => .ok ()
    | some scope => .error (.invalidScope ("no middleware configured for " ++ scope.text))
  /-- The scopes before it get a preset each. -/
  scopes : assembly.built.map Prod.fst = scopes.takeWhile catalogue.lists
  /-- The handle is bound to the scope. -/
  bound : ∀ entry ∈ assembly.built, entry.2.scope = entry.1
  /-- The preset has the listed results. -/
  results : ∀ entry ∈ assembly.built,
    catalogue.results[entry.1]? = some entry.2.middleware.results
  /-- The serial numbers are the next ones of the pool. -/
  serials : assembly.built.map (·.2.middleware.serial) =
    List.range' pool.next assembly.built.length
  outside : assembly.outside = { pool with next := pool.next + assembly.built.length }

/-- Presets are built one after another, up to the first scope that is not listed. -/
theorem assemble_builds (scopes : List Scope) (pool : Preset.Pool) :
    catalogue.Builds scopes pool (Factory.assemble catalogue.build scopes pool) := by
  -- The pool changes with each preset that is built, so the induction is over all pools.
  induction scopes generalizing pool with
  | nil =>
    exact {
      result := rfl
      scopes := rfl
      bound := fun _ member => absurd member List.not_mem_nil
      results := fun _ member => absurd member List.not_mem_nil
      serials := rfl
      outside := rfl }
  | cons scope rest ih =>
    unfold Factory.assemble
    cases found : catalogue.results[scope]? with
    | none =>
      have unlisted : catalogue.lists scope = false := by rw [lists, found]; rfl
      rw [catalogue.build_of_not_lists found]
      exact {
        result := by rw [List.find?_cons_of_pos (by rw [unlisted]; rfl)]
        scopes := by rw [List.takeWhile_cons_of_neg (by rw [unlisted]; simp)]; rfl
        bound := fun _ member => absurd member List.not_mem_nil
        results := fun _ member => absurd member List.not_mem_nil
        serials := rfl
        outside := rfl }
    | some results =>
      have listed : catalogue.lists scope = true := by rw [lists, found]; rfl
      rw [catalogue.build_of_lists found]
      have later := ih { pool with next := pool.next + 1 }
      exact {
        result := by
          rw [List.find?_cons_of_neg (by rw [listed]; simp)]
          exact later.result
        scopes := by
          rw [List.takeWhile_cons_of_pos listed, List.map_cons]
          exact congrArg (scope :: ·) later.scopes
        bound := List.forall_mem_cons.mpr ⟨rfl, later.bound⟩
        results := List.forall_mem_cons.mpr ⟨found, later.results⟩
        serials := by
          rw [List.map_cons, List.length_cons, List.range'_succ]
          exact congrArg (pool.next :: ·) later.serials
        outside := by
          rw [List.length_cons]
          refine later.outside.trans ?_
          rw [Nat.add_right_comm, Nat.add_assoc] }

end Catalogue

namespace Preset

/-! ### Releases of presets -/

/-- The pool after the release of handles. -/
def Pool.without (pool : Pool) (retired : List (Retirement Preset)) : Pool :=
  { pool with released := (retired.map (·.handle.middleware.serial)).reverse ++ pool.released }

/-- Releases among presets leave the maps alone and are entered into the pool. -/
theorem settle_eq (retired : List (Retirement Preset)) (world : World Pool Preset) :
    ∃ entry, world.settle behaviour.release retired =
      ⟨world.registry.note entry, world.outside.without retired⟩ := by
  induction retired generalizing world with
  | nil => exact ⟨id, rfl⟩
  | cons retirement rest ih =>
    obtain ⟨entry, later⟩ := ih (world.finish behaviour.release retirement)
    refine ⟨fun ledger =>
      entry (ledger.noteRetirement retirement.handle.scope retirement.reason), ?_⟩
    show (world.finish behaviour.release retirement).settle behaviour.release rest = _
    rw [later]
    unfold Pool.without
    rw [List.map_cons, List.reverse_cons, List.append_assoc]
    rfl

/-- A call among presets is over when the maps have changed. -/
theorem perform_eq (world : World Pool Preset) (call : Call Preset) :
    ∃ entry, (world.perform behaviour.release call).2 =
      ⟨(world.registry.step call).registry.note entry,
        world.outside.without (world.registry.step call).retired⟩ :=
  settle_eq (world.registry.step call).retired
    ⟨(world.registry.step call).registry, world.outside⟩

/-! ### Serial numbers -/

/-- The serial numbers in use: those of the presets in the registry, and those released. -/
def serials (world : World Pool Preset) : List Nat :=
  world.registry.handlers.values.map (·.middleware.serial) ++ world.outside.released

/-- No serial number is in use twice, and all were handed out. -/
structure Tracked (world : World Pool Preset) : Prop where
  nodup : (serials world).Nodup
  below : ∀ serial ∈ serials world, serial < world.outside.next

/-- It does not matter in which order presets are kept and released. -/
theorem Tracked.of_perm {world after : World Pool Preset} (tracked : Tracked world)
    (same : (serials after).Perm (serials world)) (next : after.outside.next = world.outside.next) :
    Tracked after where
  nodup := same.nodup_iff.mpr tracked.nodup
  below serial member := next ▸ tracked.below serial (same.mem_iff.mp member)

/-- A call that passes no handle moves serial numbers from the registry to the releases. -/
theorem serials_perform_perm (world : World Pool Preset) {call : Call Preset}
    (passes_none : call.handle? = none) :
    (serials (world.perform behaviour.release call).2).Perm (serials world) := by
  obtain ⟨entry, finished⟩ := perform_eq world call
  have conserved := world.registry.handlers_step_perm call
  rw [Registry.accepted?_of_handle?_eq_none _ passes_none] at conserved
  have numbers := conserved.map (·.middleware.serial)
  rw [Option.toList_none, List.nil_append, List.map_append] at numbers
  rw [finished]
  show ((world.registry.step call).registry.handlers.values.map _ ++
    (((world.registry.step call).retired.map _).reverse ++ world.outside.released)).Perm _
  rw [← List.append_assoc]
  -- The presets that leave are released in order, so the pool lists them backwards.
  refine List.Perm.append_right _ (List.Perm.trans ?_ numbers.symm)
  refine List.Perm.append_left _ ((List.reverse_perm _).trans ?_)
  rw [Registry.removed, List.map_map]
  exact .refl _

/-- A preset that is in the registry was not released. -/
theorem Tracked.not_released {world : World Pool Preset} (tracked : Tracked world)
    {handle : Handle Preset} (member : handle ∈ world.registry.handlers.values) :
    handle.middleware.isReleased world.outside = false := by
  have apart := (List.nodup_append'.mp tracked.nodup).2.2
  have here : handle.middleware.serial ∈
      world.registry.handlers.values.map (·.middleware.serial) :=
    List.mem_map_of_mem member
  have gone := apart here
  rwa [isReleased, ← Bool.not_eq_true, List.contains_iff_mem]

/-- New presets have serial numbers that are counted up from the next one, and all others are below
it. -/
theorem Tracked.registered {catalogue : Catalogue} {scopes : List Scope}
    {world : World Pool Preset} {assembly : Assembly Pool Preset} (tracked : Tracked world)
    (builds : catalogue.Builds scopes world.outside assembly) (domain : Domain) :
    Tracked ⟨world.registry.after (registrations domain assembly.built), assembly.outside⟩ := by
  obtain ⟨kept, among, values⟩ :=
    world.registry.values_after_registrations_perm domain assembly.built
  have counted_up : (assembly.built.map Prod.snd).map (·.middleware.serial) =
      List.range' world.outside.next assembly.built.length := by
    rw [List.map_map]
    exact builds.serials
  have numbers : (kept.map (·.middleware.serial)).Sublist
      (List.range' world.outside.next assembly.built.length) := by
    rw [← counted_up]
    exact among.map _
  -- Serial numbers from before are below the next one, and those built now count up from it.
  have new_or_old : (serials ⟨world.registry.after (registrations domain assembly.built),
      assembly.outside⟩).Perm (kept.map (·.middleware.serial) ++ serials world) := by
    unfold serials
    rw [builds.outside, ← List.append_assoc, ← List.map_append]
    exact (values.map _).append_right _
  constructor
  · rw [new_or_old.nodup_iff, List.nodup_append']
    refine ⟨numbers.nodup List.nodup_range', tracked.nodup, ?_⟩
    intro serial new old
    have from_next := (List.mem_range'_1.mp (numbers.subset new)).1
    have below := tracked.below serial old
    omega
  · intro serial member
    show serial < assembly.outside.next
    rw [builds.outside]
    rcases List.mem_append.mp (new_or_old.mem_iff.mp member) with new | old
    · exact (List.mem_range'_1.mp (numbers.subset new)).2
    · exact Nat.lt_add_right _ (tracked.below serial old)

/-! ### What operations keep -/

/-- A world whose presets come from a catalogue. -/
structure Stocked (catalogue : Catalogue) (taken : Nat) (world : World Pool Preset) : Prop where
  sound : world.registry.Sound
  unpinned : world.registry.pinned = ∅
  /-- No more references are held than were ever taken. -/
  few : ∀ scope, world.registry.references scope ≤ taken
  results : ∀ handle ∈ world.registry.handlers.values,
    catalogue.results[handle.scope]? = some handle.middleware.results
  tracked : Tracked world

namespace Stocked

variable {catalogue : Catalogue} {taken : Nat} {world : World Pool Preset}

/-- Nothing is stocked at first. -/
theorem start (catalogue : Catalogue) (policy : ReleasePolicy) :
    Stocked catalogue 0 ⟨.empty policy, {}⟩ where
  sound := .empty policy
  unpinned := rfl
  few scope := by simp [Registry.references, Registry.holdings, Registry.empty]
  results handle member := by simp [Registry.empty] at member
  tracked := by constructor <;> simp [serials, Registry.empty]

/-- Notes in the ledger do not touch the stock. -/
theorem note (stocked : Stocked catalogue taken world) (entry : Ledger → Ledger) :
    Stocked catalogue taken (world.mapRegistry (·.note entry)) :=
  ⟨stocked.sound.note entry, stocked.unpinned, stocked.few, stocked.results,
    stocked.tracked.nodup, stocked.tracked.below⟩

/-- As few references were taken there is room for more. -/
theorem room (stocked : Stocked catalogue taken world) (calls : List (Call Preset))
    (small : taken + calls.length < 2 ^ 32) : world.registry.HasRoom calls := by
  intro scope
  have few := stocked.few scope
  have at_most := List.countP_le_length (l := calls) (p := (·.takesOn scope))
  omega

/-- A call that passes no handle. -/
theorem perform (stocked : Stocked catalogue taken world) {call : Call Preset}
    (passes_none : call.handle? = none) (small : taken < 2 ^ 32) :
    Stocked catalogue taken (world.perform behaviour.release call).2 := by
  -- Only registrations take references, so there is room for any other call.
  have takes_none (scope : Scope) : [call].countP (·.takesOn scope) = 0 := by
    cases call with
    | register | install => exact absurd passes_none (by simp [Call.handle?])
    | _ => rfl
  have room : world.registry.HasRoom [call] := by
    intro scope
    have few := stocked.few scope
    rw [takes_none scope]
    omega
  have same := serials_perform_perm world passes_none
  obtain ⟨entry, finished⟩ := perform_eq world call
  have next : (world.perform behaviour.release call).2.outside.next = world.outside.next := by
    rw [finished]
    rfl
  refine ⟨?_, ?_, ?_, ?_, stocked.tracked.of_perm same next⟩
  · rw [finished]
    exact (stocked.sound.step call room).note entry
  · rw [finished]
    exact Registry.pinned_step_eq_empty stocked.unpinned passes_none
  · intro scope
    rw [finished]
    have step := stocked.sound.references_step_le call room scope
    rw [takes_none scope] at step
    exact Nat.le_trans step (stocked.few scope)
  · intro handle member
    rw [finished] at member
    have conserved := world.registry.handlers_step_perm call
    rw [Registry.accepted?_of_handle?_eq_none _ passes_none] at conserved
    exact stocked.results handle (conserved.mem_iff.mpr (List.mem_append_left _ member))

/-- Registrations of presets that the catalogue builds. -/
theorem registered (stocked : Stocked catalogue taken world) (domain : Domain)
    (scopes : List Scope)
    (small : taken + (scopes.takeWhile catalogue.lists).length < 2 ^ 32) :
    Stocked catalogue (taken + (scopes.takeWhile catalogue.lists).length)
      (Pipeline.registered catalogue.build domain scopes world) := by
  have builds := catalogue.assemble_builds scopes world.outside
  unfold Pipeline.registered
  generalize Factory.assemble catalogue.build scopes world.outside = assembly at builds ⊢
  have calls : (registrations domain assembly.built).length =
      (scopes.takeWhile catalogue.lists).length := by
    rw [registrations, List.length_map, ← builds.scopes, List.length_map]
  -- Each registration takes one reference at most.
  have room := stocked.room (registrations domain assembly.built) (calls ▸ small)
  refine ⟨stocked.sound.after room, ?_, fun scope => ?_, fun handle member => ?_,
    stocked.tracked.registered builds domain⟩
  · show (world.registry.after (registrations domain assembly.built)).pinned = ∅
    rw [Registry.pinned_after_registrations, stocked.unpinned]
  · have later := stocked.sound.references_after_le room scope
    have few := stocked.few scope
    have at_most := List.countP_le_length (l := registrations domain assembly.built)
      (p := (·.takesOn scope))
    show (world.registry.after (registrations domain assembly.built)).references scope ≤ _
    omega
  · obtain ⟨kept, among, values⟩ :=
      world.registry.values_after_registrations_perm domain assembly.built
    rcases List.mem_append.mp (values.mem_iff.mp member) with new | old
    · obtain ⟨entry, listed, rfl⟩ := List.mem_map.mp (among.subset new)
      rw [builds.bound entry listed]
      exact builds.results entry listed
    · exact stocked.results handle old

end Stocked

end Preset

end Switchboard
