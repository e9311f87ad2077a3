import Switchboard.Pipeline
import Switchboard.Proofs.Registry.Conservation

/-!
# `Switchboard.Proofs.Pipeline.Connect`: a connection as a list of registrations

`Pipeline.connectFrom` asks its factory and registers in turn. A registration releases nothing, so
no middleware runs in between: `connectFrom_eq` says that a connection is what the factory comes to
(`Factory.assemble`), followed by all registrations at once (`Registry.after`), followed by giving
back if the factory failed.
-/

set_option autoImplicit false

namespace Switchboard

variable {ε μ : Type}

/-! ### Calls in a row -/

/-- The registry after calls whose releases touch no registry. -/
def Registry.after (registry : Registry μ) (calls : List (Call μ)) : Registry μ :=
  calls.foldl (fun registry call => (registry.step call).registry) registry

namespace Registry

/-- No calls change nothing. -/
@[simp]
theorem after_nil (registry : Registry μ) : registry.after [] = registry := rfl

/-- The first call is made before the others. -/
@[simp]
theorem after_cons (registry : Registry μ) (call : Call μ) (rest : List (Call μ)) :
    registry.after (call :: rest) = (registry.step call).registry.after rest := rfl

/-- Where there is room for all calls there is room for the first. -/
theorem HasRoom.head {registry : Registry μ} {call : Call μ} {rest : List (Call μ)}
    (room : registry.HasRoom (call :: rest)) : registry.HasRoom [call] := by
  intro scope
  have all := room scope
  rw [List.countP_cons] at all
  rw [List.countP_cons, List.countP_nil]
  omega

/-- What a call takes is taken out of the room that there was. -/
theorem HasRoom.tail {registry : Registry μ} {call : Call μ} {rest : List (Call μ)}
    (sound : registry.Sound) (room : registry.HasRoom (call :: rest)) :
    (registry.step call).registry.HasRoom rest := by
  intro scope
  have all := room scope
  have step := sound.references_step_le call room.head scope
  rw [List.countP_cons] at all
  rw [List.countP_cons, List.countP_nil] at step
  omega

/-- A registry stays sound through calls for which there is room. -/
theorem Sound.after {registry : Registry μ} (sound : registry.Sound) {calls : List (Call μ)}
    (room : registry.HasRoom calls) : (registry.after calls).Sound := by
  induction calls generalizing registry with
  | nil => exact sound
  | cons call rest ih => exact ih (sound.step call room.head) (room.tail sound)

end Registry

/-! ### What a factory comes to -/

/-- The handles that a factory had for one scope after another, and why it stopped. -/
structure Assembly (ε μ : Type) where
  /-- The scopes that were asked for, each with the handle that was built. -/
  built : List (Scope × Handle μ)
  result : Except Failure Unit
  outside : ε

/-- Asks a factory for the handles of all scopes, up to the first failure. -/
def Factory.assemble (factory : Factory ε μ) : List Scope → ε → Assembly ε μ
  | [], outside => ⟨[], .ok (), outside⟩
  | scope :: rest, outside =>
    match factory scope outside with
    | (.error failure, outside) => ⟨[], .error failure, outside⟩
    | (.ok handle, outside) =>
      let later := assemble factory rest outside
      { later with built := (scope, handle) :: later.built }

/-- The registrations of a domain with handles that were built. -/
def registrations (domain : Domain) (built : List (Scope × Handle μ)) : List (Call μ) :=
  built.map fun entry => .register entry.1 domain entry.2

/-- Nothing that was built is registered by no calls. -/
@[simp]
theorem registrations_nil (domain : Domain) :
    registrations domain ([] : List (Scope × Handle μ)) = [] := rfl

/-- What was built first is registered first. -/
@[simp]
theorem registrations_cons (domain : Domain) (entry : Scope × Handle μ)
    (rest : List (Scope × Handle μ)) :
    registrations domain (entry :: rest) =
      .register entry.1 domain entry.2 :: registrations domain rest := rfl

/-- How many of the handles for a scope are bound to it. Only these are registered. -/
def granted (built : List (Scope × Handle μ)) (scope : Scope) : Nat :=
  built.countP fun entry => entry.1 = scope ∧ entry.2.scope = scope

/-- A handle is granted on its scope if it is bound to it. -/
theorem granted_cons (entry : Scope × Handle μ) (rest : List (Scope × Handle μ)) (scope : Scope) :
    granted (entry :: rest) scope =
      granted rest scope + if entry.1 = scope ∧ entry.2.scope = scope then 1 else 0 := by
  rw [granted, List.countP_cons, granted]
  simp only [decide_eq_true_eq]

/-- If all handles are bound to their scopes, each of them is granted. -/
theorem granted_of_bound {built : List (Scope × Handle μ)}
    (bound : ∀ entry ∈ built, entry.2.scope = entry.1) (scope : Scope) :
    granted built scope = (built.map Prod.fst).count scope := by
  rw [granted, List.count, List.countP_map]
  refine List.countP_congr fun entry member => ?_
  simp [bound entry member]

/-! ### What registrations come to -/

namespace Registry

/-- The references on a scope grow by at most those that are taken. -/
theorem Sound.references_after_le {registry : Registry μ} (sound : registry.Sound)
    {calls : List (Call μ)} (room : registry.HasRoom calls) (scope : Scope) :
    (registry.after calls).references scope ≤
      registry.references scope + calls.countP (·.takesOn scope) := by
  induction calls generalizing registry with
  | nil => exact Nat.le_refl _
  | cons call rest ih =>
    have later := ih (sound.step call room.head) (room.tail sound)
    have first := sound.references_step_le call room.head scope
    rw [List.countP_cons, List.countP_nil] at first
    rw [after_cons, List.countP_cons]
    omega

/-- Registrations pin nothing. -/
theorem pinned_after_registrations (registry : Registry μ) (domain : Domain)
    (built : List (Scope × Handle μ)) :
    (registry.after (registrations domain built)).pinned = registry.pinned := by
  induction built generalizing registry with
  | nil => rfl
  | cons entry rest ih =>
    rw [registrations_cons, after_cons, ih]
    by_cases bound : entry.2.scope = entry.1
    · exact pinned_register bound domain
    · show (registry.register entry.1 domain entry.2).registry.pinned = _
      rw [register_of_ne bound]
      rfl

/-- Some of the handles that are registered join those that were there. -/
theorem values_after_registrations_perm (registry : Registry μ) (domain : Domain)
    (built : List (Scope × Handle μ)) :
    ∃ kept : List (Handle μ), kept.Sublist (built.map Prod.snd) ∧
      (registry.after (registrations domain built)).handlers.values.Perm
        (kept ++ registry.handlers.values) := by
  induction built generalizing registry with
  | nil => exact ⟨[], .slnil, .refl _⟩
  | cons entry rest ih =>
    obtain ⟨kept, among, later⟩ := ih (registry.step (.register entry.1 domain entry.2)).registry
    have first := registry.values_admit_perm entry.1 entry.2
    rw [← handlers_register registry entry.1 domain entry.2] at first
    -- A handle that is not admitted is dropped, and the list of those kept skips it.
    refine ⟨(if registry.Admits entry.1 entry.2 then some entry.2 else none).toList ++ kept,
      ?_, ?_⟩
    · split
      · exact among.cons_cons entry.2
      · exact among.cons entry.2
    · refine later.trans ((first.symm.append_left kept).trans ?_)
      rw [← List.append_assoc]
      exact List.perm_append_comm.append_right _

/-- Every registration of a handle with its own scope adds one reference, and others add none. -/
theorem Sound.toNat_domainCount_after_registrations {registry : Registry μ}
    (sound : registry.Sound) {domain : Domain} {built : List (Scope × Handle μ)}
    (room : registry.HasRoom (registrations domain built)) (scope : Scope) (holder : Domain) :
    ((registry.after (registrations domain built)).domainCount scope holder).toNat =
      (registry.domainCount scope holder).toNat +
        if holder = domain then granted built scope else 0 := by
  induction built generalizing registry with
  | nil => simp [granted]
  | cons entry rest ih =>
    rw [registrations_cons] at room ⊢
    -- The induction runs over registries: the first registration leaves one with room for the rest.
    have later := ih (sound.step _ room.head) (room.tail sound)
    rw [after_cons, later, granted_cons]
    by_cases bound : entry.2.scope = entry.1
    · -- A handle of another scope is refused, and a refusal takes no reference.
      have first :
          (registry.step (.register entry.1 domain entry.2)).registry.domainCount scope holder =
            if scope = entry.1 ∧ holder = domain then registry.domainCount entry.1 domain + 1
            else registry.domainCount scope holder :=
        domainCount_register bound domain scope holder
      rw [first]
      by_cases here : scope = entry.1 ∧ holder = domain
      · obtain ⟨rfl, rfl⟩ := here
        have more : (registry.domainCount entry.1 holder + 1).toNat =
            (registry.domainCount entry.1 holder).toNat + 1 :=
          Holdings.toNat_of_add_one _ _ (room.head.register bound)
        rw [if_pos ⟨rfl, rfl⟩, more, if_pos rfl, if_pos rfl]
        simp [bound]
        omega
      · rw [if_neg here]
        by_cases same : holder = domain
        · have apart : entry.1 ≠ scope := fun eq => here ⟨eq.symm, same⟩
          simp [same, apart]
        · simp [same]
    · have first :
          (registry.step (.register entry.1 domain entry.2)).registry.domainCount scope holder =
            registry.domainCount scope holder := by
        show (registry.register entry.1 domain entry.2).registry.domainCount scope holder = _
        rw [register_of_ne bound]
        rfl
      have not_granted : ¬(entry.1 = scope ∧ entry.2.scope = scope) := fun both =>
        bound (both.2.trans both.1.symm)
      rw [first]
      simp [not_granted]

/-- With handles that are bound to their scopes, every registration adds one reference. -/
theorem Sound.toNat_domainCount_after {registry : Registry μ} (sound : registry.Sound)
    {domain : Domain} {built : List (Scope × Handle μ)}
    (bound : ∀ entry ∈ built, entry.2.scope = entry.1)
    (room : registry.HasRoom (registrations domain built)) (scope : Scope) (holder : Domain) :
    ((registry.after (registrations domain built)).domainCount scope holder).toNat =
      (registry.domainCount scope holder).toNat +
        if holder = domain then (built.map Prod.fst).count scope else 0 := by
  rw [sound.toNat_domainCount_after_registrations room, granted_of_bound bound]

end Registry

/-! ### A connection -/

namespace Pipeline

variable (pipeline : Pipeline ε μ) (factory : Factory ε μ) (domain : Domain)

/-- A registration lets nobody run. -/
theorem run_register (world : World ε μ) (scope : Scope) (handle : Handle μ) :
    (world.run pipeline.behaviour.release (·.register scope domain handle)).2 =
      ⟨(world.registry.step (.register scope domain handle)).registry, world.outside⟩ := by
  simp only [World.run, Registry.retired_register, World.settle_nil]
  rfl

/-- The world after all registrations of a connection. -/
def registered (scopes : List Scope) (world : World ε μ) : World ε μ :=
  let assembly := factory.assemble scopes world.outside
  ⟨world.registry.after (registrations domain assembly.built), assembly.outside⟩

/-- A connection registers what the factory had, and gives it back if the factory failed. -/
theorem connectFrom_eq (taken scopes : List Scope) (world : World ε μ) :
    pipeline.connectFrom factory domain taken scopes world =
      let assembly := factory.assemble scopes world.outside
      (assembly.result,
        match assembly.result with
        | .ok () => registered factory domain scopes world
        | .error _ =>
          pipeline.giveBack domain (taken ++ assembly.built.map Prod.fst)
            (registered factory domain scopes world)) := by
  -- Those already taken grow with every scope, and the world moves on.
  induction scopes generalizing taken world with
  | nil => rfl
  | cons scope rest ih =>
    unfold connectFrom registered Factory.assemble
    rcases factory scope world.outside with ⟨failure | handle, outside⟩
    · simp only [List.map_nil, List.append_nil]
      rfl
    · simp only [run_register, ih]
      rw [List.append_assoc]
      rfl

/-- A connection succeeds if everything could be built, and then answers with the number of
scopes. -/
theorem result_connect (scopes : List Scope) (world : World ε μ) :
    (pipeline.connect factory domain scopes world).1 =
      (factory.assemble scopes world.outside).result.map fun _ => scopes.length := by
  unfold connect
  rw [connectFrom_eq]

/-- A connection that succeeds leaves the registrations. -/
theorem world_connect_of_ok {scopes : List Scope} {world : World ε μ}
    (ok : (factory.assemble scopes world.outside).result = .ok ()) :
    (pipeline.connect factory domain scopes world).2 =
      registered factory domain scopes world := by
  simp only [connect, connectFrom_eq, ok]

/-- A connection that fails gives back what was built until then. -/
theorem world_connect_of_error {scopes : List Scope} {world : World ε μ} {failure : Failure}
    (error : (factory.assemble scopes world.outside).result = .error failure) :
    (pipeline.connect factory domain scopes world).2 =
      pipeline.giveBack domain ((factory.assemble scopes world.outside).built.map Prod.fst)
        (registered factory domain scopes world) := by
  simp only [connect, connectFrom_eq, error, List.nil_append]

end Pipeline

end Switchboard
