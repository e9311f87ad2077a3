import Switchboard.Proofs.Pipeline.Connect
import Switchboard.Proofs.Registry.Counts
import Switchboard.Proofs.Registry.Entries

/-!
# `Switchboard.Proofs.Registry.Owing`: references that are to be given back

`Registry.Owing` compares a registry with an earlier one, its `origin`: a domain has taken some
references more, and nothing else was done. Registrations lead there (`Owing.registered`) and each
reference that is given back leads one step nearer to the origin (`Owing.release`). With none left
the three maps are those of the origin again (`Owing.maps_eq`).

The reason is that a handler of the origin cannot leave on the way. It is kept by a reference that
was held before or by a pin, and only the others are given back.
-/

set_option autoImplicit false

namespace Switchboard

open Metrics

variable {μ : Type}

/-- Where nobody is listed without a reference, the list says no more than who holds what. -/
theorem Holdings.Proper.getElem?_eq {held : Holdings} (proper : held.Proper) (domain : Domain) :
    held[domain]? = if held.of domain = 0 then none else some (held.of domain) := by
  cases listed : held[domain]? with
  | none =>
    have none_held : held.of domain = 0 := by rw [of, listed, Option.getD_none]
    rw [if_pos none_held]
  | some count =>
    have member : domain ∈ held := Std.ExtTreeMap.mem_iff_isSome_getElem?.mpr (by rw [listed]; rfl)
    have count_eq : held.of domain = count := by rw [of, listed, Option.getD_some]
    rw [if_neg (proper domain member), count_eq]

/-- Proper lists are the same if everybody holds the same. -/
theorem Holdings.Proper.ext {held other : Holdings} (proper : held.Proper)
    (proper' : other.Proper) (same : ∀ domain, held.of domain = other.of domain) :
    held = other := by
  apply Std.ExtTreeMap.ext_getElem?
  intro domain
  rw [proper.getElem?_eq, proper'.getElem?_eq, same]

namespace Registry

namespace Sound

variable {registry other : Registry μ}

/-- A scope is listed exactly with what is held on it. -/
theorem getElem?_counts (sound : registry.Sound) (scope : Scope) :
    registry.counts[scope]? =
      if registry.holdings scope = ∅ then none else some (registry.holdings scope) := by
  cases listed : registry.counts[scope]? with
  | none =>
    have none_held : registry.holdings scope = ∅ := by rw [holdings, listed, Option.getD_none]
    rw [if_pos none_held]
  | some held =>
    have member : scope ∈ registry.counts :=
      Std.ExtTreeMap.mem_iff_isSome_getElem?.mpr (by rw [listed]; rfl)
    have held_eq : registry.holdings scope = held := by rw [holdings, listed, Option.getD_some]
    rw [if_neg (sound.held scope member), held_eq]

/-- The references of a sound registry are known by what every domain holds. -/
theorem counts_eq (sound : registry.Sound) (sound' : other.Sound)
    (same : ∀ scope domain, registry.domainCount scope domain = other.domainCount scope domain) :
    registry.counts = other.counts := by
  apply Std.ExtTreeMap.ext_getElem?
  intro scope
  rw [sound.getElem?_counts, sound'.getElem?_counts,
    (sound.proper scope).ext (sound'.proper scope) (same scope)]

end Sound

/-- A registry in comparison with an earlier one. A domain holds a reference more on each of the
scopes in `due`, and the handlers that came in since then are among `fresh`. -/
structure Owing (origin : Registry μ) (domain : Domain) (fresh : List (Handle μ))
    (due : List Scope) (registry : Registry μ) : Prop where
  sound : registry.Sound
  pinned : registry.pinned = origin.pinned
  counts : ∀ scope holder, (registry.domainCount scope holder).toNat =
    (origin.domainCount scope holder).toNat + if holder = domain then due.count scope else 0
  /-- The handlers that were there are still there. -/
  kept : ∀ scope handle, origin.handler? scope = some handle →
    registry.handler? scope = some handle
  /-- Others came in since then. -/
  fresh_of : ∀ scope handle, registry.handler? scope = some handle →
    origin.handler? scope = none → handle ∈ fresh
  /-- Nothing was refused since then. -/
  violations : registry.ledger.contractViolations = origin.ledger.contractViolations

/-! ### Registrations -/

/-- A registration releases nobody, so calls one after another need not wait. -/
theorem flat_registrations (registry : Registry μ) (domain : Domain)
    (built : List (Scope × Handle μ)) :
    (registry.flat (registrations domain built)).2 =
      registry.after (registrations domain built) := by
  induction built generalizing registry with
  | nil => rfl
  | cons entry rest ih =>
    have releases_nobody :
        (registry.step (.register entry.1 domain entry.2)).retired = [] :=
      retired_register registry entry.1 domain entry.2
    rw [registrations_cons, flat_cons, after_cons, ← ih, releases_nobody]
    rfl

/-- A registration leaves the handlers that there are. -/
theorem handler?_after_registrations (registry : Registry μ) (domain : Domain)
    (built : List (Scope × Handle μ)) {scope : Scope} {handle : Handle μ}
    (occupied : registry.handler? scope = some handle) :
    (registry.after (registrations domain built)).handler? scope = some handle := by
  induction built generalizing registry with
  | nil => exact occupied
  | cons entry rest ih =>
    apply ih
    show (registry.register entry.1 domain entry.2).registry.handler? scope = some handle
    by_cases bound : entry.2.scope = entry.1
    · rw [handler?_register bound]
      split
      · rename_i same
        rw [← same, occupied, Option.getD_some]
      · exact occupied
    · rw [register_of_ne bound]
      exact occupied

/-- Registrations of handles with their own scopes are not refused. -/
theorem contractViolations_after_registrations (registry : Registry μ) (domain : Domain)
    {built : List (Scope × Handle μ)} (bound : ∀ entry ∈ built, entry.2.scope = entry.1) :
    (registry.after (registrations domain built)).ledger.contractViolations =
      registry.ledger.contractViolations := by
  induction built generalizing registry with
  | nil => rfl
  | cons entry rest ih =>
    have accepted : registry.entry (.register entry.1 domain entry.2) registry.ledger =
        registry.ledger.noteRegistration entry.1 (registry.handler? entry.1).isNone :=
      if_pos (bound entry List.mem_cons_self)
    rw [registrations_cons, after_cons,
      ih _ fun other member => bound other (List.mem_cons_of_mem _ member), ledger_step, accepted]
    rfl

namespace Owing

variable {origin registry : Registry μ} {domain : Domain} {fresh : List (Handle μ)}
  {due : List Scope} {scope : Scope}

/-- After registrations every one of them is owed. -/
theorem registered (sound : origin.Sound) {built : List (Scope × Handle μ)}
    (bound : ∀ entry ∈ built, entry.2.scope = entry.1)
    (room : origin.HasRoom (registrations domain built)) :
    Owing origin domain (built.map Prod.snd) (built.map Prod.fst)
      (origin.after (registrations domain built)) where
  sound := sound.after room
  pinned := origin.pinned_after_registrations domain built
  counts := sound.toNat_domainCount_after bound room
  kept _ _ := origin.handler?_after_registrations domain built
  fresh_of scope handle occupied free := by
    rw [← flat_registrations] at occupied
    rcases handler?_flat occupied with before | ⟨call, member, passes⟩
    · exact absurd (free.symm.trans before) (by simp)
    · obtain ⟨entry, listed, rfl⟩ := List.mem_map.mp member
      rw [← Option.some.inj passes]
      exact List.mem_map_of_mem listed
  violations := origin.contractViolations_after_registrations domain bound

/-! ### Giving back -/

/-- The entry of a retirement changes nothing that matters here. -/
theorem finished (owing : Owing origin domain fresh due registry)
    (retired : List (Retirement μ)) :
    Owing origin domain fresh due (registry.finished retired) := by
  induction retired generalizing registry with
  | nil => exact owing
  | cons retirement rest ih =>
    exact ih ⟨owing.sound.note _, owing.pinned, owing.counts, owing.kept, owing.fresh_of,
      owing.violations⟩

/-- Who owes a reference holds one. -/
theorem held (owing : Owing origin domain fresh (scope :: due) registry) :
    domain ∈ registry.holdings scope := by
  apply Holdings.mem_of_of_ne_zero
  intro none_held
  have count := owing.counts scope domain
  rw [domainCount, none_held, if_pos rfl, List.count_cons_self, UInt32.toNat_zero] at count
  omega

/-- To give back a reference that is owed does not end a scope of the origin: somebody held
references on it before, or it is pinned. -/
theorem not_ends (owing : Owing origin domain fresh (scope :: due) registry)
    (sound : origin.Sound) {other : Scope} {handle : Handle μ}
    (occupied : origin.handler? other = some handle) :
    ¬registry.Ends other (.release scope domain) := by
  rintro ⟨rfl, last, alone, unpinned⟩
  rw [owing.pinned] at unpinned
  have listed := ((sound.occupied scope).mp (by rw [occupied]; rfl)).resolve_right unpinned
  obtain ⟨holder, held⟩ := (sound.mem_counts_iff scope).mp listed
  have some_held : (origin.domainCount scope holder).toNat ≠ 0 := fun none_held =>
    held (UInt32.toNat_inj.mp none_held)
  have count := owing.counts scope holder
  by_cases same : holder = domain
  · -- The domain itself held one before, and owes another one.
    rw [same, last, if_pos rfl, List.count_cons_self, UInt32.toNat_one] at count
    rw [same] at some_held
    omega
  · rw [alone holder same, if_neg same, UInt32.toNat_zero] at count
    omega

/-- What is given back is no longer owed. -/
theorem toNat_domainCount_release (owing : Owing origin domain fresh (scope :: due) registry)
    (other : Scope) (holder : Domain) :
    ((registry.release scope domain).registry.domainCount other holder).toNat =
      (origin.domainCount other holder).toNat +
        if holder = domain then due.count other else 0 := by
  have count := owing.counts other holder
  rw [domainCount_release]
  by_cases here : other = scope ∧ holder = domain
  · have held := owing.held
    have less := Holdings.toNat_of_sub_one _ domain (owing.sound.proper scope domain held)
    obtain ⟨rfl, rfl⟩ := here
    rw [if_pos rfl, List.count_cons_self] at count
    rw [if_pos ⟨⟨rfl, rfl⟩, held⟩, if_pos rfl]
    unfold domainCount at count ⊢
    omega
  · rw [if_neg fun all => here all.1, count]
    by_cases same : holder = domain
    · have apart : scope ≠ other := fun eq => here ⟨eq.symm, same⟩
      rw [List.count_cons_of_ne apart]
    · rw [if_neg same, if_neg same]

/-- A reference that is owed is given back without complaint, and whoever leaves came in since the
origin. -/
theorem release (owing : Owing origin domain fresh (scope :: due) registry)
    (sound : origin.Sound) :
    (∃ left, (registry.release scope domain).answer = .ok left) ∧
    (∀ retirement ∈ (registry.release scope domain).retired, retirement.handle ∈ fresh) ∧
    Owing origin domain fresh due (registry.release scope domain).registry := by
  have held := owing.held
  refine ⟨?_, ?_, ?_⟩
  · rw [release_of_mem held]
    split
    · exact ⟨_, rfl⟩
    · exact ⟨false, rfl⟩
  · intro retirement member
    have leaves : retirement.handle ∈ registry.removed (.release scope domain) :=
      List.mem_map_of_mem member
    obtain ⟨occupied, ends⟩ := owing.sound.ends_of_mem_removed leaves
    -- Whoever was there at first is still held or pinned, and does not leave.
    refine owing.fresh_of retirement.handle.scope _ occupied ?_
    by_contra occupied_before
    obtain ⟨before, found⟩ := Option.ne_none_iff_exists'.mp occupied_before
    exact owing.not_ends sound found ends
  · exact {
      sound := owing.sound.release scope domain
      pinned := (pinned_release registry scope domain).trans owing.pinned
      counts := fun other holder => owing.toNat_domainCount_release other holder
      kept := by
        intro other handle occupied
        rw [handler?_release, if_neg, owing.kept other handle occupied]
        rintro ⟨rfl, last⟩
        exact owing.not_ends sound occupied (ends_release last)
      fresh_of := by
        intro other handle occupied free
        rw [handler?_release, Option.ite_none_left_eq_some] at occupied
        exact owing.fresh_of other handle occupied.2 free
      violations := by
        have released : registry.entry (.release scope domain) registry.ledger =
            registry.ledger.noteRelease scope := if_pos held
        have entered := ledger_step registry (.release scope domain)
        rw [released] at entered
        exact (congrArg Ledger.contractViolations entered).trans owing.violations }

/-- References that are owed are given back one after another, among middlewares that leave the
registry alone. -/
theorem giveBack {ε : Type} {pipeline : Pipeline ε μ}
    (detached : pipeline.behaviour.release.Detached) (sound : origin.Sound) (scopes : List Scope)
    {world : World ε μ} (owing : Owing origin domain fresh (scopes ++ due) world.registry) :
    Owing origin domain fresh due (pipeline.giveBack domain scopes world).registry := by
  induction scopes generalizing world with
  | nil => exact owing
  | cons scope rest ih =>
    apply ih
    obtain ⟨-, -, less⟩ := owing.release sound
    have settled := registry_settle_of_detached detached
      ⟨(world.registry.release scope domain).registry, world.outside⟩
      (world.registry.release scope domain).retired
    show Owing origin domain fresh (rest ++ due) (World.settle _ _ _).registry
    rw [settled]
    exact less.finished _

/-- When nothing is owed any more, the maps are those of the origin. -/
theorem maps_eq (owing : Owing origin domain fresh [] registry) (sound : origin.Sound) :
    registry.handlers = origin.handlers ∧ registry.counts = origin.counts ∧
      registry.pinned = origin.pinned := by
  have counts : registry.counts = origin.counts := by
    refine owing.sound.counts_eq sound fun scope holder => UInt32.toNat_inj.mp ?_
    rw [owing.counts, List.count_nil, ite_self, Nat.add_zero]
  refine ⟨?_, counts, owing.pinned⟩
  apply Std.ExtTreeMap.ext_getElem?
  intro scope
  show registry.handler? scope = origin.handler? scope
  cases before : origin.handler? scope with
  | some handle => exact owing.kept scope handle before
  | none =>
    -- A slot is occupied if references are held or it is pinned, so it is free again.
    have free : ¬(registry.handler? scope).isSome := by
      rw [owing.sound.occupied, counts, owing.pinned, ← sound.occupied, before]
      simp
    simpa using free

end Owing

end Registry

end Switchboard
