import Switchboard.Proofs.Preset
import Switchboard.Proofs.Registry.Hold
import Switchboard.Proofs.Registry.Owing

/-!
# `Switchboard.Proofs.Pipeline.Rollback`: connections that fail leave nothing behind

A connection with handles from a catalogue fails at the first scope that is not listed, and gives
back what it has taken until then. `Reachable.connect_all_or_nothing` says that the registry is then
as it was before, in every story that can be reached and among middlewares of any kind: the
references that are given back are owed (`giveBack_of_owing`), and only presets that came in with
this connection leave, which have nothing to do when they are released.
-/

set_option autoImplicit false

namespace Switchboard

open Metrics

variable {μ : Type}

namespace Chronicle

/-! ### Presets among other middlewares -/

/-- The handles of a catalogue in a run among other middlewares. Presets are numbered by the events
so far, so no two of them are the same. -/
def stock (catalogue : Catalogue) (embed : Preset → μ) (scope : Scope) (entries : List (Entry μ)) :
    Except Failure (Handle μ) :=
  (catalogue.build scope { next := entries.length }).1.map fun handle =>
    ⟨handle.scope, embed handle.middleware⟩

/-- It makes no difference to a catalogue what happens around it. -/
theorem assemble_stock (catalogue : Catalogue) (embed : Preset → μ) (scopes : List Scope)
    (entries : List (Entry μ)) :
    let presets := Factory.assemble catalogue.build scopes { next := entries.length }
    let assembly := (builder (stock catalogue embed)).assemble scopes entries
    assembly.result = presets.result ∧
      assembly.built = presets.built.map fun entry =>
        (entry.1, ⟨entry.2.scope, embed entry.2.middleware⟩) := by
  induction scopes generalizing entries with
  | nil => exact ⟨rfl, rfl⟩
  | cons scope rest ih =>
    unfold Factory.assemble builder stock
    cases found : catalogue.results[scope]? with
    | none =>
      rw [catalogue.build_of_not_lists found]
      exact ⟨rfl, rfl⟩
    | some results =>
      rw [catalogue.build_of_lists found]
      have later := ih (entries ++ [.asked scope])
      rw [List.length_append, List.length_singleton] at later
      exact ⟨later.1, congrArg (_ :: ·) later.2⟩

/-- What a catalogue comes to among other middlewares. -/
structure Supplies (catalogue : Catalogue) (embed : Preset → μ) (scopes : List Scope)
    (assembly : Assembly (List (Entry μ)) μ) : Prop where
  /-- The first scope that is not listed ends it. -/
  result : assembly.result =
    match scopes.find? (!catalogue.lists ·) with
    | none => .ok ()
    | some scope => .error (.invalidScope ("no middleware configured for " ++ scope.text))
  /-- The scopes before it get a preset each. -/
  scopes : assembly.built.map Prod.fst = scopes.takeWhile catalogue.lists
  /-- The handle is bound to the scope. -/
  bound : ∀ entry ∈ assembly.built, entry.2.scope = entry.1
  presets : ∀ entry ∈ assembly.built, ∃ preset, embed preset = entry.2.middleware
  /-- No preset is built twice. -/
  distinct : (assembly.built.map (·.2.middleware)).Nodup

/-- A catalogue supplies handles until it comes to a scope that it does not list. -/
theorem supplies_stock (catalogue : Catalogue) {embed : Preset → μ}
    (injective : Function.Injective embed) (scopes : List Scope) (entries : List (Entry μ)) :
    Supplies catalogue embed scopes
      ((builder (stock catalogue embed)).assemble scopes entries) := by
  obtain ⟨result, built⟩ := assemble_stock catalogue embed scopes entries
  have builds := catalogue.assemble_builds scopes { next := entries.length }
  refine ⟨result.trans builds.result, ?_, ?_, ?_, ?_⟩
  · rw [built, List.map_map, ← builds.scopes]
    rfl
  · rw [built]
    intro entry member
    obtain ⟨preset, listed, rfl⟩ := List.mem_map.mp member
    exact builds.bound preset listed
  · rw [built]
    intro entry member
    obtain ⟨preset, -, rfl⟩ := List.mem_map.mp member
    exact ⟨preset.2.middleware, rfl⟩
  · -- Serial numbers are counted up, so the presets are different, and embedded they stay so.
    have serials : ((Factory.assemble catalogue.build scopes { next := entries.length }).built.map
        (·.2.middleware.serial)).Nodup := by
      rw [builds.serials]
      exact List.nodup_range'
    have presets := List.Nodup.of_map Preset.serial
      (l := (Factory.assemble catalogue.build scopes { next := entries.length }).built.map
        (·.2.middleware)) (by rw [List.map_map]; exact serials)
    rw [built, List.map_map]
    have embedded := presets.map injective
    rwa [List.map_map] at embedded

/-- Where the catalogue stops, it has built for all scopes before. -/
theorem Supplies.stopped {catalogue : Catalogue} {embed : Preset → μ} {scopes : List Scope}
    {assembly : Assembly (List (Entry μ)) μ} (supplies : Supplies catalogue embed scopes assembly)
    {unlisted : Scope} (found : scopes.find? (!catalogue.lists ·) = some unlisted) :
    ∃ rest, scopes = assembly.built.map Prod.fst ++ unlisted :: rest ∧
      (∀ scope ∈ assembly.built.map Prod.fst, catalogue.lists scope = true) ∧
      catalogue.results[unlisted]? = none := by
  obtain ⟨stops, first, rest, cut, listed⟩ := List.find?_eq_some_iff_append.mp found
  have all_listed : ∀ scope ∈ first, catalogue.lists scope = true := by simpa using listed
  have not_listed : catalogue.lists unlisted = false := by simpa using stops
  have taken : assembly.built.map Prod.fst = first := by
    rw [supplies.scopes, cut, List.takeWhile_append_of_pos all_listed,
      List.takeWhile_cons_of_neg (by rw [not_listed]; simp), List.append_nil]
  refine ⟨rest, taken ▸ cut, taken ▸ all_listed, ?_⟩
  rwa [Catalogue.lists, Option.isSome_eq_false_iff, Option.isNone_iff_eq_none] at not_listed

/-! ### Giving back -/

section GiveBack

variable {script : Script μ} {depth : Nat} {origin : Registry μ} {domain : Domain}
  {fresh : List (Handle μ)}
  (inert : ∀ handle ∈ fresh, ∀ entries, script.onRelease handle.middleware entries = [])
  (sound : origin.Sound)

include inert sound

variable (depth) in
/-- One reference is given back. Whoever leaves has only the release entered. -/
theorem run_release_of_owing {scope : Scope} {due : List Scope} {story : Story μ}
    (owing : origin.Owing domain fresh (scope :: due) story.registry) :
    let effect := story.registry.release scope domain
    ∃ arranged : List (Retirement μ), arranged.Perm effect.retired ∧
      (story.run (script.behaviour depth).release (·.release scope domain)).2 =
        ⟨effect.registry.finished effect.retired,
          story.outside ++ arranged.map (.released ·.handle.middleware)⟩ := by
  intro effect
  obtain ⟨-, among_fresh, -⟩ := owing.release sound
  exact settle_inert depth (fun retirement member => inert _ (among_fresh retirement member))
    ⟨effect.registry, story.outside⟩

variable (depth) in
/-- References are given back as if by calls one after another. Whoever leaves on the way is
released. -/
theorem giveBack_of_owing (scopes : List Scope) {due : List Scope} {story : Story μ}
    (owing : origin.Owing domain fresh (scopes ++ due) story.registry) :
    let after := (script.pipeline depth).giveBack domain scopes story
    origin.Owing domain fresh due after.registry ∧
      after.registry = (story.registry.flat (scopes.map (.release · domain))).2 ∧
      ∃ gone : List (Handle μ),
        after.outside = story.outside ++ gone.map (.released ·.middleware) ∧
        story.registry.handlers.values.Perm (after.registry.handlers.values ++ gone) := by
  -- The invariant of the induction is `Owing`: what is still due is what the releases to come drop.
  induction scopes generalizing story with
  | nil => exact ⟨owing, rfl, [], (List.append_nil _).symm, by simp [Pipeline.giveBack]⟩
  | cons scope rest ih =>
    let effect := story.registry.release scope domain
    let next := (story.run (script.behaviour depth).release (·.release scope domain)).2
    obtain ⟨arranged, same, step⟩ := run_release_of_owing depth inert sound owing
    change next = _ at step
    obtain ⟨-, -, less⟩ := owing.release sound
    have owing_rest : origin.Owing domain fresh (rest ++ due) next.registry := by
      rw [step]
      exact less.finished _
    obtain ⟨owing_due, flat, gone, written, conserved⟩ := ih owing_rest
    refine ⟨owing_due, ?_, arranged.map (·.handle) ++ gone, ?_, ?_⟩
    · rw [List.map_cons, Registry.flat_cons]
      refine flat.trans ?_
      rw [step]
      rfl
    · refine written.trans ?_
      rw [step, List.map_append, List.map_map, List.append_assoc]
      rfl
    · have first := story.registry.handlers_step_perm (.release scope domain)
      rw [Registry.accepted?_of_handle?_eq_none _ rfl, Option.toList_none, List.nil_append] at first
      have stayed : next.registry.handlers = effect.registry.handlers := by
        rw [step]
        exact Registry.handlers_finished _ _
      rw [stayed] at conserved
      refine first.trans ((conserved.append_right _).trans ?_)
      rw [List.append_assoc]
      exact (List.perm_append_comm.trans ((same.map _).symm.append_right _)).append_left _

end GiveBack

/-- The references that registrations have taken are given back, and nothing is left of it.
`registered` is the story in between. -/
structure Undone (pipeline : Pipeline (List (Entry μ)) μ) (domain : Domain) (taken : List Scope)
    (story registered : Story μ) : Prop where
  handlers : (pipeline.giveBack domain taken registered).registry.handlers =
    story.registry.handlers
  counts : (pipeline.giveBack domain taken registered).registry.counts = story.registry.counts
  pinned : (pipeline.giveBack domain taken registered).registry.pinned = story.registry.pinned
  liveHandlers : ∀ labels,
    (pipeline.giveBack domain taken registered).registry.ledger.liveHandlers.get labels =
      story.registry.ledger.liveHandlers.get labels
  /-- No release fails on the way, nor is one noted as a violation. -/
  succeeds : ∀ before scope after, taken = before ++ scope :: after →
    let effect := (pipeline.giveBack domain before registered).registry.release scope domain
    (∃ left, effect.answer = .ok left) ∧
      effect.registry.ledger.contractViolations = story.registry.ledger.contractViolations
  /-- The handles that were installed, in slots that had been free, are released once each, and
  nobody else is. -/
  released : ∃ installed gone : List (Handle μ),
    registered.registry.handlers.values.Perm (installed ++ story.registry.handlers.values) ∧
    (∀ handle ∈ installed, story.registry.handler? handle.scope = none) ∧
    (installed.map (·.middleware)).Nodup ∧
    (pipeline.giveBack domain taken registered).outside =
      registered.outside ++ gone.map (.released ·.middleware) ∧
    gone.Perm installed

/-- Registrations are undone by giving back a reference for each, as long as their handles are all
different and have nothing to do when they are released. -/
theorem undone_of_registrations {script : Script μ} (depth : Nat) {story : Story μ}
    (sound : story.registry.Sound) {domain : Domain} {built : List (Scope × Handle μ)}
    (bound : ∀ entry ∈ built, entry.2.scope = entry.1)
    (inert : ∀ handle ∈ built.map Prod.snd, ∀ entries,
      script.onRelease handle.middleware entries = [])
    (distinct : (built.map (·.2.middleware)).Nodup)
    (room : story.registry.HasRoom (registrations domain built)) (entries : List (Entry μ)) :
    Undone (script.pipeline depth) domain (built.map Prod.fst) story
      ⟨story.registry.after (registrations domain built), entries⟩ := by
  let registered : Story μ := ⟨story.registry.after (registrations domain built), entries⟩
  have owing : story.registry.Owing domain (built.map Prod.snd) (built.map Prod.fst)
      registered.registry := .registered sound bound room
  have owing_all : story.registry.Owing domain (built.map Prod.snd) (built.map Prod.fst ++ [])
      registered.registry := by rwa [List.append_nil]
  -- Once nothing is owed, the maps are those from before the registrations.
  obtain ⟨owing_none, flat, gone, written, conserved⟩ :=
    giveBack_of_owing depth inert sound (built.map Prod.fst) owing_all
  obtain ⟨handlers, counts, pinned⟩ := owing_none.maps_eq sound
  obtain ⟨kept, among, values⟩ := story.registry.values_after_registrations_perm domain built
  refine ⟨handlers, counts, pinned, fun labels => ?_, ?_, kept, gone, values, ?_, ?_, written, ?_⟩
  · -- The gauge goes with the number of handlers, and that is what it was.
    have whole :
        ((script.pipeline depth).giveBack domain (built.map Prod.fst) registered).registry =
        (story.registry.flat
          (registrations domain built ++ (built.map Prod.fst).map (.release · domain))).2 := by
      rw [Registry.flat_append, Prod.map_snd, id, Registry.flat_registrations]
      exact flat
    change ((script.pipeline depth).giveBack domain _ registered).registry.ledger.liveHandlers.get _
      = _
    rw [whole, Registry.liveHandlers_flat, ← whole, handlers, sub_self]
    exact Int64.add_zero _
  · intro before scope after cut
    have owing_rest : story.registry.Owing domain (built.map Prod.snd) (before ++ scope :: after)
        registered.registry := by rwa [← cut]
    obtain ⟨owing_scope, -⟩ := giveBack_of_owing depth inert sound before owing_rest
    obtain ⟨answers, -, less⟩ := owing_scope.release sound
    exact ⟨answers, less.violations⟩
  · intro handle member
    by_contra occupied
    obtain ⟨other, found⟩ := Option.ne_none_iff_exists'.mp occupied
    have apart := owing.sound.nodup_scopes
    rw [(values.map (·.scope)).nodup_iff, List.map_append, List.nodup_append'] at apart
    refine apart.2.2 (List.mem_map_of_mem member) (List.mem_map.mpr ⟨other, ?_, ?_⟩)
    · exact (story.registry.mem_values_iff other).mpr ⟨_, found⟩
    · exact sound.bound _ other found
  · have sublist := among.map (·.middleware)
    rw [List.map_map] at sublist
    exact sublist.nodup distinct
  · rw [handlers] at conserved
    have both := conserved.symm.trans (values.trans List.perm_append_comm)
    exact (List.perm_append_left_iff _).mp both

/-- A connection with handles from a catalogue takes all references or leaves no trace, whatever
other middlewares there are, as long as presets have nothing to do when they are released.

If it succeeds, the answer is the number of scopes, and the domain holds one more reference for each
time that a scope is listed; nobody else's count changes. If it fails, it does so for the first
scope for which the catalogue has nothing, with the failure that the catalogue gives for it, and all
that was done until then is undone. -/
theorem Reachable.connect_all_or_nothing {script : Script μ} {depth : Nat}
    {policy : ReleasePolicy} {story : Story μ} (reachable : Reachable script depth policy story)
    (roomy : Roomy story.outside) (catalogue : Catalogue) {embed : Preset → μ}
    (injective : Function.Injective embed)
    (inert : ∀ preset entries, script.onRelease (embed preset) entries = []) (domain : Domain)
    (scopes : List Scope)
    (room : story.registry.HasRoom (registrations domain
      ((builder (stock catalogue embed)).assemble scopes story.outside).built)) :
    let factory := builder (stock catalogue embed)
    let pipeline := script.pipeline depth
    let connected := pipeline.connect factory domain scopes story
    let registered := Pipeline.registered factory domain scopes story
    (∀ count, connected.1 = .ok count →
      count = scopes.length ∧
      ∀ scope holder, (connected.2.registry.domainCount scope holder).toNat =
        (story.registry.domainCount scope holder).toNat +
          if holder = domain then scopes.count scope else 0) ∧
    ∀ failure, connected.1 = .error failure →
      ∃ first unlisted rest, scopes = first ++ unlisted :: rest ∧
        (∀ scope ∈ first, catalogue.lists scope = true) ∧
        (∀ pool, catalogue.build unlisted pool = (.error failure, pool)) ∧
        connected.2 = pipeline.giveBack domain first registered ∧
        (∃ asked : List Scope, registered.outside = story.outside ++ asked.map .asked) ∧
        Undone pipeline domain first story registered := by
  intro factory pipeline connected registered
  have sound := (reachable.settled roomy).sound
  have supplies : Supplies catalogue embed scopes (factory.assemble scopes story.outside) :=
    supplies_stock catalogue injective scopes story.outside
  have answer : connected.1 = _ := Pipeline.result_connect pipeline factory domain scopes story
  -- The factory fails at the first scope that is not listed, if there is one, and at no other.
  cases found : scopes.find? (!catalogue.lists ·) with
  | none =>
    have built_all : (factory.assemble scopes story.outside).result = .ok () := by
      rw [supplies.result, found]
    rw [built_all] at answer
    refine ⟨fun count ok => ⟨?_, fun scope holder => ?_⟩, fun failure error => ?_⟩
    · exact (Except.ok.inj (answer.symm.trans ok)).symm
    · have whole : scopes.takeWhile catalogue.lists = scopes := by
        rw [List.takeWhile_eq_self_iff]
        simpa using found
      have counted := sound.toNat_domainCount_after supplies.bound room scope holder
      rw [supplies.scopes, whole] at counted
      have world : connected.2 = registered := Pipeline.world_connect_of_ok _ _ _ built_all
      rw [world]
      exact counted
    · exact absurd (answer.symm.trans error) (by simp [Except.map])
  | some unlisted =>
    have built_some : (factory.assemble scopes story.outside).result =
        .error (.invalidScope ("no middleware configured for " ++ unlisted.text)) := by
      rw [supplies.result, found]
    rw [built_some] at answer
    refine ⟨fun count ok => absurd (answer.symm.trans ok) (by simp [Except.map]),
      fun failure error => ?_⟩
    obtain rfl := Except.error.inj (answer.symm.trans error)
    obtain ⟨rest, cut, listed, no_results⟩ := supplies.stopped found
    refine ⟨_, unlisted, rest, cut, listed,
      fun pool => catalogue.build_of_not_lists no_results pool,
      Pipeline.world_connect_of_error _ _ _ built_some,
      outside_assemble_builder _ scopes story.outside, ?_⟩
    -- What is left to show is that the handles that were built have nothing to do.
    refine undone_of_registrations depth sound supplies.bound ?_ supplies.distinct room _
    intro handle member
    obtain ⟨entry, built, rfl⟩ := List.mem_map.mp member
    obtain ⟨preset, carries⟩ := supplies.presets entry built
    rw [← carries]
    exact inert preset

/-- A catalogue of two scopes without results. -/
def twoScopes : Catalogue := (Catalogue.empty.insert ⟨Scope.wallet⟩ ∅).insert ⟨"eip155:5"⟩ ∅

/-- A wallet of somebody else, installed before. -/
def walletOnly : Story Preset :=
  tell .silent 0 .strict
    [.call (.install ⟨Scope.wallet⟩ ⟨⟨Scope.wallet⟩, ⟨9, ⟨Scope.wallet⟩, ∅⟩⟩)]

/-- A guest asks for the wallet, twice for another scope, and for one that is not listed. -/
def unlistedConnection : Except Failure Nat × Story Preset :=
  (Script.silent.pipeline 0).connect (builder (stock twoScopes id)) ⟨"guest"⟩
    [⟨Scope.wallet⟩, ⟨"eip155:5"⟩, ⟨"eip155:5"⟩, ⟨"eip155:9"⟩] walletOnly

/-- The last scope is not listed, and only the preset that was installed on the way is released. -/
theorem connect_all_or_nothing_of_unlisted :
    Roomy walletOnly.outside ∧
      unlistedConnection.1 = .error (.invalidScope "no middleware configured for eip155:9") ∧
      unlistedConnection.2.registry.handlers = walletOnly.registry.handlers ∧
      released unlistedConnection.2.outside = [⟨2, ⟨"eip155:5"⟩, ∅⟩] := by
  have no_counts : walletOnly.registry.counts = ∅ := by decide +kernel
  have room (calls : List (Call Preset)) (short : calls.length < 2 ^ 32) :
      walletOnly.registry.HasRoom calls := by
    intro scope
    have few := List.countP_le_length (l := calls) (p := (·.takesOn scope))
    simp only [Registry.references, Registry.holdings, no_counts, Std.ExtTreeMap.getElem?_empty,
      Option.getD_none, Holdings.sum_empty]
    omega
  have roomy : Roomy walletOnly.outside := roomy_of_length_lt _ _ _ _ (by decide +kernel)
  have failed : unlistedConnection.1 =
      .error (.invalidScope "no middleware configured for eip155:9") := by
    decide +kernel
  have reachable : Reachable .silent 0 .strict walletOnly := reachable_run .start _
  obtain ⟨-, undone⟩ := reachable.connect_all_or_nothing roomy twoScopes Function.injective_id
    (fun _ _ => rfl) ⟨"guest"⟩ [⟨Scope.wallet⟩, ⟨"eip155:5"⟩, ⟨"eip155:5"⟩, ⟨"eip155:9"⟩]
    (room _ (by decide +kernel))
  obtain ⟨first, unlisted, rest, -, -, -, given_back, -, undone⟩ := undone _ failed
  refine ⟨roomy, failed, ?_, by decide +kernel⟩
  exact (congrArg (·.registry.handlers) given_back).trans undone.handlers

end Chronicle

end Switchboard
