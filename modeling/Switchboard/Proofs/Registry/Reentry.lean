import Switchboard.Proofs.Registry.Flat

/-!
# `Switchboard.Proofs.Registry.Reentry`: releases that call the registry again

A middleware that is released may call the registry that it comes from, and the handles retired by
these calls are released in turn, all while further handles of the first call are still to be
released. `make` is a call among middlewares that act so, each by a `Plan` that sees the answers it
gets, down to any depth.

The main result, `make_eq_flat`, says that nothing is lost in this. The registry, its ledger and all
answers are those of the same calls made one after another, in the order in which they began, among
middlewares that do nothing. The point is that every call is complete before the first release
begins, and that the retirements that are entered late can be entered early as well.
-/

set_option autoImplicit false

namespace Switchboard.Reentry

variable {μ : Type}

/-- What a middleware does in its turn: it makes calls one after another, and chooses each in view
of the answers that it got. -/
inductive Plan (μ : Type)
  | done
  | call (call : Call μ) (next : Answer → Plan μ)

/-- One event of a run. -/
inductive Event (μ : Type)
  /-- A call begins. -/
  | begun (call : Call μ)
  /-- A middleware is released, and finds a registry. -/
  | released (middleware : μ) (found : Registry μ)
deriving DecidableEq

/-- What is written down of a run: the events, and the answer of every call, in the order in which
the calls began. The answer of a call that has not returned is missing. -/
structure Record (μ : Type) where
  events : List (Event μ)
  answers : List (Option Answer)
deriving DecidableEq

namespace Record

/-- The record of a run that has not begun. -/
def empty : Record μ := ⟨[], []⟩

/-- A call begins. -/
def addCall (record : Record μ) (call : Call μ) : Record μ :=
  ⟨record.events ++ [.begun call], record.answers ++ [none]⟩

/-- A middleware is released. -/
def addRelease (record : Record μ) (middleware : μ) (found : Registry μ) : Record μ :=
  { record with events := record.events ++ [.released middleware found] }

/-- The call in some place returns. -/
def putAnswer (record : Record μ) (place : Nat) (answer : Answer) : Record μ :=
  { record with answers := record.answers.set place (some answer) }

/-- The record goes on with events and with the answers of calls that have returned. -/
def extend (record : Record μ) (events : List (Event μ)) (answers : List Answer) : Record μ :=
  ⟨record.events ++ events, record.answers ++ answers.map some⟩

/-- A record can be extended in two parts. -/
theorem extend_extend (record : Record μ) (events later : List (Event μ))
    (answers more : List Answer) :
    (record.extend events answers).extend later more =
      record.extend (events ++ later) (answers ++ more) := by
  simp [extend]

/-- A call that begins, is followed by others and returns is the first of them. -/
theorem putAnswer_extend_addCall (record : Record μ) (call : Call μ) (events : List (Event μ))
    (answers : List Answer) (answer : Answer) :
    ((record.addCall call).extend events answers).putAnswer record.answers.length answer =
      record.extend (.begun call :: events) (answer :: answers) := by
  simp [putAnswer, extend, addCall]

end Record

/-- A registry whose middlewares write down what happens. -/
abbrev RecordedWorld (μ : Type) := World (Record μ) μ

/-- Makes a call and writes it down, with its answer when it returns. -/
def make (onRelease : Release (Record μ) μ) (call : Call μ) (world : RecordedWorld μ) :
    Answer × RecordedWorld μ :=
  let place := world.outside.answers.length
  let made := (world.mapOutside (·.addCall call)).perform onRelease call
  (made.1, made.2.mapOutside (·.putAnswer place made.1))

/-- Makes the calls of a plan. -/
def follow (onRelease : Release (Record μ) μ) : Plan μ → RecordedWorld μ → RecordedWorld μ
  | .done, world => world
  | .call call next, world =>
    let made := make onRelease call world
    follow onRelease (next made.1) made.2

/-- The plans of all middlewares. A plan is made when the turn comes, in view of everything. -/
abbrev Plans (μ : Type) := μ → RecordedWorld μ → Plan μ

/-- The release of middlewares that follow plans, in some order. Turns within turns are taken down
to `depth`; below it middlewares only have their release written down. -/
def Plans.release (plans : Plans μ) (order : ReleaseOrder (Record μ) μ) :
    (depth : Nat) → Release (Record μ) μ
  | 0 =>
    { effect := fun middleware world => world.mapOutside (·.addRelease middleware world.registry)
      order }
  | depth + 1 =>
    { effect := fun middleware world =>
        follow (plans.release order depth) (plans middleware world)
          (world.mapOutside (·.addRelease middleware world.registry))
      order }

/-- The call that begins. -/
def Event.call? : Event μ → Option (Call μ)
  | .begun call => some call
  | .released _ _ => none

/-- The calls that have begun, first ones first. -/
def begun (events : List (Event μ)) : List (Call μ) := events.filterMap Event.call?

/-- The calls that begin in two stretches of a record begin in one after the other. -/
theorem begun_append (events later : List (Event μ)) :
    begun (events ++ later) = begun events ++ begun later :=
  List.filterMap_append

/-! ### Stretches of a run -/

/-- One of the calls, made one after another, has removed the handle. -/
def Gone (start : Registry μ) (calls : List (Call μ)) (handle : Handle μ) : Prop :=
  ∃ first call between, calls = first ++ call :: between ∧
    handle ∈ (start.flat first).2.removed call

/-- Whoever has gone by the later calls of a row has gone by the whole row. -/
theorem Gone.earlier {start : Registry μ} {first calls : List (Call μ)} {handle : Handle μ}
    (gone : Gone (start.flat first).2 calls handle) : Gone start (first ++ calls) handle := by
  obtain ⟨former, call, between, rfl, leaves⟩ := gone
  refine ⟨first ++ former, call, between, (List.append_assoc _ _ _).symm, ?_⟩
  rwa [Registry.flat_append]

/-- A stretch of a run that is as good as its calls made one after another.

The registry `start` has the retirements in its ledger that are still due when the stretch begins;
those of the handles in `due` are made in the stretch. A middleware that is released finds the
registry as it is after the calls so far, but for retirements that are not in its ledger yet, and
its handle is due or was removed by one of these calls. -/
structure Linear (due : List (Handle μ)) (start : Registry μ) (events : List (Event μ))
    (answers : List Answer) (last : Registry μ) : Prop where
  flat_eq : start.flat (begun events) = (answers, last)
  released : ∀ before middleware found after,
    events = before ++ .released middleware found :: after →
    (∃ pending, (start.flat (begun before)).2 = found.finished pending) ∧
      ∃ handle : Handle μ, handle.middleware = middleware ∧
        (handle ∈ due ∨ Gone start (begun before) handle)

namespace Linear

variable {due : List (Handle μ)} {start middle last : Registry μ} {events later : List (Event μ)}
  {answers more : List Answer}

/-- Nothing has happened yet. -/
theorem nil (due : List (Handle μ)) (start : Registry μ) : Linear due start [] [] start where
  flat_eq := rfl
  released _ _ _ _ same := by simp at same

/-- More may be due. -/
theorem mono (linear : Linear due start events answers last) {wider : List (Handle μ)}
    (subset : due ⊆ wider) : Linear wider start events answers last where
  flat_eq := linear.flat_eq
  released before middleware found after same := by
    obtain ⟨agrees, handle, carries, origin⟩ := linear.released before middleware found after same
    exact ⟨agrees, handle, carries, origin.imp_left fun member => subset member⟩

/-- A stretch followed by another one. -/
theorem append (first : Linear due start events answers middle)
    (second : Linear due middle later more last) :
    Linear due start (events ++ later) (answers ++ more) last where
  flat_eq := by
    rw [begun_append, Registry.flat_append, first.flat_eq, second.flat_eq]
    rfl
  released before middleware found after same := by
    -- What is released in the second stretch is seen from its beginning, `middle`.
    have of_second {front : List (Event μ)}
        (here : later = front ++ .released middleware found :: after)
        (cut : before = events ++ front) :
        (∃ pending, (start.flat (begun before)).2 = found.finished pending) ∧
          ∃ handle : Handle μ, handle.middleware = middleware ∧
            (handle ∈ due ∨ Gone start (begun before) handle) := by
      obtain ⟨⟨pending, agrees⟩, handle, carries, origin⟩ :=
        second.released front middleware found after here
      have reached : (start.flat (begun events)).2 = middle := by rw [first.flat_eq]
      rw [cut, begun_append]
      refine ⟨⟨pending, ?_⟩, handle, carries, origin.imp_right fun gone => ?_⟩
      · rw [Registry.flat_append, reached]
        exact agrees
      · exact Gone.earlier (reached.symm ▸ gone)
    rcases List.append_eq_append_iff.mp same with ⟨front, cut, here⟩ | ⟨rest, here, cut⟩
    · exact of_second here cut
    · cases rest with
      | nil =>
        have none_before : before = events ++ [] := by rw [List.append_nil, here, List.append_nil]
        exact @of_second [] cut.symm none_before
      | cons event rest =>
        obtain ⟨rfl, -⟩ := List.cons.inj cut
        exact first.released before middleware found rest here

/-- Retirements that are entered before a stretch might as well be entered after it. -/
theorem finished (linear : Linear due start events answers last)
    (retired : List (Retirement μ)) :
    Linear due (start.finished retired) events answers (last.finished retired) where
  flat_eq := by
    rw [Registry.flat_finished, linear.flat_eq]
    rfl
  released before middleware found after same := by
    obtain ⟨⟨pending, agrees⟩, handle, carries, origin⟩ :=
      linear.released before middleware found after same
    refine ⟨⟨pending ++ retired, ?_⟩, handle, carries, origin.imp_right fun gone => ?_⟩
    · rw [Registry.flat_finished, Registry.finished_append, ← agrees]
      rfl
    · obtain ⟨first, call, between, cut, leaves⟩ := gone
      refine ⟨first, call, between, cut, ?_⟩
      rw [Registry.flat_finished]
      show handle ∈ (((start.flat first).2.finished retired).step call).retired.map (·.handle)
      rw [Registry.step_finished]
      exact leaves

/-- A middleware of a handle that is due is released. -/
theorem release (start : Registry μ) (handle : Handle μ) :
    Linear [handle] start [.released handle.middleware start] [] start where
  flat_eq := rfl
  released before middleware found after same := by
    obtain ⟨rfl, this_one⟩ : before = [] ∧ _ := by
      rcases List.singleton_eq_append_iff.mp same with ⟨none_before, here⟩ | ⟨-, absurdity⟩
      · exact ⟨none_before, here⟩
      · exact absurd absurdity (by simp)
    obtain ⟨rfl, rfl⟩ := Event.released.inj (List.cons.inj this_one).1
    exact ⟨⟨[], rfl⟩, handle, rfl, Or.inl List.mem_cons_self⟩

/-- A call, and then the stretch in which the handles that it retires are released. -/
theorem call (call : Call μ)
    (linear : Linear (start.removed call)
      ((start.step call).registry.finished (start.step call).retired) events answers last) :
    Linear [] start (.begun call :: events) ((start.step call).answer :: answers) last where
  flat_eq := by
    show start.flat (call :: begun events) = _
    rw [Registry.flat_cons, linear.flat_eq]
    rfl
  released before middleware found after same := by
    have step : (start.flat [call]).2 =
        (start.step call).registry.finished (start.step call).retired := by
      rw [Registry.flat_cons]
      rfl
    -- The call itself comes before every release.
    cases before with
    | nil => exact absurd (List.cons.inj same).1 (by simp)
    | cons event front =>
      obtain ⟨rfl, here⟩ := List.cons.inj same
      obtain ⟨⟨pending, agrees⟩, handle, carries, origin⟩ :=
        linear.released front middleware found after here
      have cut : begun (.begun call :: front) = [call] ++ begun front := rfl
      refine ⟨⟨pending, ?_⟩, handle, carries, Or.inr ?_⟩
      · rw [cut, Registry.flat_append, step]
        exact agrees
      · rcases origin with due | gone
        · exact ⟨[], call, begun front, rfl, due⟩
        · rw [cut]
          exact Gone.earlier (step.symm ▸ gone)

end Linear

/-! ### Runs -/

/-- A run goes on by a stretch that is as good as its calls made one after another. -/
def Continues (due : List (Handle μ)) (start : Registry μ) (world later : RecordedWorld μ) : Prop :=
  ∃ events answers, later.outside = world.outside.extend events answers ∧
    Linear due start events answers later.registry

/-- More handles may be due. -/
theorem Continues.mono {due wider : List (Handle μ)} {start : Registry μ}
    {world later : RecordedWorld μ}
    (continues : Continues due start world later) (subset : due ⊆ wider) :
    Continues wider start world later := by
  obtain ⟨events, answers, written, linear⟩ := continues
  exact ⟨events, answers, written, linear.mono subset⟩

/-- One stretch of a run continues another. -/
theorem Continues.append {due : List (Handle μ)} {start : Registry μ}
    {world middle last : RecordedWorld μ}
    (first : Continues due start world middle)
    (second : Continues due middle.registry middle last) : Continues due start world last := by
  obtain ⟨events, answers, written, linear⟩ := first
  obtain ⟨later, more, rewritten, linear'⟩ := second
  refine ⟨events ++ later, answers ++ more, ?_, linear.append linear'⟩
  rw [rewritten, written, Record.extend_extend]

/-- Releases under which a run stays as good as its calls made one after another. -/
def Faithful (onRelease : Release (Record μ) μ) : Prop :=
  ∀ (handle : Handle μ) (world : RecordedWorld μ),
    Continues [handle] world.registry world (onRelease handle.middleware world)

namespace Faithful

variable {onRelease : Release (Record μ) μ} (faithful : Faithful onRelease)

include faithful

/-- Handles are released one after another. The stretch begins with all their retirements in the
ledger, those that are entered last included. -/
theorem finishAll (retired : List (Retirement μ)) (world : RecordedWorld μ) :
    Continues (retired.map (·.handle)) (world.registry.finished retired) world
      (world.finishAll onRelease retired) := by
  induction retired generalizing world with
  | nil => exact ⟨[], [], by simp [Record.extend, World.finishAll], .nil _ _⟩
  | cons retirement rest ih =>
    obtain ⟨events, answers, written, linear⟩ := faithful retirement.handle
      (world.mapRegistry (·.note (·.noteRetirement retirement.handle.scope retirement.reason)))
    obtain ⟨later, more, rewritten, linear'⟩ := ih (world.finish onRelease retirement)
    refine ⟨events ++ later, answers ++ more, ?_, ?_⟩
    · refine rewritten.trans ?_
      rw [World.finish, written, Record.extend_extend]
      rfl
    · have first : [retirement.handle] ⊆ (retirement :: rest).map (·.handle) := by simp
      exact ((linear.finished rest).mono first).append (linear'.mono (List.subset_cons_self _ _))

/-- Handles that leave together are released, in whatever order. -/
theorem settle (retired : List (Retirement μ)) (world : RecordedWorld μ) :
    Continues (retired.map (·.handle)) (world.registry.finished retired) world
      (world.settle onRelease retired) := by
  have arranged := onRelease.order.perm world retired
  have stretch := faithful.finishAll (onRelease.order.arrange world retired) world
  rw [Registry.finished_perm _ arranged] at stretch
  exact stretch.mono (arranged.map _).subset

/-- A call is the first of a stretch and gets the first answer. -/
theorem make (call : Call μ) (world : RecordedWorld μ) :
    ∃ events answers,
      (make onRelease call world).2.outside =
        world.outside.extend (.begun call :: events) ((make onRelease call world).1 :: answers) ∧
      Linear [] world.registry (.begun call :: events) ((make onRelease call world).1 :: answers)
        (make onRelease call world).2.registry := by
  obtain ⟨events, answers, written, linear⟩ :=
    faithful.settle (world.registry.step call).retired
      ⟨(world.registry.step call).registry, world.outside.addCall call⟩
  have returned : (Reentry.make onRelease call world).2.outside =
      (World.settle onRelease
        ⟨(world.registry.step call).registry, world.outside.addCall call⟩
        (world.registry.step call).retired).outside.putAnswer world.outside.answers.length
          (world.registry.step call).answer := rfl
  refine ⟨events, answers, ?_, linear.call call⟩
  rw [returned, written, Record.putAnswer_extend_addCall]
  rfl

/-- A plan that is followed continues the run, and leaves nobody due. -/
theorem follow (plan : Plan μ) (world : RecordedWorld μ) :
    Continues [] world.registry world (follow onRelease plan world) := by
  -- The induction is on the plan, for all the answers that the next call may depend on.
  induction plan generalizing world with
  | done => exact ⟨[], [], by simp [Record.extend, Reentry.follow], .nil _ _⟩
  | call call next ih =>
    obtain ⟨events, answers, written, linear⟩ := faithful.make call world
    exact Continues.append ⟨_, _, written, linear⟩ (ih _ _)

end Faithful

/-- A release is one event, and the plan of the middleware adds to it. -/
theorem continues_addRelease (handle : Handle μ) (world : RecordedWorld μ) :
    Continues [handle] world.registry world
      (world.mapOutside (·.addRelease handle.middleware world.registry)) :=
  ⟨[.released handle.middleware world.registry], [],
    by simp [Record.extend, Record.addRelease, World.mapOutside], .release _ _⟩

/-- Middlewares that follow plans are released so. -/
theorem faithful_release (plans : Plans μ) (order : ReleaseOrder (Record μ) μ) (depth : Nat) :
    Faithful (plans.release order depth) := by
  -- The induction is on the depth. What a middleware does in its turn is a plan one level below.
  induction depth with
  | zero => exact continues_addRelease
  | succ depth ih =>
    intro handle world
    have turn := ih.follow (plans handle.middleware world)
      (world.mapOutside (·.addRelease handle.middleware world.registry))
    exact (continues_addRelease handle world).append (turn.mono (List.nil_subset _))

/-- A call among middlewares that call the registry again when they are released, to any depth and
in any order, is as good as all the calls made one after another, in the order in which they began,
among middlewares that do nothing. The registry and its ledger are the same afterwards, and so is
the answer of every call, the first one included.

A middleware that is released finds the handlers, references and pins as they are after the calls
that have begun. Its handle has left by one of them: it was in a slot before that call, the slot was
free after it, and who is found there by now was passed by a later call. -/
theorem make_eq_flat (plans : Plans μ) (order : ReleaseOrder (Record μ) μ) (depth : Nat)
    (registry : Registry μ) (call : Call μ) :
    let made := make (plans.release order depth) call ⟨registry, .empty⟩
    ∃ nested, begun made.2.outside.events = call :: nested ∧
      made.2.registry = (registry.flat (call :: nested)).2 ∧
      made.2.outside.answers = (registry.flat (call :: nested)).1.map some ∧
      (registry.flat (call :: nested)).1.head? = some made.1 ∧
      ∀ before middleware found after,
        made.2.outside.events = before ++ .released middleware found :: after →
        let so_far := (registry.flat (begun before)).2
        found.handlers = so_far.handlers ∧ found.counts = so_far.counts ∧
          found.pinned = so_far.pinned ∧
        ∃ first remover between scope handle,
          begun before = first ++ remover :: between ∧ handle.middleware = middleware ∧
          (registry.flat first).2.handler? scope = some handle ∧
          (registry.flat (first ++ [remover])).2.handler? scope = none ∧
          ∀ occupant, found.handler? scope = some occupant →
            ∃ later ∈ between, later.handle? = some occupant := by
  intro made
  obtain ⟨events, answers, written, linear⟩ :=
    (faithful_release plans order depth).make call ⟨registry, .empty⟩
  have events_eq : made.2.outside.events = .begun call :: events := by
    rw [written]
    rfl
  have answers_eq : made.2.outside.answers = (made.1 :: answers).map some := by
    rw [written]
    rfl
  have flat_eq : registry.flat (call :: begun events) = (made.1 :: answers, made.2.registry) :=
    linear.flat_eq
  refine ⟨begun events, by rw [events_eq]; rfl, by rw [flat_eq], by rw [flat_eq, answers_eq],
    by rw [flat_eq]; rfl, ?_⟩
  intro before middleware found after here so_far
  obtain ⟨⟨pending, agrees⟩, handle, carries, none_due | gone⟩ :=
    linear.released before middleware found after (events_eq.symm.trans here)
  · exact absurd none_due List.not_mem_nil
  obtain ⟨first, remover, between, cut, leaves⟩ := gone
  obtain ⟨scope, occupied, freed⟩ := Registry.exists_slot_of_mem_removed leaves
  -- What is pending concerns the ledger only, so the maps agree.
  obtain ⟨ledger, maps⟩ := found.finished_eq pending
  have same : so_far = { found with ledger } := agrees.trans maps
  have free : (registry.flat (first ++ [remover])).2.handler? scope = none := by
    rw [Registry.flat_append, Registry.flat_cons]
    exact (Registry.handler?_finished _ _ scope).trans freed
  refine ⟨by rw [same], by rw [same], by rw [same], first, remover, between, scope, handle, cut,
    carries, occupied, free, fun occupant there => ?_⟩
  have there' :
      (registry.flat (first ++ [remover] ++ between)).2.handler? scope = some occupant := by
    rw [List.append_assoc, List.singleton_append, ← cut]
    show so_far.handler? scope = some occupant
    rw [same]
    exact there
  rw [Registry.flat_append] at there'
  rcases Registry.handler?_flat there' with stayed | passed
  · exact absurd (free.symm.trans stayed) (by simp)
  · exact passed

/-- Whoever is released leaves the wallet to a successor. -/
def installsNext : Plans Nat := fun middleware _ =>
  .call (.install ⟨Scope.wallet⟩ ⟨⟨Scope.wallet⟩, middleware + 1⟩) fun _ => .done

example :
    let installed := ((Registry.empty .strict).install ⟨Scope.wallet⟩ ⟨⟨Scope.wallet⟩, 0⟩).registry
    let made := make (installsNext.release .ascending 1) .releaseAll ⟨installed, .empty⟩
    begun made.2.outside.events =
        [.releaseAll, .install ⟨Scope.wallet⟩ ⟨⟨Scope.wallet⟩, 1⟩] ∧
      made.2.registry.handler? ⟨Scope.wallet⟩ = some ⟨⟨Scope.wallet⟩, 1⟩ := by
  decide +kernel

end Switchboard.Reentry
