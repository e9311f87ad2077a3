import Switchboard.Proofs.Registry.Policy
import Switchboard.Rehearsal

/-!
# `Switchboard.Proofs.Rehearsal`: the same rehearsal under both policies

Two rehearsals with the same cast and the same deeds begin with nothing, one under the strict policy
and one under the lenient one. Each has an order of its own in which handles are released that leave
together. As long as those that call the registry back come in the same order in both, the
registries hold the same after every deed, the same handlers were reached and released, and nothing
differs but the answers to two kinds of calls (`rehearse_strict_lenient`). Without this the policy
is not the only difference: whoever calls back first may take a slot that another one wants
(`rehearse_differs_of_orders`).

The handlers of a rehearsal never look at an answer, so that they are impartial. For a release this
is an induction on the depth down to which it is followed (`release_impartial`).
-/

set_option autoImplicit false

namespace Switchboard

open Rpc

/-- Answers of a strict and a lenient registry to the same call: the same, or those to the release
of a reference that nobody holds, or each its own policy. -/
def Answer.Alike (strict lenient : Answer) : Prop :=
  strict = lenient ∨
    (∃ scope domain, strict = .failed (.unregisteredRelease scope domain) ∧
      lenient = .flag false) ∨
    (strict = .policy .strict ∧ lenient = .policy .lenient)

/-- Calls that agree are answered alike. -/
theorem Registry.Agree.alike {μ : Type} {registry : Registry μ} {call : Call μ}
    {strict lenient : Answer} (agree : registry.Agree call strict lenient) :
    strict.Alike lenient := by
  cases call with
  | release scope domain =>
    change if domain ∈ registry.holdings scope then _ = _ else _ = _ ∧ _ = _ at agree
    split at agree
    · exact Or.inl agree
    · exact Or.inr (Or.inl ⟨scope, domain, agree⟩)
  | policy => exact Or.inr (Or.inr agree)
  | register | install | retire | releaseDomain | releaseAll | isRegistered | referenceCount
  | domainCount | scopes | isEmpty => exact Or.inl agree

namespace Rehearsal

/-! ### What can be done in a rehearsal -/

/-- What is done to the registry of a rehearsal: a call, or a dispatch in front of the last stage,
which is a scripted one if there is any. -/
inductive Deed
  | call (call : Call Actor)
  | dispatch (request : Request) (response : Response) (last : Option (String × Script))

section Deeds

variable (order : ReleaseOrder Journal Actor) (cast : Cast) (depth : Nat)

/-- The stage behind all handlers. -/
def lastStage : Option (String × Script) → Stage Journal Actor
  | none => Stage.methodNotFound
  | some (name, script) => perform cast depth name script Stage.idle order

/-- How a dispatch ends. -/
def pass (world : JournalWorld) (request : Request) (response : Response)
    (last : Option (String × Script)) : Passage Journal Actor :=
  Stage.dispatch (behaviour cast depth order) (lastStage order cast depth last) request response
    world

/-- The world after a deed. -/
def act (world : JournalWorld) : Deed → JournalWorld
  | .call call => (world.perform (release order cast depth) call).2
  | .dispatch request response last => (pass order cast depth world request response last).world

/-- The world after deeds on a registry that was empty. -/
def rehearse (policy : ReleasePolicy) (deeds : List Deed) : JournalWorld :=
  deeds.foldl (act order cast depth) ⟨.empty policy, {}⟩

end Deeds

/-! ### Journals that are alike -/

/-- The name under which the release of a handler is entered. -/
def Actor.name? : Actor → Option String
  | .scripted name => some name
  | .preset _ => none

/-- The serial number under which the release of a handler is entered. -/
def Actor.serial? : Actor → Option Nat
  | .scripted _ => none
  | .preset middleware => some middleware.serial

/-- Journals of a strict and a lenient rehearsal, when some handles are still to be released in
either of them. Replies may differ, each in its place, and the order of the releases. -/
structure Journal.Alike (due due' : List (Retirement Actor)) (strict lenient : Journal) :
    Prop where
  calls : strict.calls = lenient.calls
  releases : (due.filterMap (·.handle.middleware.name?) ++ strict.releases).Perm
    (due'.filterMap (·.handle.middleware.name?) ++ lenient.releases)
  replies : List.Forall₂ Answer.Alike strict.replies lenient.replies
  next : strict.pool.next = lenient.pool.next
  returned : (due.filterMap (·.handle.middleware.serial?) ++ strict.pool.released).Perm
    (due'.filterMap (·.handle.middleware.serial?) ++ lenient.pool.released)

namespace Journal.Alike

variable {due due' : List (Retirement Actor)} {strict lenient : Journal}

/-- A request that reaches a scripted handler is entered in both. -/
theorem noteCall (alike : Journal.Alike due due' strict lenient) (name : String) :
    Journal.Alike due due' { strict with calls := name :: strict.calls }
      { lenient with calls := name :: lenient.calls } :=
  { alike with calls := congrArg (name :: ·) alike.calls }

/-- The replies to a call may differ as answers do. -/
theorem noteReply (alike : Journal.Alike due due' strict lenient) {answer answer' : Answer}
    (same : answer.Alike answer') :
    Journal.Alike due due' { strict with replies := answer :: strict.replies }
      { lenient with replies := answer' :: lenient.replies } :=
  { alike with replies := .cons same alike.replies }

/-- A release is entered in both. -/
theorem noteRelease (alike : Journal.Alike due due' strict lenient) (actor : Actor) :
    Journal.Alike due due' (strict.noteRelease actor) (lenient.noteRelease actor) := by
  cases actor with
  | scripted name =>
    have releases := (List.perm_middle.trans (alike.releases.cons name)).trans
      List.perm_middle.symm
    exact { alike with releases }
  | preset preset =>
    have returned := (List.perm_middle.trans (alike.returned.cons preset.serial)).trans
      List.perm_middle.symm
    exact { alike with returned }

/-- A release that was due in the strict rehearsal is entered there. -/
theorem noteRelease_strict {retirement : Retirement Actor}
    (alike : Journal.Alike (retirement :: due) due' strict lenient) :
    Journal.Alike due due' (strict.noteRelease retirement.handle.middleware) lenient := by
  have releases := alike.releases
  have returned := alike.returned
  rw [List.filterMap_cons] at releases returned
  cases actor : retirement.handle.middleware with
  | scripted name =>
    rw [actor] at releases returned
    exact ⟨alike.calls, List.perm_middle.trans releases, alike.replies, alike.next, returned⟩
  | preset preset =>
    rw [actor] at releases returned
    exact ⟨alike.calls, releases, alike.replies, alike.next, List.perm_middle.trans returned⟩

/-- Seen from the lenient rehearsal it is the same. -/
theorem noteRelease_lenient {retirement : Retirement Actor}
    (alike : Journal.Alike due (retirement :: due') strict lenient) :
    Journal.Alike due due' strict (lenient.noteRelease retirement.handle.middleware) := by
  have releases := alike.releases
  have returned := alike.returned
  rw [@List.filterMap_cons _ _ _ retirement due'] at releases returned
  cases actor : retirement.handle.middleware with
  | scripted name =>
    rw [actor] at releases returned
    exact ⟨alike.calls, releases.trans List.perm_middle.symm, alike.replies, alike.next, returned⟩
  | preset preset =>
    rw [actor] at releases returned
    exact ⟨alike.calls, releases, alike.replies, alike.next,
      returned.trans List.perm_middle.symm⟩

/-- The same handles become due in both. -/
theorem defer (alike : Journal.Alike due due' strict lenient) {more more' : List (Retirement Actor)}
    (same : more.Perm more') : Journal.Alike (more ++ due) (more' ++ due') strict lenient where
  calls := alike.calls
  releases := by
    rw [List.filterMap_append, List.filterMap_append, List.append_assoc, List.append_assoc]
    exact (same.filterMap _).append alike.releases
  replies := alike.replies
  next := alike.next
  returned := by
    rw [List.filterMap_append, List.filterMap_append, List.append_assoc, List.append_assoc]
    exact (same.filterMap _).append alike.returned

end Journal.Alike

/-! ### Handlers that do not look at the policy -/

/-- Whether a handler makes calls when it is released. -/
def Cast.callsBack (cast : Cast) (actor : Actor) : Bool := !(cast.onRelease actor).isEmpty

/-- Two orders for a strict and a lenient rehearsal in which those that call back come alike.
Nothing is said about the others. -/
structure OrdersAgree (cast : Cast) (first second : ReleaseOrder Journal Actor) : Prop where
  arrange : ∀ {due due' strict lenient}, Alike Journal.Alike due due' strict lenient → ∀ retired,
    (first.arrange strict retired).filter (cast.callsBack ·.handle.middleware) =
      (second.arrange lenient retired).filter (cast.callsBack ·.handle.middleware)

/-- If nobody calls back, any two orders agree. -/
theorem ordersAgree_of_quiet {cast : Cast} (quiet : ∀ actor, cast.callsBack actor = false)
    (first second : ReleaseOrder Journal Actor) : OrdersAgree cast first second := by
  refine ⟨fun _ retired => ?_⟩
  simp only [quiet, List.filter_false]

/-- An order that only looks at the handlers agrees with itself. -/
theorem ordersAgree_of_handlers (cast : Cast) {order : ReleaseOrder Journal Actor}
    (looks : ∀ world world' : JournalWorld, world.registry.handlers = world'.registry.handlers →
      order.arrange world = order.arrange world') : OrdersAgree cast order order := by
  refine ⟨fun {due due' strict lenient} alike retired => ?_⟩
  have handlers := congrArg Registry.handlers alike.registry
  rw [Registry.handlers_finished] at handlers
  rw [looks strict lenient ((Registry.handlers_finished _ due).symm.trans handlers.symm)]

section Impartial

variable {cast : Cast} {due due' : List (Retirement Actor)} {strict lenient : JournalWorld}

/-- Calls that a handler makes keep both worlds as even as they are. -/
theorem makeCalls_alike {callsBack : Actor → Bool} {onStrict onLenient : Release Journal Actor}
    (impartial : onStrict.Impartial Journal.Alike callsBack onLenient) (calls : List (Call Actor))
    (alike : Alike Journal.Alike due due' strict lenient) :
    Alike Journal.Alike due due' (makeCalls onStrict calls strict)
      (makeCalls onLenient calls lenient) := by
  induction calls generalizing strict lenient with
  | nil => exact alike
  | cons call rest ih =>
    obtain ⟨agree, worlds⟩ := alike.perform impartial call
    exact ih (worlds.mapOutside _ _ (worlds.outside.noteReply agree.alike))

/-- The release of a handler that does not call back is only entered. -/
theorem release_of_quiet (order : ReleaseOrder Journal Actor) (depth : Nat) {actor : Actor}
    (quiet : cast.callsBack actor = false) (world : JournalWorld) :
    release order cast depth actor world = world.mapOutside (·.noteRelease actor) := by
  have no_calls : cast.onRelease actor = [] := by simpa [Cast.callsBack] using quiet
  cases depth with
  | zero => rfl
  | succ depth =>
    show makeCalls _ (cast.onRelease actor) _ = _
    rw [no_calls]
    rfl

/-- A rehearsal has one order, however deep releases are nested. -/
theorem order_release (order : ReleaseOrder Journal Actor) (cast : Cast) (depth : Nat) :
    (release order cast depth).order = order := by
  cases depth <;> rfl

variable {first second : ReleaseOrder Journal Actor}

/-- Releases are impartial if they keep worlds as even as they are. Whoever does not call back may
come earlier or later. -/
theorem impartial_of_effect (agree : OrdersAgree cast first second) {depth : Nat}
    (effect : ∀ {due due' strict lenient} actor, Alike Journal.Alike due due' strict lenient →
      Alike Journal.Alike due due' (release first cast depth actor strict)
        (release second cast depth actor lenient)) :
    (release first cast depth).Impartial Journal.Alike cast.callsBack
      (release second cast depth) where
  effect actor _ alike := effect actor alike
  strict {_ _ strict lenient} retirement quiet alike := by
    show Alike _ _ _ (release first cast depth retirement.handle.middleware _) lenient
    rw [release_of_quiet first depth quiet]
    exact ⟨alike.policy, alike.registry, alike.outside.noteRelease_strict⟩
  lenient {_ _ strict lenient} retirement quiet alike := by
    show Alike _ _ _ strict (release second cast depth retirement.handle.middleware _)
    rw [release_of_quiet second depth quiet]
    exact ⟨alike.policy, alike.registry, alike.outside.noteRelease_lenient⟩
  defer same related := related.defer same
  arrange alike retired := by
    rw [order_release, order_release]
    exact agree.arrange alike retired

/-- A release brings about the same under both policies. -/
theorem release_impartial (agree : OrdersAgree cast first second) (depth : Nat) :
    (release first cast depth).Impartial Journal.Alike cast.callsBack
      (release second cast depth) := by
  -- A script is followed one level below, where the induction takes over.
  induction depth with
  | zero =>
    exact impartial_of_effect agree fun actor alike =>
      alike.mapOutside (·.noteRelease actor) (·.noteRelease actor)
        (alike.outside.noteRelease actor)
  | succ depth ih =>
    exact impartial_of_effect agree fun actor alike =>
      makeCalls_alike ih _
        (alike.mapOutside (·.noteRelease actor) (·.noteRelease actor)
          (alike.outside.noteRelease actor))

/-- A scripted handler is impartial in front of an impartial stage. -/
theorem perform_impartial (agree : OrdersAgree cast first second) (depth : Nat) (name : String)
    (script : Script) {next next' : Stage Journal Actor}
    (impartial : next.Impartial Journal.Alike next') :
    (perform cast depth name script next first).Impartial Journal.Alike
      (perform cast depth name script next' second) := by
  intro request response strict lenient alike
  have entered := alike.mapOutside (fun journal => { journal with calls := name :: journal.calls })
    (fun journal => { journal with calls := name :: journal.calls }) (alike.outside.noteCall name)
  have called := makeCalls_alike (release_impartial agree depth) script.onHandle entered
  obtain ⟨result, answer, worlds⟩ := impartial.times script.forward request
    (script.before.elim response response.setResult) called
  unfold perform
  simp only [← result, ← answer]
  split
  · exact ⟨result, answer, worlds⟩
  · exact ⟨rfl, rfl, worlds⟩

/-- A preset answers the same from pools in which the same presets were released. -/
theorem answer?_of_perm (preset : Preset) {pool pool' : Preset.Pool}
    (same : pool.released.Perm pool'.released) (method : String) :
    preset.answer? pool method = preset.answer? pool' method := by
  have released : preset.isReleased pool = preset.isReleased pool' := by
    rw [Preset.isReleased, Preset.isReleased, Bool.eq_iff_iff, List.contains_iff_mem,
      List.contains_iff_mem]
    exact same.mem_iff
  unfold Preset.answer?
  rw [released]

/-- A preset is impartial in front of an impartial stage. -/
theorem preset_impartial (preset : Preset) {next next' : Stage Journal Actor}
    (impartial : next.Impartial Journal.Alike next') :
    (Preset.handle Journal.pool preset next).Impartial Journal.Alike
      (Preset.handle Journal.pool preset next') := by
  intro request response strict lenient alike
  unfold Preset.handle
  rw [answer?_of_perm preset alike.outside.returned]
  split
  · exact ⟨rfl, rfl, alike⟩
  · exact ⟨rfl, rfl, alike⟩
  · exact impartial request response alike

/-- So is the last stage. -/
theorem lastStage_impartial (agree : OrdersAgree cast first second) (depth : Nat)
    (last : Option (String × Script)) :
    (lastStage first cast depth last).Impartial Journal.Alike
      (lastStage second cast depth last) := by
  cases last with
  | none => exact Stage.Impartial.methodNotFound
  | some entry => exact perform_impartial agree depth entry.1 entry.2 Stage.Impartial.idle

/-- A dispatch ends in the same way under both policies. -/
theorem pass_alike (agree : OrdersAgree cast first second) (depth : Nat)
    (alike : Alike Journal.Alike [] [] strict lenient) (request : Request) (response : Response)
    (last : Option (String × Script)) :
    (pass first cast depth strict request response last).result =
        (pass second cast depth lenient request response last).result ∧
      (pass first cast depth strict request response last).response =
        (pass second cast depth lenient request response last).response ∧
      Alike Journal.Alike [] [] (pass first cast depth strict request response last).world
        (pass second cast depth lenient request response last).world := by
  refine Stage.Impartial.dispatch (fun actor => ?_) (lastStage_impartial agree depth last) request
    response alike
  cases actor with
  | scripted name =>
    exact perform_impartial agree depth name _ (lastStage_impartial agree depth last)
  | preset preset => exact preset_impartial preset (lastStage_impartial agree depth last)

/-! ### Whole rehearsals -/

/-- Worlds that are even are even after a deed. -/
theorem act_alike (agree : OrdersAgree cast first second) (depth : Nat)
    (alike : Alike Journal.Alike [] [] strict lenient) (deed : Deed) :
    Alike Journal.Alike [] [] (act first cast depth strict deed)
      (act second cast depth lenient deed) := by
  cases deed with
  | call call => exact (alike.perform (release_impartial agree depth) call).2
  | dispatch request response last => exact (pass_alike agree depth alike request response last).2.2

/-- The worlds of two rehearsals are even after every deed. -/
theorem rehearse_alike (agree : OrdersAgree cast first second) (depth : Nat) (deeds : List Deed) :
    Alike Journal.Alike [] [] (rehearse first cast depth .strict deeds)
      (rehearse second cast depth .lenient deeds) := by
  have start : Alike Journal.Alike [] [] (⟨.empty .strict, {}⟩ : JournalWorld)
      ⟨.empty .lenient, {}⟩ :=
    ⟨rfl, rfl, rfl, .refl _, .nil, rfl, .refl _⟩
  unfold rehearse
  generalize (⟨.empty .strict, {}⟩ : JournalWorld) = strict at start ⊢
  generalize (⟨.empty .lenient, {}⟩ : JournalWorld) = lenient at start ⊢
  induction deeds generalizing strict lenient with
  | nil => exact start
  | cons deed rest ih => exact ih _ _ (act_alike agree depth start deed)

end Impartial

/-- Releasing a reference that the domain does not hold is noted as a violation, and nothing else
comes of it. -/
theorem perform_release_of_notMem {ε μ : Type} (onRelease : Release ε μ) {world : World ε μ}
    {scope : Scope} {domain : Domain} (absent : domain ∉ world.registry.holdings scope) :
    (world.perform onRelease (.release scope domain)).2 =
      world.mapRegistry (·.note (·.noteViolation scope)) := by
  show World.settle onRelease ⟨(world.registry.release scope domain).registry, world.outside⟩
    (world.registry.release scope domain).retired = _
  rw [Registry.release_of_notMem absent]
  exact World.settle_nil _ _

/-- A strict and a lenient rehearsal of the same deeds, in which handles that call back are released
in the same order. After the same deeds they have the same handlers, references, pins and metrics,
have reached and released the same handlers, and have got alike replies to the calls that handlers
made.

Whatever is done next ends alike. A dispatch has the same result and the same response. A call has
the same answer, unless it asks for the policy or releases a reference that the domain does not
hold: that fails with scope and domain under the strict policy, is answered with `false` under the
lenient one, and under both it leaves everything but the ledger as it was. -/
theorem rehearse_strict_lenient {cast : Cast} {first second : ReleaseOrder Journal Actor}
    (agree : OrdersAgree cast first second) (depth : Nat) (deeds : List Deed) :
    let strict := rehearse first cast depth .strict deeds
    let lenient := rehearse second cast depth .lenient deeds
    (strict.registry.handlers = lenient.registry.handlers ∧
      strict.registry.counts = lenient.registry.counts ∧
      strict.registry.pinned = lenient.registry.pinned ∧
      strict.registry.ledger = lenient.registry.ledger) ∧
    (strict.outside.calls = lenient.outside.calls ∧
      strict.outside.releases.Perm lenient.outside.releases ∧
      strict.outside.pool.released.Perm lenient.outside.pool.released ∧
      List.Forall₂ Answer.Alike strict.outside.replies lenient.outside.replies) ∧
    (∀ request response last,
      (pass first cast depth strict request response last).result =
          (pass second cast depth lenient request response last).result ∧
        (pass first cast depth strict request response last).response =
          (pass second cast depth lenient request response last).response) ∧
    (∀ call, strict.registry.Agree call (strict.perform (release first cast depth) call).1
      (lenient.perform (release second cast depth) call).1) ∧
    ∀ scope domain, domain ∉ strict.registry.holdings scope →
      (strict.perform (release first cast depth) (.release scope domain)).2 =
          strict.mapRegistry (·.note (·.noteViolation scope)) ∧
        (lenient.perform (release second cast depth) (.release scope domain)).2 =
          lenient.mapRegistry (·.note (·.noteViolation scope)) := by
  intro strict lenient
  -- When a deed is over nothing is due, in whatever order handles were released.
  have alike : Alike Journal.Alike [] [] strict lenient := rehearse_alike agree depth deeds
  have journals := alike.outside
  refine ⟨?_, ⟨journals.calls, journals.releases, journals.returned, journals.replies⟩,
    fun request response last => ?_, fun call => ?_, fun scope domain absent => ?_⟩
  · rw [alike.registry_eq]
    exact ⟨rfl, rfl, rfl, rfl⟩
  · obtain ⟨result, answer, -⟩ := pass_alike agree depth alike request response last
    exact ⟨result, answer⟩
  · exact (alike.perform (release_impartial agree depth) call).1
  · have absent_too : domain ∉ lenient.registry.holdings scope := by
      rw [alike.registry_eq]
      exact absent
    exact ⟨perform_release_of_notMem _ absent, perform_release_of_notMem _ absent_too⟩

/-- An order in which those that call back come first, and then the others in descending order of
their scopes. -/
def callersFirst (cast : Cast) : ReleaseOrder Journal Actor where
  arrange _ retired :=
    retired.filter (cast.callsBack ·.handle.middleware) ++
      (retired.filter (!cast.callsBack ·.handle.middleware)).reverse
  perm _ retired :=
    ((List.reverse_perm _).append_left _).trans
      (List.filter_append_perm (cast.callsBack ·.handle.middleware) retired)

/-- Those that call back come in ascending order there, as they do in ascending order of all. -/
theorem ordersAgree_callersFirst (cast : Cast) :
    OrdersAgree cast .ascending (callersFirst cast) := by
  refine ⟨fun _ retired => ?_⟩
  show retired.filter _ = (_ ++ List.reverse _).filter _
  rw [List.filter_append, List.filter_reverse, List.filter_filter, List.filter_filter]
  simp

/-- One handler gives a reference back once more when it is released, and two others do nothing. -/
def doubleRelease : Cast :=
  (∅ : Cast).insert "twice" { onRelease := [.release ⟨Scope.wallet⟩ ⟨"guest"⟩] }

/-- A guest registers all of them and leaves. -/
def registerAndLeave : List Deed :=
  [.call (.register ⟨"eip155:1"⟩ ⟨"guest"⟩ ⟨⟨"eip155:1"⟩, .scripted "one"⟩),
   .call (.register ⟨"eip155:5"⟩ ⟨"guest"⟩ ⟨⟨"eip155:5"⟩, .scripted "five"⟩),
   .call (.register ⟨Scope.wallet⟩ ⟨"guest"⟩ ⟨⟨Scope.wallet⟩, .scripted "twice"⟩),
   .call (.releaseDomain ⟨"guest"⟩)]

/-- The orders differ, and so does the answer to the release that comes too late. -/
theorem rehearse_strict_lenient_of_doubleRelease :
    let strict := rehearse .ascending doubleRelease 1 .strict registerAndLeave
    let lenient := rehearse (callersFirst doubleRelease) doubleRelease 1 .lenient registerAndLeave
    OrdersAgree doubleRelease .ascending (callersFirst doubleRelease) ∧
      strict.outside.releases = ["twice", "five", "one"] ∧
      lenient.outside.releases = ["one", "five", "twice"] ∧
      strict.outside.replies = [.failed (.unregisteredRelease ⟨Scope.wallet⟩ ⟨"guest"⟩)] ∧
      lenient.outside.replies = [.flag false] ∧
      strict.registry.ledger = lenient.registry.ledger := by
  intro strict lenient
  have agree := ordersAgree_callersFirst doubleRelease
  obtain ⟨⟨-, -, -, ledger⟩, -⟩ := rehearse_strict_lenient agree 1 registerAndLeave
  exact ⟨agree, by decide +kernel, by decide +kernel, by decide +kernel, by decide +kernel, ledger⟩

/-- Two handlers register different handles for the same scope when they are released. -/
def conflictingRegistrations : Cast :=
  let registers (name : String) : Script :=
    { onRelease := [.register ⟨"eip155:5"⟩ ⟨"guest"⟩ ⟨⟨"eip155:5"⟩, .scripted name⟩] }
  (∅ : Cast).insertMany [("left", registers "third"), ("right", registers "fourth")]

/-- Both are installed, and then everything is released. -/
def installAndReleaseAll : List Deed :=
  [.call (.install ⟨"eip155:1"⟩ ⟨⟨"eip155:1"⟩, .scripted "left"⟩),
   .call (.install ⟨Scope.wallet⟩ ⟨⟨Scope.wallet⟩, .scripted "right"⟩),
   .call .releaseAll]

/-- A strict and a lenient registry that release them in different orders keep different handlers.
They also say that they have different policies. -/
theorem rehearse_differs_of_orders :
    let strict := rehearse .ascending conflictingRegistrations 1 .strict installAndReleaseAll
    let lenient := rehearse .descending conflictingRegistrations 1 .lenient installAndReleaseAll
    strict.registry.handler? ⟨"eip155:5"⟩ = some ⟨⟨"eip155:5"⟩, .scripted "third"⟩ ∧
      lenient.registry.handler? ⟨"eip155:5"⟩ = some ⟨⟨"eip155:5"⟩, .scripted "fourth"⟩ ∧
      strict.registry.handlers ≠ lenient.registry.handlers ∧
      (strict.perform (release .ascending conflictingRegistrations 1) .policy).1 =
        .policy .strict ∧
      (lenient.perform (release .descending conflictingRegistrations 1) .policy).1 =
        .policy .lenient := by
  intro strict lenient
  have first : strict.registry.handler? ⟨"eip155:5"⟩ =
      some ⟨⟨"eip155:5"⟩, .scripted "third"⟩ := by decide +kernel
  have second : lenient.registry.handler? ⟨"eip155:5"⟩ =
      some ⟨⟨"eip155:5"⟩, .scripted "fourth"⟩ := by decide +kernel
  refine ⟨first, second, fun same => ?_, by decide +kernel, by decide +kernel⟩
  have equal : strict.registry.handler? ⟨"eip155:5"⟩ = lenient.registry.handler? ⟨"eip155:5"⟩ := by
    rw [Registry.handler?, same, Registry.handler?]
  rw [first, second] at equal
  exact absurd equal (by decide)

end Rehearsal

end Switchboard
