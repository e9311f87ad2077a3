import Switchboard.Proofs.Registry.Tenure

/-!
# `Switchboard.Proofs.Registry.Routing`: which handler gets a request

A dispatch hands its request to one stage: the handler that is in the slot of the request's scope,
or the next stage (`Stage.HandsTo`). Who is in the slot is decided by the history of the registry.
The first handle that is accepted on a free scope stays until the scope is free again, whatever is
registered meanwhile (`dispatch_of_history`).

`Dispatched` names every moment of a run at which a request is dispatched, also by middlewares in
their turns. No count has to stay small for any of this: if a count wraps around, a handler may
leave too early, and then a new tenure begins.
-/

set_option autoImplicit false

namespace Switchboard

open Rpc

variable {μ : Type}

namespace Stage

variable {ε : Type}

/-- A stage with its outcome entered into the ledger. -/
def counted (served : Bool) (stage : Stage ε μ) : Stage ε μ := fun request response world =>
  let passage := stage request response world
  let outcome := outcome served passage.result
  { passage with
    world := passage.world.mapRegistry fun registry => registry.note (·.noteDispatch outcome) }

/-- A dispatch hands over to a stage what it was given itself, and to no other one. It returns what
the stage returns, and only enters the outcome into the ledger. -/
structure HandsTo (behaviour : Behaviour ε μ) (next : Stage ε μ) (request : Request)
    (response : Response) (world : World ε μ) (served : Bool) (callee : Stage ε μ) : Prop where
  passage : dispatch behaviour next request response world =
    counted served callee request response world
  same_result : (dispatch behaviour next request response world).result =
    (callee request response world).result
  same_response : (dispatch behaviour next request response world).response =
    (callee request response world).response
  same_outside : (dispatch behaviour next request response world).world.outside =
    (callee request response world).world.outside
  /-- If the stage leaves the registry alone then so does the dispatch. -/
  undisturbed : (callee request response world).world.registry = world.registry →
    let after := (dispatch behaviour next request response world).world.registry
    after.handlers = world.registry.handlers ∧ after.counts = world.registry.counts ∧
      after.pinned = world.registry.pinned

/-- A request is handed on if its dispatch is the counted passage through the callee. -/
theorem HandsTo.of_passage {behaviour : Behaviour ε μ} {next callee : Stage ε μ}
    {request : Request} {response : Response} {world : World ε μ} {served : Bool}
    (passage : dispatch behaviour next request response world =
      counted served callee request response world) :
    HandsTo behaviour next request response world served callee where
  passage := passage
  same_result := by
    rw [passage]
    rfl
  same_response := by
    rw [passage]
    rfl
  same_outside := by
    rw [passage]
    rfl
  undisturbed same := by
    rw [passage, ← same]
    exact ⟨rfl, rfl, rfl⟩

/-- A request is handed to the handler of its scope. -/
theorem handsTo_handler (behaviour : Behaviour ε μ) (next : Stage ε μ) {request : Request}
    (response : Response) {world : World ε μ} {handle : Handle μ}
    (chosen : chosen? world.registry request = some handle) :
    HandsTo behaviour next request response world true
      (behaviour.handle handle.middleware next) := by
  apply HandsTo.of_passage
  unfold dispatch
  rw [chosen]
  rfl

/-- A request that nobody serves is handed to the next stage. -/
theorem handsTo_next (behaviour : Behaviour ε μ) (next : Stage ε μ) {request : Request}
    (response : Response) {world : World ε μ} (unserved : chosen? world.registry request = none) :
    HandsTo behaviour next request response world false next := by
  apply HandsTo.of_passage
  unfold dispatch
  rw [unserved]
  rfl

end Stage

namespace Chronicle

/-! ### Requests in a run -/

/-- In a run of deeds that begins with a story, the request is dispatched when the story is
`there`. -/
inductive Dispatched (script : Script μ) (request : Request) (there : Story μ) :
    (depth : Nat) → Story μ → List (Deed μ) → Prop
  /-- The first deed dispatches it. -/
  | now {depth : Nat} {deeds : List (Deed μ)} :
    Dispatched script request there depth there (.dispatch request :: deeds)
  /-- It is dispatched after the first deed. -/
  | later {depth : Nat} {story : Story μ} {deed : Deed μ} {deeds : List (Deed μ)} :
    Dispatched script request there depth (act (script.behaviour depth) story deed) deeds →
    Dispatched script request there depth story (deed :: deeds)
  /-- The first deed is a dispatch too, and the middleware that it reaches dispatches the request in
  its turn. -/
  | inHandle {depth : Nat} {story : Story μ} {other : Request} {handle : Handle μ}
      {deeds : List (Deed μ)} :
    Stage.chosen? story.registry other = some handle →
    Dispatched script request there depth (write (.handled handle.middleware) story)
      (script.onHandle handle.middleware story.outside) →
    Dispatched script request there (depth + 1) story (.dispatch other :: deeds)
  /-- The first deed is a call, and a middleware that is released by it dispatches the request. -/
  | inRelease {depth : Nat} {story earlier : Story μ} {call : Call μ} {deeds : List (Deed μ)}
      {before after : List (Retirement μ)} {retirement : Retirement μ} :
    script.order.arrange (afterCall story call) (story.registry.step call).retired =
      before ++ retirement :: after →
    earlier = (afterCall story call).finishAll (script.behaviour (depth + 1)).release before →
    Dispatched script request there depth (afterRelease earlier retirement)
      (script.onRelease retirement.handle.middleware earlier.outside) →
    Dispatched script request there (depth + 1) story (.call call :: deeds)

/-- What single events keep holds whenever a request is dispatched. -/
theorem Stepwise.holds_when_dispatched {P : List (Retirement μ) → Story μ → Prop}
    (stepwise : Stepwise P) {script : Script μ} {request : Request} {there story : Story μ}
    {depth : Nat} {deeds : List (Deed μ)}
    (dispatched : Dispatched script request there depth story deeds)
    (due : List (Retirement μ)) (h : P due story) : ∃ due, P due there := by
  -- The induction follows the turns down to the one in which the request is dispatched.
  induction dispatched generalizing due with
  | now => exact ⟨due, h⟩
  | later _ ih => exact ih due (stepwise.keeps_act (stepwise.keeps script _) h _)
  | inHandle chosen _ ih =>
    obtain ⟨scope, -, found⟩ := Option.bind_eq_some_iff.mp chosen
    exact ih due (stepwise.handle scope _ found h)
  | @inRelease depth story _ call _ before after retirement arranged earlier _ ih =>
    have order := script.order.perm (afterCall story call) (story.registry.step call).retired
    have begun := stepwise.reorder (order.symm.append_right _) (stepwise.call call h)
    rw [arranged, List.append_assoc] at begun
    have turn := (stepwise.keeps script (depth + 1)).finishAll before begun
    rw [← earlier] at turn
    exact ih _ (stepwise.release retirement turn)

/-! ### Who is in the slot -/

/-- Every handler is bound to its scope and has its tenure. -/
def Routed (registry : Registry μ) (entries : List (Entry μ)) : Prop :=
  ∀ scope handle, registry.handler? scope = some handle →
    handle.scope = scope ∧ ∃ call since, Tenure scope handle call since entries

namespace Routed

variable {registry : Registry μ} {entries : List (Entry μ)}

/-- Nobody is in a slot at first. -/
theorem start (policy : ReleasePolicy) : Routed (.empty policy : Registry μ) [] := by
  intro scope handle occupied
  simp [Registry.empty, Registry.handler?] at occupied

/-- A call begins a tenure, ends it or lets it go on. -/
theorem call (routed : Routed registry entries) (call : Call μ) :
    Routed (registry.step call).registry (entries ++ [.called registry call]) := by
  intro scope handle occupied
  rcases Registry.accepted_or_handler?_of_step occupied with ⟨bound, accepted⟩ | there
  · -- The tenure begins with this call.
    exact ⟨bound, call, [], ⟨⟨entries, registry, rfl, accepted⟩, by simp⟩⟩
  · obtain ⟨bound, first, since, tenure⟩ := routed scope handle there
    refine ⟨bound, first, since ++ [.called registry call], tenure.concat ?_⟩
    intro found other same
    obtain ⟨rfl, -⟩ := Entry.called.inj same
    exact there

/-- What is no call ends no tenure. -/
theorem write (routed : Routed registry entries) {entry : Entry μ}
    (no_call : ∀ found call, entry ≠ .called found call) :
    Routed registry (entries ++ [entry]) := by
  intro scope handle occupied
  obtain ⟨bound, call, since, tenure⟩ := routed scope handle occupied
  refine ⟨bound, call, since ++ [entry], tenure.concat ?_⟩
  intro found other same
  exact absurd same (no_call found other)

/-- Every event keeps the slots explained by the history. -/
theorem stepwise : Stepwise fun _ (story : Story μ) => True → Routed story.registry story.outside :=
  stepwise_of_history (R := fun _ => True) id (fun call _ routed => routed.call call)
    (fun no_call routed => routed.write no_call) fun _ routed => routed

end Routed

/-- Whenever a request is dispatched in a run, the history decides who gets it.

If the scope of the request is registered, it goes to the handle that was passed by the first
registration or installation accepted since the scope last had no handler: a call found the scope
free, and every call since then found the handle there. If the request has no scope, or one that is
not registered, it goes to the next stage. In both cases the other requests for the same scope go
the same way, whatever their origins. -/
theorem dispatch_of_history (script : Script μ) (depth : Nat) (policy : ReleasePolicy)
    (deeds : List (Deed μ)) (request : Request) (there : Story μ)
    (dispatched : Dispatched script request there depth ⟨.empty policy, []⟩ deeds)
    (behaviour : Behaviour (List (Entry μ)) μ) (next : Stage (List (Entry μ)) μ)
    (response : Response) :
    (∀ scope, request.scope = some scope → there.registry.isRegistered scope = true →
      ∃ handle call before found since,
        there.registry.handler? scope = some handle ∧
        there.outside = before ++ .called found call :: since ∧
        ((∃ domain, call = .register scope domain handle) ∨ call = .install scope handle) ∧
        found.accepted? call = some handle ∧ found.handler? scope = none ∧
        (∀ later other, .called later other ∈ since → later.handler? scope = some handle) ∧
        ∀ other : Request, other.scope = request.scope →
          Stage.HandsTo behaviour next other response there true
            (behaviour.handle handle.middleware next)) ∧
    ((∀ scope, request.scope = some scope → there.registry.isRegistered scope = false) →
      ∀ other : Request, other.scope = request.scope →
        Stage.HandsTo behaviour next other response there false next) := by
  -- The invariant holds at the moment of the dispatch, however deep in the turns that is.
  obtain ⟨-, routed⟩ :=
    Routed.stepwise.holds_when_dispatched dispatched [] fun _ => .start policy
  constructor
  · intro scope addressed registered
    rw [Registry.isRegistered, Registry.contains_handlers, Option.isSome_iff_exists] at registered
    obtain ⟨handle, occupied⟩ := registered
    obtain ⟨rfl, call, since, tenure⟩ := routed trivial scope handle occupied
    obtain ⟨before, found, history, accepted⟩ := tenure.began
    obtain ⟨passed, free⟩ := admits_of_accepted accepted
    refine ⟨handle, call, before, found, since, occupied, history, passed, accepted, free,
      tenure.lasted, fun other same => ?_⟩
    apply Stage.handsTo_handler
    rw [Stage.chosen?, same, addressed]
    exact occupied
  · intro unregistered other same
    apply Stage.handsTo_next
    rw [Stage.chosen?, same, Option.bind_eq_none_iff]
    intro scope addressed
    have absent := unregistered scope addressed
    rwa [Registry.isRegistered, Registry.contains_handlers, Option.isSome_eq_false_iff,
      Option.isNone_iff_eq_none] at absent

/-- Two domains pass a handle for the wallet, and only the first one is installed. When the wallet
was retired another two try. -/
def fourPassed : List (Deed Nat) :=
  [.call (.register ⟨Scope.wallet⟩ ⟨"guest"⟩ ⟨⟨Scope.wallet⟩, 0⟩),
   .call (.register ⟨Scope.wallet⟩ ⟨"host"⟩ ⟨⟨Scope.wallet⟩, 1⟩),
   .call (.retire ⟨Scope.wallet⟩),
   .call (.register ⟨Scope.wallet⟩ ⟨"host"⟩ ⟨⟨Scope.wallet⟩, 2⟩),
   .call (.install ⟨Scope.wallet⟩ ⟨⟨Scope.wallet⟩, 3⟩)]

/-- The wallet is served by the first of the two, and the ledger by nobody. -/
theorem dispatch_of_first_accepted :
    let there := tell .silent 0 .lenient fourPassed
    let behaviour := Script.silent.behaviour 0
    let toWallet : Request := { method := "balance", scope := some ⟨Scope.wallet⟩ }
    let toLedger : Request := { method := "balance", scope := some ⟨"ledger"⟩ }
    (Dispatched .silent toWallet there 0 ⟨.empty .lenient, []⟩
        (fourPassed ++ [.dispatch toWallet]) ∧
      there.registry.isRegistered ⟨Scope.wallet⟩ = true ∧
      Stage.HandsTo behaviour Stage.methodNotFound toWallet (.forRequest toWallet) there true
        (behaviour.handle 2 Stage.methodNotFound)) ∧
    (Dispatched .silent toLedger there 0 ⟨.empty .lenient, []⟩
        (fourPassed ++ [.dispatch toLedger]) ∧
      there.registry.isRegistered ⟨"ledger"⟩ = false ∧
      Stage.HandsTo behaviour Stage.methodNotFound toLedger (.forRequest toLedger) there false
        Stage.methodNotFound) := by
  intro there behaviour toWallet toLedger
  have dispatched (request : Request) : Dispatched .silent request there 0 ⟨.empty .lenient, []⟩
      (fourPassed ++ [.dispatch request]) :=
    .later (.later (.later (.later (.later .now))))
  have registered : there.registry.isRegistered ⟨Scope.wallet⟩ = true := by decide +kernel
  have absent : there.registry.isRegistered ⟨"ledger"⟩ = false := by decide +kernel
  have occupant : there.registry.handler? ⟨Scope.wallet⟩ = some ⟨⟨Scope.wallet⟩, 2⟩ := by
    decide +kernel
  -- The theorem names some handle that was accepted; the registry says which one it is.
  obtain ⟨handle, -, -, -, -, occupied, -, -, -, -, -, served⟩ :=
    (dispatch_of_history .silent 0 .lenient _ toWallet there (dispatched toWallet) behaviour
      Stage.methodNotFound (.forRequest toWallet)).1 ⟨Scope.wallet⟩ rfl registered
  obtain rfl := Option.some.inj (occupied.symm.trans occupant)
  have unserved := (dispatch_of_history .silent 0 .lenient _ toLedger there (dispatched toLedger)
    behaviour Stage.methodNotFound (.forRequest toLedger)).2
  refine ⟨⟨dispatched toWallet, registered, served toWallet rfl⟩,
    dispatched toLedger, absent, unserved ?_ toLedger rfl⟩
  rintro scope same
  obtain rfl := Option.some.inj same
  exact absent

end Chronicle

end Switchboard
