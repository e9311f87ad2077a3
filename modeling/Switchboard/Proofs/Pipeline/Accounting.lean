import Switchboard.Pipeline
import Switchboard.Proofs.Registry.Entries

/-!
# `Switchboard.Proofs.Pipeline.Accounting`: every request is counted and answered once

A request is counted in two places. The dispatch enters its outcome, and the pipeline enters how
long it took. `Pipeline.accounts_for_requests` says that the two agree after any number of requests
and calls: every request is counted under exactly one outcome, which is an error exactly if the
stage that was run has failed, and a failure replaces whatever that stage had put into the response.

This holds as long as nobody else counts requests (`Pipeline.KeepsTraffic`). A middleware that
follows a `Conduct` never does: it may put anything into the response, run the next stage as often
as it likes, make calls of the registry and end as it likes, but it does not dispatch.
-/

set_option autoImplicit false

namespace Switchboard

open Rpc Metrics

variable {ε μ : Type}

/-! ### Who counts requests -/

/-- What is counted of requests: their outcomes, and how long they took. -/
def Metrics.Ledger.traffic (ledger : Ledger) : Counter × Timer :=
  (ledger.dispatches, ledger.dispatchDuration)

/-- A release that counts no request. -/
def Release.KeepsTraffic (onRelease : Release ε μ) : Prop :=
  ∀ middleware world,
    (onRelease middleware world).registry.ledger.traffic = world.registry.ledger.traffic

/-- A stage that counts no request. -/
def Stage.KeepsTraffic (stage : Stage ε μ) : Prop :=
  ∀ request response world,
    (stage request response world).world.registry.ledger.traffic = world.registry.ledger.traffic

/-- Nobody counts requests but the pipeline itself. -/
structure Pipeline.KeepsTraffic (pipeline : Pipeline ε μ) : Prop where
  terminal : pipeline.terminal.KeepsTraffic
  handle : ∀ middleware,
    (pipeline.behaviour.handle middleware pipeline.terminal).KeepsTraffic
  release : pipeline.behaviour.release.KeepsTraffic

/-- The entries of a call are about other things. -/
theorem Registry.traffic_step (registry : Registry μ) (call : Call μ) :
    (registry.step call).registry.ledger.traffic = registry.ledger.traffic := by
  rw [ledger_step]
  unfold entry
  split
  · split <;> rfl
  · split <;> rfl
  · split <;> rfl
  · rfl

namespace Release.KeepsTraffic

variable {onRelease : Release ε μ} (keeps : onRelease.KeepsTraffic)

include keeps

/-- Releases one after another count no request. -/
theorem finishAll (world : World ε μ) (retired : List (Retirement μ)) :
    (world.finishAll onRelease retired).registry.ledger.traffic =
      world.registry.ledger.traffic := by
  induction retired generalizing world with
  | nil => rfl
  | cons retirement rest ih =>
    exact (ih (world.finish onRelease retirement)).trans (keeps retirement.handle.middleware _)

/-- A call counts no request, nor do the releases that come of it. -/
theorem perform (world : World ε μ) (call : Call μ) :
    (world.perform onRelease call).2.registry.ledger.traffic = world.registry.ledger.traffic :=
  (keeps.finishAll _ _).trans (world.registry.traffic_step call)

end Release.KeepsTraffic

/-! ### What a middleware can do -/

/-- How a middleware goes about a request. What it does next may depend on all that it has seen. -/
inductive Conduct (ε μ : Type)
  /-- It ends, well or with a failure, and leaves a response. -/
  | finish (result : Except Failure Unit) (response : Response) (outside : ε)
  /-- It runs the next stage on some request and some response, and goes on with what comes of
  it. -/
  | forward (request : Request) (response : Response) (outside : ε)
    (resume : Except Failure Unit → Response → ε → Conduct ε μ)
  /-- It makes a call of the registry, and goes on with the answer. -/
  | call (call : Call μ) (outside : ε) (resume : Answer → ε → Conduct ε μ)

namespace Conduct

/-- What a conduct comes to in front of a stage. -/
def perform (onRelease : Release ε μ) (next : Stage ε μ) :
    Conduct ε μ → Registry μ → Passage ε μ
  | .finish result response outside, registry => ⟨result, response, ⟨registry, outside⟩⟩
  | .forward request response outside resume, registry =>
    let passage := next request response ⟨registry, outside⟩
    (resume passage.result passage.response passage.world.outside).perform onRelease next
      passage.world.registry
  | .call asked outside resume, registry =>
    let (answer, world) := World.perform onRelease ⟨registry, outside⟩ asked
    (resume answer world.outside).perform onRelease next world.registry

/-- The stage of a middleware that decides on its conduct when a request arrives. -/
def stage (onRelease : Release ε μ) (next : Stage ε μ)
    (plan : Request → Response → ε → Conduct ε μ) : Stage ε μ :=
  fun request response world =>
    (plan request response world.outside).perform onRelease next world.registry

/-- No conduct counts requests. -/
theorem keepsTraffic_stage {onRelease : Release ε μ} (release : onRelease.KeepsTraffic)
    {next : Stage ε μ} (keeps : next.KeepsTraffic)
    (plan : Request → Response → ε → Conduct ε μ) :
    (stage onRelease next plan).KeepsTraffic := by
  intro request response world
  show ((plan request response world.outside).perform onRelease next
    world.registry).world.registry.ledger.traffic = _
  -- The induction is on the conduct, and the registry moves on with every step.
  generalize plan request response world.outside = conduct
  generalize world.registry = registry
  induction conduct generalizing registry with
  | finish result response outside => rfl
  | forward request response outside resume ih =>
    exact (ih _ _ _ _).trans (keeps request response ⟨registry, outside⟩)
  | call call outside resume ih =>
    exact (ih _ _ _).trans (release.perform ⟨registry, outside⟩ call)

end Conduct

/-- Where all middlewares follow a conduct, requests are counted by the pipeline alone. -/
theorem Pipeline.keepsTraffic_of_conduct {pipeline : Pipeline ε μ}
    (terminal : pipeline.terminal.KeepsTraffic)
    (release : pipeline.behaviour.release.KeepsTraffic)
    {plan : μ → Request → Response → ε → Conduct ε μ}
    (follows : ∀ middleware, pipeline.behaviour.handle middleware pipeline.terminal =
      Conduct.stage pipeline.behaviour.release pipeline.terminal (plan middleware)) :
    pipeline.KeepsTraffic where
  terminal := terminal
  handle middleware := by
    rw [follows]
    exact Conduct.keepsTraffic_stage release terminal (plan middleware)
  release := release

/-! ### One request -/

namespace World

/-- How many requests were counted under an outcome. -/
def dispatched (world : World ε μ) (outcome : Outcome) : Nat :=
  (world.registry.ledger.dispatches.get (byOutcome outcome)).toNat

/-- How many requests were timed. -/
def timed (world : World ε μ) : Nat :=
  (world.registry.ledger.dispatchDuration.count .empty).toNat

end World

namespace Pipeline

/-- What the stage comes to that a request is handed to: the handler of its scope in front of the
last stage, or the last stage itself. -/
def passage (pipeline : Pipeline ε μ) (request : Request) (world : World ε μ) : Passage ε μ :=
  match Stage.chosen? world.registry request with
  | some handle =>
    pipeline.behaviour.handle handle.middleware pipeline.terminal request (.forRequest request)
      world
  | none => pipeline.terminal request (.forRequest request) world

/-- The outcome under which a request is counted. -/
def outcome (pipeline : Pipeline ε μ) (request : Request) (world : World ε μ) : Outcome :=
  Stage.outcome (Stage.chosen? world.registry request).isSome
    (pipeline.passage request world).result

/-- A request is passed to one stage, and then counted and timed. -/
theorem handle_eq (pipeline : Pipeline ε μ) (request : Request) (world : World ε μ) :
    pipeline.handle request world =
      let passage := pipeline.passage request world
      (match passage.result with
        | .ok () => passage.response
        | .error failure => passage.response.setFailure failure,
        passage.world.mapRegistry fun registry =>
          (registry.note (·.noteDispatch (pipeline.outcome request world))).note
            (·.noteDuration (pipeline.elapsed world passage.world))) := by
  unfold handle outcome passage Stage.dispatch
  cases Stage.chosen? world.registry request <;> rfl

/-- Where the stage has failed, the failure is the answer. -/
theorem response_of_error {pipeline : Pipeline ε μ} {request : Request} {world : World ε μ}
    {failure : Failure} (fails : (pipeline.passage request world).result = .error failure) :
    (pipeline.handle request world).1 =
      (pipeline.passage request world).response.setFailure failure := by
  simp only [handle_eq, fails]

/-- Else the answer is what the stage has left. -/
theorem response_of_ok {pipeline : Pipeline ε μ} {request : Request} {world : World ε μ}
    (succeeds : (pipeline.passage request world).result = .ok ()) :
    (pipeline.handle request world).1 = (pipeline.passage request world).response := by
  simp only [handle_eq, succeeds]

/-- The outcome is an error exactly if the passage ends in a failure. -/
theorem outcome_eq_error_iff (pipeline : Pipeline ε μ) (request : Request) (world : World ε μ) :
    pipeline.outcome request world = .error ↔
      ∃ failure, (pipeline.passage request world).result = .error failure := by
  unfold outcome
  cases (pipeline.passage request world).result with
  | error failure => exact iff_of_true rfl ⟨failure, rfl⟩
  | ok _ => cases (Stage.chosen? world.registry request).isSome <;> simp [Stage.outcome]

/-- The outcome is a handled request exactly if a handler was chosen and the passage ends well. -/
theorem outcome_eq_handled_iff (pipeline : Pipeline ε μ) (request : Request) (world : World ε μ) :
    pipeline.outcome request world = .handled ↔
      (pipeline.passage request world).result = .ok () ∧
        (Stage.chosen? world.registry request).isSome = true := by
  unfold outcome
  cases (pipeline.passage request world).result with
  | error failure => simp [Stage.outcome]
  | ok _ => cases (Stage.chosen? world.registry request).isSome <;> simp [Stage.outcome]

namespace KeepsTraffic

variable {pipeline : Pipeline ε μ} (keeps : pipeline.KeepsTraffic)

include keeps

/-- A passage changes no counter of dispatches and no timer. -/
theorem traffic_passage (request : Request) (world : World ε μ) :
    (pipeline.passage request world).world.registry.ledger.traffic =
      world.registry.ledger.traffic := by
  unfold passage
  cases Stage.chosen? world.registry request with
  | some handle => exact keeps.handle handle.middleware request (.forRequest request) world
  | none => exact keeps.terminal request (.forRequest request) world

/-- A request is counted under its outcome and no other. -/
theorem get_dispatches_handle (request : Request) (world : World ε μ) (other : Outcome) :
    (pipeline.handle request world).2.registry.ledger.dispatches.get (byOutcome other) =
      world.registry.ledger.dispatches.get (byOutcome other) +
        if other = pipeline.outcome request world then 1 else 0 := by
  have before := congrArg Prod.fst (keeps.traffic_passage request world)
  rw [handle_eq, ← show _ = world.registry.ledger.dispatches from before]
  exact Counter.get_increment _ byOutcome_inj

/-- A request is timed once. -/
theorem count_duration_handle (request : Request) (world : World ε μ) :
    (pipeline.handle request world).2.registry.ledger.dispatchDuration.count .empty =
      world.registry.ledger.dispatchDuration.count .empty + 1 := by
  have before := congrArg Prod.snd (keeps.traffic_passage request world)
  rw [handle_eq, ← show _ = world.registry.ledger.dispatchDuration from before]
  exact Timer.count_observe _ _ _

end KeepsTraffic

end Pipeline

/-! ### Requests among calls -/

/-- What is done with a pipeline and its registry: a request is handled, or a call is made. -/
inductive Operation (μ : Type)
  | handle (request : Request)
  | call (call : Call μ)

/-- Whether a request is handled. -/
def Operation.isRequest : Operation μ → Bool
  | .handle _ => true
  | .call _ => false

namespace Pipeline

/-- The world after an operation. -/
def operate (pipeline : Pipeline ε μ) (world : World ε μ) : Operation μ → World ε μ
  | .handle request => (pipeline.handle request world).2
  | .call call => (world.perform pipeline.behaviour.release call).2

/-- The world after operations one after another. -/
def operateAll (pipeline : Pipeline ε μ) (world : World ε μ) (operations : List (Operation μ)) :
    World ε μ :=
  operations.foldl pipeline.operate world

/-- The outcomes of the requests among the operations. -/
def outcomes (pipeline : Pipeline ε μ) : World ε μ → List (Operation μ) → List Outcome
  | _, [] => []
  | world, .handle request :: rest =>
    pipeline.outcome request world ::
      pipeline.outcomes (pipeline.operate world (.handle request)) rest
  | world, .call call :: rest => pipeline.outcomes (pipeline.operate world (.call call)) rest

/-- Every request has one outcome. -/
theorem length_outcomes (pipeline : Pipeline ε μ) (world : World ε μ)
    (operations : List (Operation μ)) :
    (pipeline.outcomes world operations).length = operations.countP Operation.isRequest := by
  induction operations generalizing world with
  | nil => rfl
  | cons operation rest ih =>
    cases operation with
    | handle request =>
      rw [outcomes, List.length_cons, ih, List.countP_cons_of_pos rfl]
    | call call =>
      rw [outcomes, ih, List.countP_cons_of_neg (by simp [Operation.isRequest])]

/-- Every outcome is one of three. -/
theorem count_outcomes (outcomes : List Outcome) :
    outcomes.count .handled + outcomes.count .passthrough + outcomes.count .error =
      outcomes.length := by
  induction outcomes with
  | nil => rfl
  | cons outcome rest ih =>
    rw [List.length_cons, ← ih]
    cases outcome <;> simp <;> omega

section Operations

variable {pipeline : Pipeline ε μ} (keeps : pipeline.KeepsTraffic)

include keeps

/-- The counters go up with the outcomes. They may wrap around. -/
theorem KeepsTraffic.get_dispatches_operateAll (world : World ε μ) (operations : List (Operation μ))
    (other : Outcome) :
    (pipeline.operateAll world operations).registry.ledger.dispatches.get (byOutcome other) =
      world.registry.ledger.dispatches.get (byOutcome other) +
        UInt64.ofNat ((pipeline.outcomes world operations).count other) := by
  induction operations generalizing world with
  | nil => exact (UInt64.add_zero _).symm
  | cons operation rest ih =>
    refine (ih (pipeline.operate world operation)).trans ?_
    cases operation with
    | handle request =>
      have first := keeps.get_dispatches_handle request world other
      show (pipeline.handle request world).2.registry.ledger.dispatches.get _ + _ = _
      rw [first, outcomes, List.count_cons, UInt64.ofNat_add, UInt64.add_assoc]
      by_cases same : pipeline.outcome request world = other
      · simp [same, UInt64.add_comm]
      · simp [same, Ne.symm same]
    | call call =>
      have same := congrArg Prod.fst (keeps.release.perform world call)
      exact congrArg (·.get (byOutcome other) + _) same

/-- As many requests are timed as there are outcomes. -/
theorem KeepsTraffic.count_duration_operateAll (world : World ε μ)
    (operations : List (Operation μ)) :
    (pipeline.operateAll world operations).registry.ledger.dispatchDuration.count .empty =
      world.registry.ledger.dispatchDuration.count .empty +
        UInt64.ofNat (operations.countP Operation.isRequest) := by
  induction operations generalizing world with
  | nil => exact (UInt64.add_zero _).symm
  | cons operation rest ih =>
    refine (ih (pipeline.operate world operation)).trans ?_
    cases operation with
    | handle request =>
      have first := keeps.count_duration_handle request world
      show (pipeline.handle request world).2.registry.ledger.dispatchDuration.count _ + _ = _
      rw [first, List.countP_cons_of_pos rfl, UInt64.ofNat_add, UInt64.add_assoc, UInt64.add_comm 1]
      rfl
    | call call =>
      have same := congrArg Prod.snd (keeps.release.perform world call)
      rw [List.countP_cons_of_neg (by simp [Operation.isRequest])]
      exact congrArg (Timer.count · .empty + _) same

variable {world : World ε μ} (fresh : world.registry.ledger.traffic = (.empty, .empty))
  {operations : List (Operation μ)} (few : operations.countP Operation.isRequest < 2 ^ 64)

include fresh few

/-- With fresh counters and less than `2 ^ 64` requests, the counters tell the outcomes. -/
theorem KeepsTraffic.dispatched_operateAll (other : Outcome) :
    (pipeline.operateAll world operations).dispatched other =
      (pipeline.outcomes world operations).count other := by
  have zero : world.registry.ledger.dispatches = .empty := congrArg Prod.fst fresh
  have counted : (pipeline.outcomes world operations).count other < 2 ^ 64 := by
    have at_most : (pipeline.outcomes world operations).count other ≤
        (pipeline.outcomes world operations).length := List.count_le_length
    rw [length_outcomes] at at_most
    omega
  unfold World.dispatched
  rw [keeps.get_dispatches_operateAll, zero, Counter.get_empty, UInt64.zero_add]
  exact UInt64.toNat_ofNat_of_lt counted

/-- Every request is timed once. -/
theorem KeepsTraffic.timed_operateAll :
    (pipeline.operateAll world operations).timed = operations.countP Operation.isRequest := by
  have zero : world.registry.ledger.dispatchDuration.count .empty = 0 := by
    rw [show world.registry.ledger.dispatchDuration = .empty from congrArg Prod.snd fresh]
    simp [Timer.count, Timer.empty]
  unfold World.timed
  rw [keeps.count_duration_operateAll, zero, UInt64.zero_add]
  exact UInt64.toNat_ofNat_of_lt few

end Operations

/-- Operations can be done in two parts. -/
theorem operateAll_append (pipeline : Pipeline ε μ) (world : World ε μ)
    (first rest : List (Operation μ)) :
    pipeline.operateAll world (first ++ rest) =
      pipeline.operateAll (pipeline.operateAll world first) rest :=
  List.foldl_append

/-- The outcomes of two parts are those of both, one after the other. -/
theorem outcomes_append (pipeline : Pipeline ε μ) (world : World ε μ)
    (first rest : List (Operation μ)) :
    pipeline.outcomes world (first ++ rest) =
      pipeline.outcomes world first ++
        pipeline.outcomes (pipeline.operateAll world first) rest := by
  induction first generalizing world with
  | nil => rfl
  | cons operation later ih =>
    cases operation with
    | handle request =>
      exact congrArg (pipeline.outcome request world :: ·)
        (ih (pipeline.operate world (.handle request)))
    | call call => exact ih (pipeline.operate world (.call call))

/-- What a request adds to the counters, after whatever has been done before. -/
theorem KeepsTraffic.dispatched_handle_operateAll {pipeline : Pipeline ε μ}
    (keeps : pipeline.KeepsTraffic) {world : World ε μ}
    (fresh : world.registry.ledger.traffic = (.empty, .empty)) {before : List (Operation μ)}
    {request : Request}
    (few : (before ++ [Operation.handle request]).countP Operation.isRequest < 2 ^ 64)
    (other : Outcome) :
    let found := pipeline.operateAll world before
    (pipeline.handle request found).2.dispatched other =
      found.dispatched other + if other = pipeline.outcome request found then 1 else 0 := by
  intro found
  -- Both counters are counts of outcomes, so they are compared as lists of outcomes.
  have few_before : before.countP Operation.isRequest < 2 ^ 64 := by
    rw [List.countP_append] at few
    omega
  have until_request := keeps.dispatched_operateAll fresh few other
  rw [operateAll_append, outcomes_append, List.count_append,
    ← keeps.dispatched_operateAll fresh few_before] at until_request
  refine until_request.trans (congrArg (found.dispatched other + ·) ?_)
  show List.count other [pipeline.outcome request found] = _
  rw [List.count_singleton]
  by_cases same : pipeline.outcome request found = other
  · simp [same]
  · simp [same, Ne.symm same]

/-- Fewer than `2 ^ 64` requests among any calls, on a pipeline that has not counted any yet. The
three outcomes sum up to the number of requests, and as many were timed.

Every single request is counted under one outcome. It is counted as an error exactly if the stage
that it was handed to has failed, and else by whether that was a handler. If the stage has failed
then the response has no result, and its error is the failure's code and message without data,
whatever was put into it before. Else it is what the stage has left. -/
theorem accounts_for_requests {pipeline : Pipeline ε μ} (keeps : pipeline.KeepsTraffic)
    {world : World ε μ} (fresh : world.registry.ledger.traffic = (.empty, .empty))
    (operations : List (Operation μ)) (few : operations.countP Operation.isRequest < 2 ^ 64) :
    let after := pipeline.operateAll world operations
    let requests := operations.countP Operation.isRequest
    after.dispatched .handled + after.dispatched .passthrough + after.dispatched .error = requests ∧
    after.timed = requests ∧
    ∀ before request rest, operations = before ++ .handle request :: rest →
      let found := pipeline.operateAll world before
      let passage := pipeline.passage request found
      let answered := pipeline.handle request found
      (∃ outcome : Outcome,
        (∀ other, answered.2.dispatched other =
          found.dispatched other + if other = outcome then 1 else 0) ∧
        (outcome = .error ↔ ∃ failure, passage.result = .error failure) ∧
        (outcome = .handled ↔
          passage.result = .ok () ∧ (Stage.chosen? found.registry request).isSome = true)) ∧
      (∀ failure, passage.result = .error failure →
        answered.1 = { passage.response with
          result := none
          error := some ⟨failure.code.number, failure.message, none⟩ }) ∧
      (passage.result = .ok () → answered.1 = passage.response) := by
  intro after requests
  refine ⟨?_, keeps.timed_operateAll fresh few, fun before request rest cut => ?_⟩
  · rw [keeps.dispatched_operateAll fresh few, keeps.dispatched_operateAll fresh few,
      keeps.dispatched_operateAll fresh few, count_outcomes, length_outcomes]
  · -- One request more is still few, so the counter of its outcome goes up and does not wrap
    -- around.
    have few_until :
        (before ++ [Operation.handle request]).countP Operation.isRequest < 2 ^ 64 := by
      rw [cut, List.append_cons, List.countP_append] at few
      omega
    exact ⟨⟨pipeline.outcome request _, keeps.dispatched_handle_operateAll fresh few_until,
      outcome_eq_error_iff _ _ _, outcome_eq_handled_iff _ _ _⟩,
      fun _ => response_of_error, response_of_ok⟩

/-- A middleware that writes a result, runs the next stage twice, gives up its own place in the
registry and fails. -/
def forwardTwiceAndRetire (request : Request) (response : Response) (asked : Nat) :
    Conduct Nat Nat :=
  .forward request (response.setResult (.bool true)) (asked + 1) fun _ response asked =>
    .forward request response (asked + 1) fun _ response asked =>
      .call (.retire ⟨Scope.wallet⟩) asked fun _ asked =>
        .finish (.error (.internal "upstream unavailable")) response asked

/-- A pipeline of such middlewares. What lies outside is a clock. -/
def retiringPipeline : Pipeline Nat Nat where
  behaviour := ⟨fun _ next => Conduct.stage .quiet next forwardTwiceAndRetire, .quiet⟩
  clock := id

/-- The first request is failed by a handler that has written a result, and the second one finds
no handler any more. -/
theorem accounts_for_requests_of_retiring :
    let balance : Request := { method := "balance", scope := some ⟨Scope.wallet⟩ }
    let start : World Nat Nat := ⟨.empty .strict, 0⟩
    let operations : List (Operation Nat) :=
      [.call (.register ⟨Scope.wallet⟩ ⟨"guest"⟩ ⟨⟨Scope.wallet⟩, 0⟩), .handle balance,
        .handle balance]
    let after := retiringPipeline.operateAll start operations
    let found := retiringPipeline.operateAll start (operations.take 1)
    retiringPipeline.KeepsTraffic ∧ start.registry.ledger.traffic = (.empty, .empty) ∧
      operations.countP Operation.isRequest < 2 ^ 64 ∧
      after.dispatched .handled + after.dispatched .passthrough + after.dispatched .error = 2 ∧
      after.timed = 2 ∧
      (retiringPipeline.passage balance found).response.result = some (.bool true) ∧
      (retiringPipeline.handle balance found).1 =
        ⟨"2.0", .null, none, some ⟨-32603, "internal: upstream unavailable", none⟩⟩ := by
  intro balance start operations after found
  have keeps : retiringPipeline.KeepsTraffic :=
    keepsTraffic_of_conduct (fun _ _ _ => rfl) (fun _ _ => rfl) fun _ => rfl
  have fresh : start.registry.ledger.traffic = (.empty, .empty) := rfl
  have few : operations.countP Operation.isRequest < 2 ^ 64 := by decide
  obtain ⟨total, timed, each⟩ := accounts_for_requests keeps fresh operations few
  obtain ⟨-, fails, -⟩ := each (operations.take 1) balance [.handle balance] rfl
  refine ⟨keeps, fresh, few, total, timed, by decide +kernel, ?_⟩
  refine (fails (.internal "upstream unavailable") (by decide +kernel)).trans ?_
  decide +kernel

end Pipeline

end Switchboard
