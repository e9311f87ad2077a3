import Switchboard.Proofs.Registry.Sound
import Switchboard.Stage

/-!
# `Switchboard.Proofs.Registry.Chronicle`: runs that are written down

A run is a list of deeds: calls of the registry and requests that are dispatched. Middlewares take
part in it. When one is given a request, and when it is released, it does deeds of its own, which
may release further middlewares, down to any depth. Handles that leave together are released in any
order, and it may be another one every time.

What happens is entered into a chronicle, which is the outside of the world. A call is entered
before it is made, with the registry that it finds, so calls stand in the order in which they
begin, also those that are made while handles of an earlier one are still to be released.

`Stepwise.holds` is the induction over such runs. A property of the handles that are still due and
of the world holds after a run if it is kept by each single event: a call up to its first release,
one release, one request reaching a middleware, and the outcome of a dispatch.
-/

set_option autoImplicit false

namespace Switchboard.Chronicle

open Rpc

/-- One event of a run. -/
inductive Entry (μ : Type)
  /-- A call begins, and finds a registry. -/
  | called (found : Registry μ) (call : Call μ)
  /-- A request reaches a middleware. -/
  | handled (middleware : μ)
  /-- A middleware is released. -/
  | released (middleware : μ)
  /-- A factory is asked for the handle of a scope. -/
  | asked (scope : Scope)
deriving DecidableEq

/-- What can be done in a run. -/
inductive Deed (μ : Type)
  | call (call : Call μ)
  | dispatch (request : Request)

/-- What middlewares do when their turn comes. It may depend on all that happened before, so that a
middleware can do something else every time, and pass new handles. -/
structure Script (μ : Type) where
  onHandle : μ → List (Entry μ) → List (Deed μ)
  onRelease : μ → List (Entry μ) → List (Deed μ)
  /-- Who comes first of those that leave together. -/
  order : ReleaseOrder (List (Entry μ)) μ := .ascending

/-- The script by which nobody does anything. -/
def Script.silent {μ : Type} : Script μ := { onHandle := fun _ _ => [], onRelease := fun _ _ => [] }

/-- A world whose outside is the chronicle, first events first. -/
abbrev Story (μ : Type) := World (List (Entry μ)) μ

variable {μ : Type}

/-- The story with another event in its chronicle. -/
def write (entry : Entry μ) (story : Story μ) : Story μ := story.mapOutside (· ++ [entry])

/-- One deed, among middlewares of some behaviour. -/
def act (behaviour : Behaviour (List (Entry μ)) μ) (story : Story μ) : Deed μ → Story μ
  | .call call => ((write (.called story.registry call) story).perform behaviour.release call).2
  | .dispatch request =>
    (Stage.dispatch behaviour Stage.methodNotFound request (.forRequest request) story).world

/-- Deeds one after another. -/
def run (behaviour : Behaviour (List (Entry μ)) μ) (story : Story μ) (deeds : List (Deed μ)) :
    Story μ :=
  deeds.foldl (act behaviour) story

/-- The behaviour of middlewares that follow a script. Turns within turns are taken down to
`depth`; below it middlewares only have themselves entered into the chronicle. -/
def Script.behaviour (script : Script μ) : (depth : Nat) → Behaviour (List (Entry μ)) μ
  | 0 =>
    { handle := fun middleware next request response story =>
        next request response (write (.handled middleware) story)
      release := {
        effect := fun middleware story => write (.released middleware) story
        order := script.order } }
  | depth + 1 =>
    let inner := run (script.behaviour depth)
    { handle := fun middleware next request response story =>
        next request response
          (inner (write (.handled middleware) story) (script.onHandle middleware story.outside))
      release := {
        effect := fun middleware story =>
          inner (write (.released middleware) story) (script.onRelease middleware story.outside)
        order := script.order } }

/-- The story of a run on a new registry. -/
def tell (script : Script μ) (depth : Nat) (policy : ReleasePolicy) (deeds : List (Deed μ)) :
    Story μ :=
  run (script.behaviour depth) ⟨.empty policy, []⟩ deeds

/-- An entry of a chronicle that has got one more is the new one or was there before. -/
theorem eq_or_of_concat_eq_append {entries before after : List (Entry μ)} {last entry : Entry μ}
    (same : entries ++ [last] = before ++ entry :: after) :
    (after = [] ∧ last = entry ∧ entries = before) ∨
      ∃ rest, after = rest ++ [last] ∧ entries = before ++ entry :: rest := by
  rcases List.eq_nil_or_concat' after with rfl | ⟨rest, final, rfl⟩
  · obtain ⟨front, back⟩ := List.append_inj' same rfl
    exact Or.inl ⟨rfl, List.singleton_inj.mp back, front⟩
  · rw [← List.cons_append, ← List.append_assoc] at same
    obtain ⟨front, back⟩ := List.append_inj' same rfl
    rw [List.singleton_inj.mp back]
    exact Or.inr ⟨rest, rfl, front⟩

/-! ### Induction over runs -/

/-- The story after a call, before the first of the handles that it retires is released. -/
def afterCall (story : Story μ) (call : Call μ) : Story μ :=
  ⟨(story.registry.step call).registry, story.outside ++ [.called story.registry call]⟩

/-- The story after a release, before the middleware does anything. -/
def afterRelease (story : Story μ) (retirement : Retirement μ) : Story μ :=
  ⟨story.registry.note (·.noteRetirement retirement.handle.scope retirement.reason),
    story.outside ++ [.released retirement.handle.middleware]⟩

/-- What single events have to keep. The list holds the handles that are still to be released. -/
structure Stepwise (P : List (Retirement μ) → Story μ → Prop) : Prop where
  /-- It does not matter who of them comes first. -/
  reorder : ∀ {due due' story}, due.Perm due' → P due story → P due' story
  call : ∀ {due story} (call : Call μ), P due story →
    P ((story.registry.step call).retired ++ due) (afterCall story call)
  release : ∀ {due story} (retirement : Retirement μ), P (retirement :: due) story →
    P due (afterRelease story retirement)
  handle : ∀ {due story} (scope : Scope) (handle : Handle μ),
    story.registry.handler? scope = some handle → P due story →
    P due (write (.handled handle.middleware) story)
  note : ∀ {due story} (outcome : Metrics.Outcome), P due story →
    P due (story.mapRegistry fun registry => registry.note (·.noteDispatch outcome))

/-- A behaviour keeps a property if a release and a dispatch under it do. -/
structure Keeps (P : List (Retirement μ) → Story μ → Prop)
    (behaviour : Behaviour (List (Entry μ)) μ) : Prop where
  reorder : ∀ {due due' story}, due.Perm due' → P due story → P due' story
  finish : ∀ {due story} (retirement : Retirement μ), P (retirement :: due) story →
    P due (story.finish behaviour.release retirement)
  dispatch : ∀ {due story} (request : Request), P due story →
    P due (act behaviour story (.dispatch request))

variable {P : List (Retirement μ) → Story μ → Prop}
  {behaviour : Behaviour (List (Entry μ)) μ}

/-- Handles that are due are released one after another. -/
theorem Keeps.finishAll (keeps : Keeps P behaviour) {due : List (Retirement μ)}
    (retired : List (Retirement μ)) {story : Story μ} (h : P (retired ++ due) story) :
    P due (story.finishAll behaviour.release retired) := by
  induction retired generalizing story with
  | nil => exact h
  | cons retirement rest ih => exact ih (keeps.finish retirement h)

/-- Handles that leave together are released, in whatever order. -/
theorem Keeps.settle (keeps : Keeps P behaviour) {due : List (Retirement μ)}
    (retired : List (Retirement μ)) {story : Story μ} (h : P (retired ++ due) story) :
    P due (story.settle behaviour.release retired) := by
  have arranged := (behaviour.release.order.perm story retired).symm.append_right due
  exact keeps.finishAll _ (keeps.reorder arranged h)

/-- One deed keeps what single events keep. -/
theorem Stepwise.keeps_act (stepwise : Stepwise P) (keeps : Keeps P behaviour)
    {due : List (Retirement μ)} {story : Story μ} (h : P due story) (deed : Deed μ) :
    P due (act behaviour story deed) := by
  cases deed with
  | call call => exact keeps.settle _ (stepwise.call call h)
  | dispatch request => exact keeps.dispatch request h

/-- Deeds one after another keep what single events keep. -/
theorem Stepwise.keeps_run (stepwise : Stepwise P) (keeps : Keeps P behaviour)
    {due : List (Retirement μ)} {story : Story μ} (h : P due story) (deeds : List (Deed μ)) :
    P due (run behaviour story deeds) := by
  induction deeds generalizing story with
  | nil => exact h
  | cons deed rest ih => exact ih (stepwise.keeps_act keeps h deed)

/-- A dispatch keeps a property if the turn of the chosen middleware does. -/
theorem Stepwise.keeps_dispatch (stepwise : Stepwise P)
    (handle : ∀ {due story} (scope : Scope) (handle : Handle μ),
      story.registry.handler? scope = some handle → P due story →
      ∀ (request : Request) (response : Response),
        P due (behaviour.handle handle.middleware Stage.methodNotFound request response
          story).world)
    {due : List (Retirement μ)} {story : Story μ} (request : Request) (h : P due story) :
    P due (act behaviour story (.dispatch request)) := by
  unfold Chronicle.act Stage.dispatch
  -- The outcome is noted last, and behind the chosen middleware there is only the last stage.
  apply stepwise.note
  cases chosen : Stage.chosen? story.registry request with
  | none => exact h
  | some occupant =>
    obtain ⟨scope, -, found⟩ := Option.bind_eq_some_iff.mp chosen
    exact handle scope occupant found h request _

/-- What single events keep is kept by scripted middlewares, however deep their turns go. -/
theorem Stepwise.keeps (stepwise : Stepwise P) (script : Script μ) (depth : Nat) :
    Keeps P (script.behaviour depth) := by
  -- The induction is on the depth. What a middleware does in its turn is a run one level below.
  induction depth with
  | zero =>
    exact {
      reorder := stepwise.reorder
      finish := fun retirement h => stepwise.release retirement h
      dispatch := stepwise.keeps_dispatch fun scope handle found h _ _ =>
        stepwise.handle scope handle found h }
  | succ depth ih =>
    exact {
      reorder := stepwise.reorder
      finish := fun retirement h =>
        stepwise.keeps_run ih (stepwise.release retirement h) _
      dispatch := stepwise.keeps_dispatch fun scope handle found h _ _ =>
        stepwise.keeps_run ih (stepwise.handle scope handle found h) _ }

/-- What holds at the start and is kept by single events holds after every run. -/
theorem Stepwise.holds (stepwise : Stepwise P) (script : Script μ) (depth : Nat)
    (policy : ReleasePolicy) (start : P [] ⟨.empty policy, []⟩) (deeds : List (Deed μ)) :
    P [] (tell script depth policy deeds) :=
  stepwise.keeps_run (stepwise.keeps script depth) start deeds

end Switchboard.Chronicle
