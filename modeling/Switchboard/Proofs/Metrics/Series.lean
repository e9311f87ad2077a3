import Mathlib.Data.List.Forall2
import Mathlib.Data.List.Induction
import Mathlib.Data.UInt
import Switchboard.Metrics.Family

/-!
# `Switchboard.Proofs.Metrics.Series`: what a series is made of

`Family.ofSteps` is the family that a run of steps makes, each with labels in any order. A series is
made by the steps for its own labels and by no others (`Family.getD_ofSteps`), whatever was done to
the other series in between.

For counters and gauges this says that a number is the sum of what was added for its labels. The
numbers wrap around, each in its own way. `Wraps` collects what the two ways have in common, so that
`sumsByLabels_of_wraps` speaks of both, and `sums_by_labels` puts the two together.
-/

set_option autoImplicit false

namespace Switchboard.Metrics

/-! ### The steps for a label set -/

namespace Family

variable {α σ : Type} (labels : σ → List Label) (start : α) (change : σ → α → α)

/-- The family that steps make one after another. Each changes the series of its labels. -/
def ofSteps (steps : List σ) : Family α :=
  steps.foldl (fun family step => family.update (.ofList (labels step)) start (change step)) ∅

/-- The steps whose labels make a label set. -/
def stepsFor (set : LabelSet) (steps : List σ) : List σ :=
  steps.filter fun step => LabelSet.ofList (labels step) = set

/-- Without steps there is no series. -/
@[simp]
theorem ofSteps_nil : ofSteps labels start change [] = ∅ := rfl

/-- The last step changes what the steps before it have made. -/
theorem ofSteps_concat (steps : List σ) (step : σ) :
    ofSteps labels start change (steps ++ [step]) =
      (ofSteps labels start change steps).update (.ofList (labels step)) start (change step) := by
  rw [ofSteps, List.foldl_append]
  rfl

/-- The last step counts if it is for the labels. -/
theorem stepsFor_concat (set : LabelSet) (steps : List σ) (step : σ) :
    stepsFor labels set (steps ++ [step]) =
      stepsFor labels set steps ++ if LabelSet.ofList (labels step) = set then [step] else [] := by
  rw [stepsFor, List.filter_append, List.filter_singleton]
  simp [stepsFor]

/-- A series is what the steps for its labels make of it, and no other step has a part in it. -/
theorem getD_ofSteps (steps : List σ) (set : LabelSet) :
    (ofSteps labels start change steps)[set]?.getD start =
      (stepsFor labels set steps).foldl (fun value step => change step value) start := by
  -- From the last step on: it either is for the set and changes the series, or leaves it alone.
  induction steps using List.reverseRecOn with
  | nil => simp [stepsFor]
  | append_singleton steps step ih =>
    rw [ofSteps_concat, getElem?_update, stepsFor_concat, List.foldl_append]
    by_cases own : set = .ofList (labels step)
    · subst own
      simp [ih]
    · simp [own, Ne.symm own, ih]

/-- Whatever takes steps by changing the series of their labels has the family that the steps
make. -/
theorem series_foldl {φ : Type} {series : φ → Family α} {step : φ → σ → φ} {first : φ}
    (untouched : series first = ∅)
    (each : ∀ state next, series (step state next) =
      (series state).update (.ofList (labels next)) start (change next)) (steps : List σ) :
    series (steps.foldl step first) = ofSteps labels start change steps := by
  induction steps using List.reverseRecOn with
  | nil => exact untouched
  | append_singleton steps last ih =>
    rw [List.foldl_append, List.foldl_cons, List.foldl_nil, each, ih, ofSteps_concat]

/-- Steps for the same label sets that change them in the same way make the same family. -/
theorem ofSteps_congr {steps steps' : List σ}
    (same : List.Forall₂ (fun step step' => (labels step).Perm (labels step') ∧
      change step = change step') steps steps') :
    ofSteps labels start change steps = ofSteps labels start change steps' := by
  unfold ofSteps
  -- The two runs agree from any family on, not only from the empty one.
  generalize (∅ : Family α) = family
  induction same generalizing family with
  | nil => rfl
  | cons pair _ ih =>
    rw [List.foldl_cons, List.foldl_cons, LabelSet.ofList_eq_ofList_iff.mpr pair.1, pair.2]
    exact ih _

/-- The steps for the labels of a query are those whose labels are a permutation of it. -/
theorem stepsFor_ofList (query : List Label) (steps : List σ) :
    stepsFor labels (.ofList query) steps =
      steps.filter fun step => (labels step).Perm query := by
  simp only [stepsFor, LabelSet.ofList_eq_ofList_iff]

end Family

/-! ### Sums that wrap around -/

/-- Values that are read as integers and whose sums wrap around. -/
structure Wraps {V : Type} [Zero V] [Add V] (read : V → Int) (wrap : Int → Int) : Prop where
  zero : read 0 = wrap 0
  add : ∀ m n, read (m + n) = wrap (read m + read n)
  /-- It is enough to wrap around in the end. -/
  absorb : ∀ x y, wrap (wrap x + y) = wrap (x + y)

/-- Unsigned numbers wrap around at 2^64. -/
theorem wraps_unsigned : Wraps (fun n : UInt64 => (n.toNat : Int)) (· % 2 ^ 64) where
  zero := rfl
  add m n := by
    rw [UInt64.toNat_add, Int.natCast_emod, Int.natCast_add]
    rfl
  absorb x y := Int.emod_add_emod x (2 ^ 64) y

/-- Signed numbers wrap around to the balanced remainder. -/
theorem wraps_signed : Wraps Int64.toInt (Int.bmod · (2 ^ 64)) where
  zero := rfl
  add := Int64.toInt_add
  absorb _ _ := Int.bmod_add_bmod

/-- A sum of values that wrap around is read as the wrapped sum. -/
theorem Wraps.read_foldl_add {V σ : Type} [Zero V] [Add V] {read : V → Int} {wrap : Int → Int}
    (wraps : Wraps read wrap) (amount : σ → V) (steps : List σ) :
    read (steps.foldl (fun value step => value + amount step) 0) =
      wrap (steps.map fun step => read (amount step)).sum := by
  induction steps using List.reverseRecOn with
  | nil => exact wraps.zero
  | append_singleton steps step ih =>
    rw [List.foldl_append, List.foldl_cons, List.foldl_nil, wraps.add, ih, wraps.absorb,
      List.map_append, List.sum_append, List.map_singleton, List.sum_singleton]

/-- In the families that steps make, values are identified by the multiset of their labels. -/
structure SumsByLabels {σ φ V : Type} [Zero V] (labels : σ → List Label) (amount : σ → V)
    (run : List σ → φ) (get : φ → LabelSet → V) (read : V → Int) (wrap : Int → Int) : Prop where
  /-- A value is the sum of what was added for its labels, in whatever order these were given. -/
  sum : ∀ steps query,
    read (get (run steps) (.ofList query)) =
      wrap ((steps.filter fun step => (labels step).Perm query).map fun step =>
        read (amount step)).sum
  /-- What was never added to is at zero. -/
  zero : ∀ steps query, (∀ step ∈ steps, ¬(labels step).Perm query) →
    get (run steps) (.ofList query) = 0
  /-- It does not matter in which order steps give their labels. -/
  run_perm : ∀ steps steps',
    List.Forall₂ (fun step step' => (labels step).Perm (labels step') ∧ amount step = amount step')
      steps steps' → run steps = run steps'
  /-- It does not matter in which order labels are asked for. -/
  get_perm : ∀ family query query', query.Perm query' →
    get family (.ofList query) = get family (.ofList query')
  /-- Steps with other labels have no influence. -/
  others : ∀ steps query,
    get (run (steps.filter fun step => (labels step).Perm query)) (.ofList query) =
      get (run steps) (.ofList query)

/-- Families in which every step adds its amount to the series of its labels. -/
theorem sumsByLabels_of_wraps {σ φ V : Type} [Zero V] [Add V] {labels : σ → List Label}
    {amount : σ → V} {run : List σ → φ} {get : φ → LabelSet → V} {read : V → Int}
    {wrap : Int → Int} (wraps : Wraps read wrap) {family : φ → Family V}
    (injective : Function.Injective family)
    (ran : ∀ steps,
      family (run steps) = .ofSteps labels 0 (fun step value => value + amount step) steps)
    (got : ∀ series set, get series set = (family series)[set]?.getD 0) :
    SumsByLabels labels amount run get read wrap := by
  -- A value depends on the filtered steps only, which is all that the fields below need.
  have value (steps : List σ) (query : List Label) : get (run steps) (.ofList query) =
      (steps.filter fun step => (labels step).Perm query).foldl
        (fun value step => value + amount step) 0 := by
    rw [got, ran, Family.getD_ofSteps, Family.stepsFor_ofList]
  constructor
  case sum =>
    intro steps query
    rw [value, wraps.read_foldl_add]
  case zero =>
    intro steps query none
    have no_step : (steps.filter fun step => (labels step).Perm query) = [] := by
      rw [List.filter_eq_nil_iff]
      intro step listed
      simpa using none step listed
    rw [value, no_step, List.foldl_nil]
  case run_perm =>
    intro steps steps' same
    apply injective
    rw [ran, ran]
    apply Family.ofSteps_congr
    refine same.imp fun step step' pair => ⟨pair.1, ?_⟩
    rw [pair.2]
  case get_perm =>
    intro series query query' perm
    rw [LabelSet.ofList_eq_ofList_iff.mpr perm]
  case others =>
    intro steps query
    rw [value, value, List.filter_filter]
    simp

/-! ### Counters and gauges -/

/-- What is done to a family of counters, with labels in any order. -/
inductive Counter.Step
  | increment (labels : List Label)
  | add (labels : List Label) (n : UInt64)
deriving DecidableEq, Repr

namespace Counter

/-- The labels that a step is for. -/
def Step.labels : Step → List Label
  | increment labels | add labels _ => labels

/-- What a step adds. -/
def Step.amount : Step → UInt64
  | increment _ => 1
  | add _ n => n

/-- The counters after one step. -/
def step (counter : Counter) : Step → Counter
  | .increment labels => counter.increment (.ofList labels)
  | .add labels n => counter.add (.ofList labels) n

/-- The counters that steps make one after another. -/
def ofSteps (steps : List Step) : Counter := steps.foldl step empty

/-- Counters are the family that their steps make. -/
theorem series_ofSteps (steps : List Step) :
    (ofSteps steps).series =
      Family.ofSteps Step.labels 0 (fun step value => value + step.amount) steps := by
  apply Family.series_foldl
  · rfl
  · intro state next
    cases next <;> rfl

end Counter

/-- What is done to a family of gauges, with labels in any order. -/
inductive Gauge.Step
  | increment (labels : List Label)
  | decrement (labels : List Label)
  | add (labels : List Label) (n : Int64)
deriving DecidableEq, Repr

namespace Gauge

/-- The labels that a step is for. -/
def Step.labels : Step → List Label
  | increment labels | decrement labels | add labels _ => labels

/-- What a step adds. -/
def Step.amount : Step → Int64
  | increment _ => 1
  | decrement _ => -1
  | add _ n => n

/-- The gauges after one step. -/
def step (gauge : Gauge) : Step → Gauge
  | .increment labels => gauge.increment (.ofList labels)
  | .decrement labels => gauge.decrement (.ofList labels)
  | .add labels n => gauge.add (.ofList labels) n

/-- The gauges that steps make one after another. -/
def ofSteps (steps : List Step) : Gauge := steps.foldl step empty

/-- Gauges are the family that their steps make. -/
theorem series_ofSteps (steps : List Step) :
    (ofSteps steps).series =
      Family.ofSteps Step.labels 0 (fun step value => value + step.amount) steps := by
  apply Family.series_foldl
  · rfl
  · intro state next
    cases next <;> rfl

end Gauge

/-- Series are identified by the multiset of their labels. A counter is the sum of what was added
for its labels modulo `2 ^ 64`, and a gauge the sum as a number of sixty-four bits with a sign. -/
theorem sums_by_labels :
    SumsByLabels Counter.Step.labels Counter.Step.amount Counter.ofSteps Counter.get
      (fun n => (n.toNat : Int)) (· % 2 ^ 64) ∧
    SumsByLabels Gauge.Step.labels Gauge.Step.amount Gauge.ofSteps Gauge.get
      Int64.toInt (Int.bmod · (2 ^ 64)) := by
  constructor
  · exact sumsByLabels_of_wraps wraps_unsigned (fun _ _ => congrArg Counter.mk)
      Counter.series_ofSteps fun _ _ => rfl
  · exact sumsByLabels_of_wraps wraps_signed (fun _ _ => congrArg Gauge.mk)
      Gauge.series_ofSteps fun _ _ => rfl

/-- Counts of the same three labels in two orders, past the largest number, and of two of them. -/
def overrun : List Counter.Step := [
  .add [⟨"scope", "a"⟩, ⟨"scope", "b"⟩, ⟨"scope", "a"⟩] 18446744073709551615,
  .add [⟨"scope", "a"⟩, ⟨"scope", "b"⟩] 7,
  .increment [⟨"scope", "b"⟩, ⟨"scope", "a"⟩, ⟨"scope", "a"⟩],
  .add [⟨"scope", "a"⟩, ⟨"scope", "a"⟩, ⟨"scope", "b"⟩] 2]

/-- Moves below the smallest number, with labels in two orders. -/
def underrun : List Gauge.Step := [
  .add [⟨"scope", "a"⟩, ⟨"reason", "b"⟩] (-9223372036854775808),
  .increment [⟨"scope", "a"⟩],
  .decrement [⟨"reason", "b"⟩, ⟨"scope", "a"⟩]]

/-- Sums past the largest number and below the smallest one, for labels in several orders. -/
theorem sums_by_labels_overrun :
    (((Counter.ofSteps overrun).get (.ofList
        [⟨"scope", "b"⟩, ⟨"scope", "a"⟩, ⟨"scope", "a"⟩])).toNat : Int) = 2 ∧
      ((∀ step ∈ overrun, ¬step.labels.Perm []) ∧
        (Counter.ofSteps overrun).get (.ofList []) = 0) ∧
      ((Gauge.ofSteps underrun).get (.ofList [⟨"scope", "a"⟩, ⟨"reason", "b"⟩])).toInt =
        2 ^ 63 - 1 := by
  have untouched : ∀ step ∈ overrun, ¬step.labels.Perm [] := by decide
  obtain ⟨counters, gauges⟩ := sums_by_labels
  refine ⟨(counters.sum overrun _).trans (by decide +kernel),
    ⟨untouched, counters.zero overrun [] untouched⟩,
    (gauges.sum underrun _).trans (by decide +kernel)⟩

end Switchboard.Metrics
