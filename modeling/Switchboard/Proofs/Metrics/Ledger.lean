import Mathlib.Logic.Function.Conjugate
import Switchboard.Metrics.Ledger

/-!
# `Switchboard.Proofs.Metrics.Ledger`: entries that can change places

Counters and gauges are sums, so it does not matter in which order additions are made, nor whether
they touch the same series (`Counter.increment_comm`, `Gauge.add_comm`). Hence a retirement can be
entered into the ledger sooner or later among the other entries that a registry makes
(`Ledger.Movable`), and so can all of these.

Series are told apart by their labels: those of different scopes, outcomes or reasons differ
(`byScope_inj`, `byRegistration_inj`, `byRetirement_inj`, `byOutcome_inj`).
-/

set_option autoImplicit false

namespace Switchboard

/-- Scopes are told apart by their texts. -/
theorem Scope.text_inj {scope other : Scope} : scope.text = other.text ↔ scope = other := by
  cases scope
  cases other
  simp

namespace Metrics

/-- Two changes that commute on a series commute on a family. -/
theorem Family.update_comm {α : Type} (family : Family α) (first second : LabelSet) (start : α)
    {f g : α → α} (commute : Function.Commute f g) :
    (family.update first start f).update second start g =
      (family.update second start g).update first start f := by
  apply Std.ExtTreeMap.ext_getElem?
  intro query
  simp only [Family.getElem?_update]
  by_cases same : second = first
  · subst same
    by_cases touched : query = second
    · simp [touched, (commute _).symm]
    · simp [touched]
  · by_cases touched : query = second
    · simp [touched, same]
    · simp [touched, Ne.symm same]

/-- Counts can be made in either order. -/
theorem Counter.increment_comm (counter : Counter) (first second : LabelSet) :
    (counter.increment first).increment second = (counter.increment second).increment first :=
  congrArg Counter.mk (Family.update_comm _ _ _ _ fun _ => rfl)

/-- A series counts an event if its labels are those of the event. -/
theorem Counter.get_increment (counter : Counter) {labels query : LabelSet} {event : Prop}
    [Decidable event] (counted : query = labels ↔ event) :
    (counter.increment labels).get query = counter.get query + if event then 1 else 0 := by
  rw [increment, get_add]
  by_cases same : query = labels
  · rw [if_pos same, if_pos (counted.mp same)]
  · rw [if_neg same, if_neg fun happened => same (counted.mpr happened)]

/-- An observation is counted once. -/
theorem Timer.count_observe (timer : Timer) (labels : LabelSet) (duration : Duration) :
    (timer.observe labels duration).count labels = timer.count labels + 1 := by
  simp only [count, observe, Family.getElem?_update, if_true, Option.map_some, Option.getD_some,
    Histogram.observe]
  cases timer.series[labels]? <;> rfl

/-- Moves can be made in either order. -/
theorem Gauge.add_comm (gauge : Gauge) (first second : LabelSet) (m n : Int64) :
    (gauge.add first m).add second n = (gauge.add second n).add first m := by
  have commute : Function.Commute (· + m) (· + n) := fun value => by
    show value + n + m = value + m + n
    rw [Int64.add_assoc, Int64.add_comm n, ← Int64.add_assoc]
  exact congrArg Gauge.mk (Family.update_comm _ _ _ _ commute)

/-! ### Series that are apart -/

/-- Labels tell scopes apart. -/
theorem byScope_inj {scope other : Scope} : byScope scope = byScope other ↔ scope = other := by
  unfold byScope
  rw [LabelSet.ofList_eq_ofList_iff, List.singleton_perm_singleton]
  simp [Scope.text_inj]

/-- Labels of two names are the same whichever comes first. -/
theorem ofList_pair_inj {name kind value value' sort sort' : String} (apart : name ≠ kind) :
    LabelSet.ofList [⟨name, value⟩, ⟨kind, sort⟩] = .ofList [⟨name, value'⟩, ⟨kind, sort'⟩] ↔
      value = value' ∧ sort = sort' := by
  rw [LabelSet.ofList_eq_ofList_iff]
  constructor
  · intro perm
    have first := perm.mem_iff (a := ⟨name, value⟩)
    have second := perm.mem_iff (a := ⟨kind, sort⟩)
    exact ⟨by simpa [apart] using first, by simpa [apart.symm] using second⟩
  · rintro ⟨rfl, rfl⟩
    exact .refl _

/-- Labels tell registrations apart by scope and by whether a handler was installed. -/
theorem byRegistration_inj {scope other : Scope} {installed installed' : Bool} :
    byRegistration scope installed = byRegistration other installed' ↔
      scope = other ∧ installed = installed' := by
  unfold byRegistration
  rw [ofList_pair_inj (by decide), Scope.text_inj]
  cases installed <;> cases installed' <;> simp

/-- Labels tell retirements apart by scope and reason. -/
theorem byRetirement_inj {scope other : Scope} {reason reason' : Reason} :
    byRetirement scope reason = byRetirement other reason' ↔ scope = other ∧ reason = reason' := by
  unfold byRetirement
  rw [ofList_pair_inj (by decide), Scope.text_inj]
  cases reason <;> cases reason' <;> simp [Reason.text]

/-- Labels tell outcomes apart. -/
theorem byOutcome_inj {outcome other : Outcome} :
    byOutcome outcome = byOutcome other ↔ outcome = other := by
  unfold byOutcome
  rw [LabelSet.ofList_eq_ofList_iff, List.singleton_perm_singleton]
  cases outcome <;> cases other <;> simp [Outcome.text]

namespace Ledger

/-- An entry that can change places with every entry that a registry makes. -/
structure Movable (entry : Ledger → Ledger) : Prop where
  registration : ∀ scope installed, Function.Commute entry (·.noteRegistration scope installed)
  release : ∀ scope, Function.Commute entry (·.noteRelease scope)
  retirement : ∀ scope reason, Function.Commute entry (·.noteRetirement scope reason)
  violation : ∀ scope, Function.Commute entry (·.noteViolation scope)

/-- A retirement can be noted at any time. -/
theorem movable_noteRetirement (scope : Scope) (reason : Reason) :
    Movable (·.noteRetirement scope reason) where
  registration other installed ledger := by
    -- Both may move the gauge of the same scope, one up and one down.
    cases installed with
    | false => rfl
    | true =>
      simp only [noteRetirement, noteRegistration, Gauge.increment, Gauge.decrement, if_true]
      rw [Gauge.add_comm]
  release _ _ := rfl
  retirement other cause ledger := by
    simp only [noteRetirement, Gauge.decrement]
    rw [Counter.increment_comm, Gauge.add_comm]
  violation _ _ := rfl

/-- A registration can be noted at any time. -/
theorem movable_noteRegistration (scope : Scope) (installed : Bool) :
    Movable (·.noteRegistration scope installed) where
  registration other installed' ledger := by
    simp only [noteRegistration, Gauge.increment]
    rw [Counter.increment_comm]
    -- The gauge moves if both were installed, and then it does not matter which was first.
    cases installed <;> cases installed' <;> simp [Gauge.add_comm _ (byScope scope)]
  release _ _ := rfl
  retirement other reason :=
    ((movable_noteRetirement other reason).registration scope installed).symm
  violation _ _ := rfl

/-- A release can be noted at any time. -/
theorem movable_noteRelease (scope : Scope) : Movable (·.noteRelease scope) where
  registration _ _ _ := rfl
  release other ledger := by
    simp only [noteRelease]
    rw [Counter.increment_comm]
  retirement _ _ _ := rfl
  violation _ _ := rfl

/-- A violation can be noted at any time. -/
theorem movable_noteViolation (scope : Scope) : Movable (·.noteViolation scope) where
  registration _ _ _ := rfl
  release _ _ := rfl
  retirement _ _ _ := rfl
  violation other ledger := by
    simp only [noteViolation]
    rw [Counter.increment_comm]

/-- Dispatches have a counter of their own. -/
theorem movable_noteDispatch (outcome : Outcome) : Movable (·.noteDispatch outcome) where
  registration _ _ _ := rfl
  release _ _ := rfl
  retirement _ _ _ := rfl
  violation _ _ := rfl

end Ledger

end Metrics

end Switchboard
