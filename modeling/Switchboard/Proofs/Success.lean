/-!
# `Switchboard.Proofs.Success`: what succeeds in `Except`

Where a composed step succeeds, each of its parts does. Where it fails, it fails as one of its parts
does (`FailsWith.bind`).
-/

set_option autoImplicit false

namespace Switchboard

variable {ε ε' α β : Type}

/-- What succeeds does so in each of its steps. -/
theorem bind_eq_ok {first : Except ε α} {next : α → Except ε β} {result : β}
    (succeeds : first >>= next = .ok result) :
    ∃ value, first = .ok value ∧ next value = .ok result := by
  cases first with
  | error failure => exact absurd succeeds (by simp [bind, Except.bind])
  | ok value => exact ⟨value, rfl, succeeds⟩

/-- What was made of an outcome was made of its value. -/
theorem map_eq_ok {f : α → β} {outcome : Except ε α} {result : β}
    (succeeds : f <$> outcome = .ok result) : ∃ value, outcome = .ok value ∧ f value = result := by
  cases outcome with
  | error failure => cases succeeds
  | ok value => exact ⟨value, rfl, Except.ok.inj succeeds⟩

/-- Success does not depend on how failures are worded. -/
theorem mapError_eq_ok {f : ε → ε'} {outcome : Except ε α} {result : α}
    (succeeds : outcome.mapError f = .ok result) : outcome = .ok result := by
  cases outcome with
  | error failure => cases succeeds
  | ok value => exact congrArg Except.ok (Except.ok.inj succeeds)

/-- To succeed is to have a value. -/
theorem isOk_iff {outcome : Except ε α} : outcome.isOk ↔ ∃ value, outcome = .ok value := by
  cases outcome with
  | error failure => simp [Except.isOk, Except.toBool]
  | ok value => simp [Except.isOk, Except.toBool]

/-- If a list was gone through, each of its items succeeded. -/
theorem exists_of_mapM {f : α → Except ε β} {items : List α} {results : List β}
    (succeeds : items.mapM f = .ok results) {item : α} (listed : item ∈ items) :
    ∃ result, f item = .ok result := by
  induction items generalizing results with
  | nil => cases listed
  | cons first rest ih =>
    rw [List.mapM_cons] at succeeds
    obtain ⟨result, head, succeeds⟩ := bind_eq_ok succeeds
    obtain ⟨others, tail, -⟩ := bind_eq_ok succeeds
    rcases List.mem_cons.mp listed with rfl | listed
    · exact ⟨result, head⟩
    · exact ih tail listed

/-- A check of all items succeeds if it does for each of them. -/
theorem forM_eq_ok_iff (check : α → Except ε Unit) (items : List α) :
    items.forM check = .ok () ↔ ∀ item ∈ items, check item = .ok () := by
  induction items with
  | nil => simp [pure, Except.pure]
  | cons first rest ih =>
    rw [List.forall_mem_cons, ← ih]
    show (check first >>= fun _ => rest.forM check) = .ok () ↔ _
    cases check first <;> simp [bind, Except.bind]

/-! ### What fails -/

/-- What fails does so in its first step, or else in the second one. -/
theorem bind_eq_error {first : Except ε α} {next : α → Except ε β} {failure : ε}
    (fails : first >>= next = .error failure) :
    first = .error failure ∨ ∃ value, first = .ok value ∧ next value = .error failure := by
  cases first with
  | error other => exact .inl (congrArg Except.error (Except.error.inj fails))
  | ok value => exact .inr ⟨value, rfl, fails⟩

/-- A failure stays the failure it was. -/
theorem map_eq_error {f : α → β} {outcome : Except ε α} {failure : ε}
    (fails : f <$> outcome = .error failure) : outcome = .error failure := by
  cases outcome with
  | error other => exact congrArg Except.error (Except.error.inj fails)
  | ok value => cases fails

/-- If it fails then only in a certain way. -/
def FailsWith (P : ε → Prop) (outcome : Except ε α) : Prop :=
  ∀ failure, outcome = .error failure → P failure

namespace FailsWith

variable {P : ε → Prop}

/-- A success fails with nothing. -/
theorem ok (value : α) : FailsWith P (.ok value) := fun _ same => absurd same (by simp)

/-- A failure is as it is allowed to be. -/
theorem error {failure : ε} (allowed : P failure) : FailsWith P (.error failure : Except ε α) :=
  fun _ same => Except.error.inj same ▸ allowed

/-- Of two steps, the first may fail or the second. -/
theorem bind {first : Except ε α} {next : α → Except ε β} (head : FailsWith P first)
    (tail : ∀ value, FailsWith P (next value)) : FailsWith P (first >>= next) := by
  cases first with
  | error failure =>
    intro failure' same
    exact head failure' (congrArg Except.error (Except.error.inj same))
  | ok value => exact tail value

/-- What is made of a value adds no failure. -/
theorem map {f : α → β} {outcome : Except ε α} (fails : FailsWith P outcome) :
    FailsWith P (f <$> outcome) := by
  cases outcome with
  | error failure =>
    intro failure' same
    exact fails failure' (congrArg Except.error (Except.error.inj same))
  | ok value => exact ok (f value)

/-- All failures may be worded anew. -/
theorem mapError {f : ε' → ε} (allowed : ∀ failure, P (f failure)) (outcome : Except ε' α) :
    FailsWith P (outcome.mapError f) := by
  cases outcome with
  | error failure => exact error (allowed failure)
  | ok value => exact ok value

/-- A list that is gone through fails as one of its items does. -/
theorem mapM {f : α → Except ε β} (fails : ∀ item, FailsWith P (f item)) (items : List α) :
    FailsWith P (items.mapM f) := by
  induction items with
  | nil => exact ok []
  | cons item rest ih =>
    rw [List.mapM_cons]
    exact (fails item).bind fun _ => ih.bind fun _ => ok _

end FailsWith

end Switchboard
