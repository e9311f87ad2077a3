import Switchboard.Proofs.Registry.Chronicle

/-!
# `Switchboard.Proofs.Registry.Room`: runs in which no count wraps around

References are counted in thirty-two bits. `Chronicle.Roomy` says of a run that there was room for
every reference when it was taken, so that less than `2 ^ 32` were held on any scope at any time. A
run of fewer than `2 ^ 32` events is always roomy (`roomy_of_length_lt`).
-/

set_option autoImplicit false

namespace Switchboard.Chronicle

variable {μ : Type}

/-- There is room for the references that a call takes. -/
def Entry.HasRoom : Entry μ → Prop
  | .called found call => found.HasRoom [call]
  | _ => True

/-- There is room for the references of every call. -/
def Roomy (entries : List (Entry μ)) : Prop := ∀ entry ∈ entries, entry.HasRoom

/-- If there is room until the end there is room on the way. -/
theorem Roomy.earlier {entries later : List (Entry μ)} (roomy : Roomy (entries ++ later)) :
    Roomy entries :=
  fun entry member => roomy entry (List.mem_append_left _ member)

/-- There is room when the last entry is written. -/
theorem Roomy.last {entries : List (Entry μ)} {last : Entry μ} (roomy : Roomy (entries ++ [last])) :
    last.HasRoom :=
  roomy last (List.mem_append_right _ (List.mem_singleton.mpr rfl))

/-! ### Short runs -/

/-- What a story of fewer than `2 ^ 32` events satisfies: nobody could have taken more references
than there are events. -/
structure Short (story : Story μ) : Prop where
  sound : story.registry.Sound
  roomy : Roomy story.outside
  few : ∀ scope, story.registry.references scope ≤ story.outside.length

/-- No references are held at first. -/
theorem Short.start (policy : ReleasePolicy) : Short (⟨.empty policy, []⟩ : Story μ) where
  sound := .empty policy
  roomy _ member := absurd member List.not_mem_nil
  few scope := by simp [Registry.references, Registry.holdings, Registry.empty]

/-- An entry makes the chronicle longer and takes no reference. -/
theorem Short.write {story : Story μ} (short : Short story) {entry : Entry μ}
    (room : entry.HasRoom) : Short (write entry story) where
  sound := short.sound
  roomy other member := by
    rcases List.mem_append.mp member with old | new
    · exact short.roomy other old
    · rwa [List.mem_singleton.mp new]
  few scope := by
    show _ ≤ (story.outside ++ [entry]).length
    rw [List.length_append]
    exact Nat.le_trans (short.few scope) (Nat.le_add_right _ _)

/-- Notes take no reference. -/
theorem Short.note {story : Story μ} (short : Short story)
    (entry : Metrics.Ledger → Metrics.Ledger) :
    Short (story.mapRegistry fun registry => registry.note entry) :=
  ⟨short.sound.note entry, short.roomy, short.few⟩

/-- A call takes at most one reference, and its entry makes up for it. -/
theorem Short.call {story : Story μ} (short : Short story) (call : Call μ)
    (bound : story.outside.length + 1 < 2 ^ 32) : Short (afterCall story call) := by
  have at_most_one (scope : Scope) : [call].countP (·.takesOn scope) ≤ 1 := List.countP_le_length
  have room : story.registry.HasRoom [call] := by
    intro scope
    have few := short.few scope
    have one := at_most_one scope
    omega
  -- The entry is written before the call is made, and makes up for the reference it may take.
  have written : Short (Chronicle.write (.called story.registry call) story) := short.write room
  refine ⟨short.sound.step call room, written.roomy, fun scope => ?_⟩
  have few := short.few scope
  have one := at_most_one scope
  have step := short.sound.references_step_le call room scope
  show (story.registry.step call).registry.references scope ≤ (story.outside ++ [_]).length
  rw [List.length_append, List.length_singleton]
  omega

/-- No event makes a scope have more references than there are entries. -/
theorem Short.stepwise :
    Stepwise fun _ (story : Story μ) => story.outside.length < 2 ^ 32 → Short story where
  reorder _ h := h
  call {_ story} call h bound := by
    have longer : (story.outside ++ [Entry.called story.registry call]).length < 2 ^ 32 := bound
    rw [List.length_append, List.length_singleton] at longer
    exact (h (by omega)).call call longer
  release {_ story} retirement h bound := by
    have longer :
        (story.outside ++ [Entry.released retirement.handle.middleware]).length < 2 ^ 32 := bound
    rw [List.length_append, List.length_singleton] at longer
    exact ((h (by omega)).note
      (·.noteRetirement retirement.handle.scope retirement.reason)).write trivial
  handle {_ story} scope handle _ h bound := by
    have longer : (story.outside ++ [Entry.handled handle.middleware]).length < 2 ^ 32 := bound
    rw [List.length_append, List.length_singleton] at longer
    exact (h (by omega)).write trivial
  note outcome h bound := (h bound).note (·.noteDispatch outcome)

/-- A run of fewer than `2 ^ 32` events never runs out of room. -/
theorem roomy_of_length_lt (script : Script μ) (depth : Nat) (policy : ReleasePolicy)
    (deeds : List (Deed μ)) (short : (tell script depth policy deeds).outside.length < 2 ^ 32) :
    Roomy (tell script depth policy deeds).outside :=
  (Short.stepwise.holds script depth policy (fun _ => .start policy) deeds short).roomy

end Switchboard.Chronicle
