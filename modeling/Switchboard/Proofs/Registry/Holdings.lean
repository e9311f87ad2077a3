import Mathlib.Algebra.BigOperators.Finprod
import Switchboard.Proofs.Maps
import Switchboard.Registry.Basic

/-!
# `Switchboard.Proofs.Registry.Holdings`: counting references

`Holdings.total` adds up references in thirty-two bits. `Holdings.sum` adds them up without bound,
and as long as it is below `2 ^ 32` the two agree (`toNat_total`). Taking a reference raises the sum
by one (`sum_take`), dropping one lowers it by one (`sum_drop`), and `sum_eq_finsum` says that it is
the sum over all domains.

`Holdings.Proper` says that whoever is listed holds a reference. Taking and dropping keep it so.
-/

set_option autoImplicit false

namespace Switchboard.Holdings

/-- The references of all domains together, without bound. -/
def sum (holdings : Holdings) : Nat := (holdings.toList.map fun entry => entry.2.toNat).sum

/-- Nobody holds anything at first. -/
@[simp]
theorem of_empty (domain : Domain) : (∅ : Holdings).of domain = 0 := by
  simp [of]

/-- No references add up to zero. -/
@[simp]
theorem sum_empty : sum ∅ = 0 := by
  rw [sum, Std.ExtTreeMap.toList_eq_nil_iff.mpr rfl]
  rfl

/-- A domain that is entered counts for what it is entered with. -/
theorem sum_insert (holdings : Holdings) (domain : Domain) (n : UInt32) :
    sum (holdings.insert domain n) = n.toNat + sum (holdings.erase domain) := by
  have split := (toList_insert_perm holdings domain n).map fun entry => entry.2.toNat
  unfold sum
  rw [split.sum_eq, List.map_cons, List.sum_cons]

/-- A domain's references and those of the others. -/
theorem sum_eq_of_add_sum_erase (holdings : Holdings) (domain : Domain) :
    holdings.sum = (holdings.of domain).toNat + sum (holdings.erase domain) := by
  unfold of
  cases h : holdings[domain]? with
  | none =>
    rw [erase_eq_self h]
    simp
  | some n =>
    have split := (toList_perm_of_getElem? h).map fun entry => entry.2.toNat
    unfold sum
    rw [split.sum_eq, List.map_cons, List.sum_cons, Option.getD_some]

/-- No domain holds more than all of them together. -/
theorem of_le_sum (holdings : Holdings) (domain : Domain) :
    (holdings.of domain).toNat ≤ holdings.sum := by
  have split := sum_eq_of_add_sum_erase holdings domain
  omega

/-- Without one of the domains there are no more references. -/
theorem sum_erase_le (holdings : Holdings) (domain : Domain) :
    sum (holdings.erase domain) ≤ holdings.sum := by
  have split := sum_eq_of_add_sum_erase holdings domain
  omega

/-- With room for one more, taking a reference does not wrap around. -/
theorem toNat_of_add_one (holdings : Holdings) (domain : Domain)
    (room : holdings.sum + 1 < 2 ^ 32) :
    (holdings.of domain + 1).toNat = (holdings.of domain).toNat + 1 := by
  have bound := of_le_sum holdings domain
  rw [UInt32.toNat_add, UInt32.toNat_one, Nat.mod_eq_of_lt (by omega)]

/-- A reference that is held can be taken off. -/
theorem toNat_of_sub_one (holdings : Holdings) (domain : Domain)
    (held : holdings.of domain ≠ 0) :
    (holdings.of domain - 1).toNat + 1 = (holdings.of domain).toNat := by
  have positive : 0 < (holdings.of domain).toNat := by
    rw [Nat.pos_iff_ne_zero]
    intro none
    exact held (UInt32.toNat_inj.mp none)
  have one_le : 1 ≤ holdings.of domain := UInt32.le_iff_toNat_le.mpr positive
  rw [UInt32.toNat_sub_of_le _ _ one_le, UInt32.toNat_one]
  omega

/-- One more reference makes the sum one larger, as long as there is room. -/
theorem sum_take (holdings : Holdings) (domain : Domain) (room : holdings.sum + 1 < 2 ^ 32) :
    (holdings.take domain).sum = holdings.sum + 1 := by
  rw [take, sum_insert, toNat_of_add_one holdings domain room,
    sum_eq_of_add_sum_erase holdings domain]
  omega

/-- One reference less makes the sum one smaller. -/
theorem sum_drop (holdings : Holdings) (domain : Domain) (held : holdings.of domain ≠ 0) :
    (holdings.drop domain).sum + 1 = holdings.sum := by
  have less := toNat_of_sub_one holdings domain held
  have split := sum_eq_of_add_sum_erase holdings domain
  simp only [drop]
  by_cases last : holdings.of domain - 1 = 0
  · -- The last reference: the entry goes, and what is left is that of the others.
    rw [if_pos last]
    rw [last, UInt32.toNat_zero] at less
    omega
  · rw [if_neg last, sum_insert]
    omega

/-- Adding up in thirty-two bits is exact while the sum is small enough. -/
theorem toNat_total (holdings : Holdings) (small : holdings.sum < 2 ^ 32) :
    holdings.total.toNat = holdings.sum := by
  -- The start value is general, because the loop adds to it before it goes on.
  have key : ∀ (entries : List (Domain × UInt32)) (start : UInt32),
      start.toNat + (entries.map fun entry => entry.2.toNat).sum < 2 ^ 32 →
      (entries.foldl (fun sum entry => sum + entry.2) start).toNat
        = start.toNat + (entries.map fun entry => entry.2.toNat).sum := by
    intro entries
    induction entries with
    | nil => intro start _; simp
    | cons entry rest ih =>
      intro start fits
      rw [List.map_cons, List.sum_cons] at fits
      have exact_sum : (start + entry.2).toNat = start.toNat + entry.2.toNat := by
        rw [UInt32.toNat_add, Nat.mod_eq_of_lt (by omega)]
      rw [List.foldl_cons, ih _ (by omega), exact_sum, List.map_cons, List.sum_cons]
      omega
  have all := key holdings.toList 0 (by simpa [sum] using small)
  simpa [total, sum] using all

/-- A domain that is not listed holds nothing. -/
theorem of_eq_zero_of_notMem {holdings : Holdings} {domain : Domain} (absent : domain ∉ holdings) :
    holdings.of domain = 0 := by
  rw [of, Std.ExtTreeMap.getElem?_eq_none absent, Option.getD_none]

/-- Only domains that are listed count. -/
theorem support_subset_keys (holdings : Holdings) :
    (Function.support fun domain => (holdings.of domain).toNat) ⊆ holdings.keys.toFinset := by
  intro domain nonzero
  rw [Finset.mem_coe, List.mem_toFinset, Std.ExtTreeMap.mem_keys]
  by_contra absent
  apply nonzero
  show (holdings.of domain).toNat = 0
  rw [of_eq_zero_of_notMem absent, UInt32.toNat_zero]

/-- Only finitely many domains hold references. -/
theorem finite_support (holdings : Holdings) :
    (Function.support fun domain => (holdings.of domain).toNat).Finite :=
  (Finset.finite_toSet _).subset holdings.support_subset_keys

/-- The references are the sum over all domains. -/
theorem sum_eq_finsum (holdings : Holdings) :
    holdings.sum = ∑ᶠ domain, (holdings.of domain).toNat := by
  have listed :
      holdings.sum = (holdings.keys.map fun domain => (holdings.of domain).toNat).sum := by
    rw [sum, ← Std.ExtTreeMap.map_fst_toList_eq_keys, List.map_map]
    congr 1
    apply List.map_congr_left
    rintro ⟨domain, n⟩ member
    rw [Std.ExtTreeMap.mem_toList_iff_getElem?_eq_some] at member
    simp [of, member]
  rw [listed, ← List.sum_toFinset _ Std.ExtTreeMap.nodup_keys]
  exact (finsum_eq_sum_of_support_subset _ holdings.support_subset_keys).symm

/-! ### Who is listed -/

/-- Nobody is listed without a reference. -/
def Proper (holdings : Holdings) : Prop := ∀ domain ∈ holdings, holdings.of domain ≠ 0

/-- A domain that holds references is listed. -/
theorem mem_of_of_ne_zero {holdings : Holdings} {domain : Domain} (held : holdings.of domain ≠ 0) :
    domain ∈ holdings := by
  by_contra absent
  exact held (of_eq_zero_of_notMem absent)

/-- On a proper list, exactly those are listed that hold references. -/
theorem Proper.mem_iff {holdings : Holdings} (proper : holdings.Proper) {domain : Domain} :
    domain ∈ holdings ↔ holdings.of domain ≠ 0 :=
  ⟨proper domain, mem_of_of_ne_zero⟩

/-- A domain that is taken off the list holds nothing. -/
theorem of_erase (holdings : Holdings) (domain other : Domain) :
    of (holdings.erase domain) other = if other = domain then 0 else holdings.of other := by
  unfold of
  rw [Std.ExtTreeMap.getElem?_erase]
  by_cases same : other = domain
  · simp [same]
  · simp [same, Ne.symm same]

/-- Whoever takes a reference is listed. -/
theorem mem_take {holdings : Holdings} {domain other : Domain} :
    other ∈ holdings.take domain ↔ other = domain ∨ other ∈ holdings := by
  rw [take, Std.ExtTreeMap.mem_insert, Std.LawfulEqCmp.compare_eq_iff_eq, eq_comm]

/-- Whoever drops the last reference is not listed any more. -/
theorem mem_drop {holdings : Holdings} {domain other : Domain} :
    other ∈ holdings.drop domain ↔
      if other = domain then holdings.of domain - 1 ≠ 0 else other ∈ holdings := by
  have apart : compare domain other = .eq ↔ other = domain := by
    rw [Std.LawfulEqCmp.compare_eq_iff_eq, eq_comm]
  simp only [drop]
  by_cases last : holdings.of domain - 1 = 0
  · rw [if_pos last, Std.ExtTreeMap.mem_erase, ne_eq, apart]
    by_cases same : other = domain <;> simp [same, last]
  · rw [if_neg last, Std.ExtTreeMap.mem_insert, apart]
    by_cases same : other = domain <;> simp [same, last]

/-- The empty list is proper. -/
theorem Proper.empty : Proper ∅ := fun _ member => absurd member Std.ExtTreeMap.not_mem_empty

/-- A list stays proper when a reference is taken, as long as there is room. -/
theorem Proper.take {holdings : Holdings} (proper : holdings.Proper) (domain : Domain)
    (room : holdings.sum + 1 < 2 ^ 32) : (holdings.take domain).Proper := by
  intro other member
  rw [of_take]
  by_cases same : other = domain
  · -- With room the count cannot have wrapped around to none.
    rw [if_pos same]
    intro wrapped
    have more := toNat_of_add_one holdings domain room
    rw [wrapped, UInt32.toNat_zero] at more
    omega
  · rw [if_neg same]
    exact proper other ((mem_take.mp member).resolve_left same)

/-- A list stays proper when a reference is dropped. -/
theorem Proper.drop {holdings : Holdings} (proper : holdings.Proper) (domain : Domain) :
    (holdings.drop domain).Proper := by
  intro other member
  rw [of_drop]
  rw [mem_drop] at member
  by_cases same : other = domain
  · rw [if_pos same] at member ⊢
    exact member
  · rw [if_neg same] at member ⊢
    exact proper other member

/-- A list stays proper when a domain is taken off. -/
theorem Proper.erase {holdings : Holdings} (proper : holdings.Proper) (domain : Domain) :
    Proper (holdings.erase domain) := by
  intro other member
  rw [Std.ExtTreeMap.mem_erase, ne_eq, Std.LawfulEqCmp.compare_eq_iff_eq] at member
  rw [of_erase, if_neg (Ne.symm member.1)]
  exact proper other member.2

end Switchboard.Holdings
