import Mathlib.Data.List.Nodup
import Std.Data.ExtTreeMap

/-!
# `Switchboard.Proofs.Maps`: ordered maps as lists of entries

Counting the entries of an ordered map goes through its list of entries. `toList_insert_perm` and
`toList_perm_of_getElem?` say how an insertion and a lookup split that list into one entry and the
entries of the map without its key.
-/

set_option autoImplicit false

namespace Switchboard

open Std

variable {κ α : Type} [Ord κ] [TransOrd κ]

/-- A map lists no entry twice. -/
theorem nodup_toList (map : ExtTreeMap κ α) : map.toList.Nodup := by
  apply List.Nodup.of_map Prod.fst
  rw [ExtTreeMap.map_fst_toList_eq_keys]
  exact ExtTreeMap.nodup_keys

/-- The values stand in the order of their keys. -/
theorem values_eq_map_toList (map : ExtTreeMap κ α) : map.values = map.toList.map Prod.snd := by
  obtain ⟨⟨inner⟩⟩ := map
  induction inner using Quotient.inductionOn with
  | _ tree =>
    show DTreeMap.Internal.Impl.values tree.inner =
      (DTreeMap.Internal.Impl.Const.toList tree.inner).map Prod.snd
    simp [DTreeMap.Internal.Impl.values_eq_map_snd,
      DTreeMap.Internal.Impl.Const.toList_eq_toListModel_map]

/-- The empty map has no values. -/
@[simp]
theorem values_empty : (∅ : ExtTreeMap κ α).values = [] := by
  rw [values_eq_map_toList, ExtTreeMap.toList_eq_nil_iff.mpr rfl]
  rfl

/-- A map can be cut in two by a test on its keys. -/
theorem values_filter_perm (map : ExtTreeMap κ α) (test : κ → Bool) :
    ((map.filter fun key _ => test key).values ++ (map.filter fun key _ => !test key).values).Perm
      map.values := by
  simp only [values_eq_map_toList, ExtTreeMap.toList_filter, ← List.map_append]
  exact (List.filter_append_perm (fun entry => test entry.1) map.toList).map Prod.snd

variable [LawfulEqOrd κ]

/-- A key that was erased has no entry. -/
theorem notMem_toList_erase (map : ExtTreeMap κ α) (key : κ) (value : α) :
    (key, value) ∉ (map.erase key).toList := by
  simp [ExtTreeMap.mem_toList_iff_getElem?_eq_some]

/-- After an insertion the entries are the new one and those of the other keys. -/
theorem toList_insert_perm (map : ExtTreeMap κ α) (key : κ) (value : α) :
    (map.insert key value).toList.Perm ((key, value) :: (map.erase key).toList) := by
  -- Neither list has an entry twice, so it is enough that they have the same entries.
  rw [List.perm_ext_iff_of_nodup (nodup_toList _)
    (List.nodup_cons.mpr ⟨notMem_toList_erase map key value, nodup_toList _⟩)]
  rintro ⟨k, v⟩
  simp only [List.mem_cons, ExtTreeMap.mem_toList_iff_getElem?_eq_some,
    ExtTreeMap.getElem?_insert, ExtTreeMap.getElem?_erase]
  by_cases h : key = k
  · subst h
    simp [eq_comm]
  · simp [h, Ne.symm h]

/-- The entries of a map are that of a key in it and those of the other keys. -/
theorem toList_perm_of_getElem? {map : ExtTreeMap κ α} {key : κ} {value : α}
    (h : map[key]? = some value) :
    map.toList.Perm ((key, value) :: (map.erase key).toList) := by
  -- Inserting what is there already changes nothing.
  have same : map.insert key value = map := by
    apply ExtTreeMap.ext_getElem?
    intro k
    rw [ExtTreeMap.getElem?_insert]
    by_cases hk : key = k
    · subst hk
      simp [h]
    · simp [hk]
  have split := toList_insert_perm map key value
  rwa [same] at split

/-- Without a key that is not there a map is the same. -/
theorem erase_eq_self {map : ExtTreeMap κ α} {key : κ} (h : map[key]? = none) :
    map.erase key = map := by
  apply ExtTreeMap.ext_getElem?
  intro k
  rw [ExtTreeMap.getElem?_erase]
  by_cases hk : key = k
  · subst hk
    simp [h]
  · simp [hk]

/-- It does not matter which of two keys goes first. -/
theorem erase_comm (map : ExtTreeMap κ α) (first second : κ) :
    (map.erase first).erase second = (map.erase second).erase first := by
  apply ExtTreeMap.ext_getElem?
  intro k
  simp only [ExtTreeMap.getElem?_erase]
  by_cases hk : first = k
  · subst hk
    simp
  · simp [hk]

/-! ### The values of a map -/

/-- A key that was free adds its value. -/
theorem values_insert_perm {map : ExtTreeMap κ α} {key : κ} (free : map[key]? = none) (value : α) :
    (map.insert key value).values.Perm (value :: map.values) := by
  have split := (toList_insert_perm map key value).map Prod.snd
  rw [erase_eq_self free, List.map_cons] at split
  rwa [values_eq_map_toList, values_eq_map_toList]

/-- A key that goes takes its value with it. -/
theorem values_perm_erase (map : ExtTreeMap κ α) (key : κ) :
    map.values.Perm (map[key]?.toList ++ (map.erase key).values) := by
  cases h : map[key]? with
  | none =>
    rw [erase_eq_self h]
    exact .refl _
  | some value =>
    have split := (toList_perm_of_getElem? h).map Prod.snd
    rw [values_eq_map_toList, values_eq_map_toList]
    exact split

end Switchboard
