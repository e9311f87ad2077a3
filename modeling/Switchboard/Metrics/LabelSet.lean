import Std.Data.ExtTreeMap

/-!
# `Switchboard.Metrics.LabelSet`: what tells one series from another

A series is identified by its labels, whatever order they are given in. A `LabelSet` holds them in
ascending order, names before values, with repetitions kept, so two lists of labels make the same
set exactly when one is a permutation of the other (`ofList_eq_ofList_iff`). `LabelSet.text` is the
set as it is rendered: values stand between quotes, with the backslash, the quote and the line feed
escaped, so that no value can end its quotes or its line.
-/

set_option autoImplicit false

namespace Switchboard.Metrics

/-- A named value attached to a series. -/
structure Label where
  name : String
  value : String
deriving DecidableEq, Repr, Inhabited

namespace Label

instance : Ord Label := ⟨compareLex (compareOn Label.name) (compareOn Label.value)⟩

instance : Std.TransOrd Label :=
  inferInstanceAs (Std.TransCmp (compareLex (compareOn Label.name) (compareOn Label.value)))

instance : Std.LawfulEqOrd Label where
  eq_of_compare {a b} h := by
    have both : compare a.name b.name = .eq ∧ compare a.value b.value = .eq :=
      compareLex_eq_eq.mp h
    cases a; cases b
    simpa using both

/-- Labels in ascending order, equal ones included. -/
def le (a b : Label) : Bool := (compare a b).isLE

/-- A text in which each occurrence of a character is replaced. -/
def replaceAll (c : Char) (replacement text : List Char) : List Char :=
  text.flatMap fun other => if other = c then replacement else [other]

/-- A value as it is rendered. The backslashes come first, as they must not meet those of the other
escapes. -/
def escape (value : List Char) : List Char :=
  replaceAll '\n' ['\\', 'n'] (replaceAll '"' ['\\', '"'] (replaceAll '\\' ['\\', '\\'] value))

/-- A label as it is rendered. -/
def text (label : Label) : List Char :=
  label.name.toList ++ ['=', '"'] ++ escape label.value.toList ++ ['"']

/-- The order of labels is transitive. -/
theorem le_trans (a b c : Label) (hab : a.le b) (hbc : b.le c) : a.le c :=
  Std.TransCmp.isLE_trans hab hbc

/-- Any two labels are in order one way or the other. -/
theorem le_total (a b : Label) : a.le b || b.le a := by
  unfold le
  rw [Std.OrientedOrd.eq_swap (a := b) (b := a)]
  cases compare a b <;> rfl

/-- Labels that are in order both ways are the same. -/
theorem le_antisymm {a b : Label} (hab : a.le b) (hba : b.le a) : a = b :=
  Std.LawfulEqOrd.eq_of_compare (Std.OrientedCmp.isLE_antisymm hab hba)

end Label

/-- Labels in ascending order. -/
@[ext]
structure LabelSet where
  labels : List Label
  ascending : labels.Pairwise fun a b => a.le b
deriving DecidableEq, Repr

namespace LabelSet

/-- The set of the given labels. -/
def ofList (labels : List Label) : LabelSet :=
  ⟨labels.mergeSort Label.le, List.pairwise_mergeSort Label.le_trans Label.le_total labels⟩

/-- Two lists of labels make the same set exactly when one is a permutation of the other. -/
theorem ofList_eq_ofList_iff {as bs : List Label} : ofList as = ofList bs ↔ as.Perm bs := by
  have sorts (labels : List Label) := List.mergeSort_perm labels Label.le
  constructor
  · intro h
    have sorted : as.mergeSort Label.le = bs.mergeSort Label.le := congrArg labels h
    exact (sorts as).symm.trans (sorted ▸ sorts bs)
  · intro h
    apply LabelSet.ext
    exact List.Perm.eq_of_pairwise (fun _ _ _ _ => Label.le_antisymm) (ofList as).ascending
      (ofList bs).ascending ((sorts as).trans (h.trans (sorts bs).symm))

/-- A set is made again of its labels. -/
theorem ofList_labels (set : LabelSet) : ofList set.labels = set :=
  LabelSet.ext (List.mergeSort_of_pairwise set.ascending)

/-- The set without labels. -/
def empty : LabelSet := ⟨[], .nil⟩

instance : Inhabited LabelSet := ⟨empty⟩

instance : Ord LabelSet := ⟨compareOn LabelSet.labels⟩

instance : Std.TransOrd LabelSet := inferInstanceAs (Std.TransCmp (compareOn LabelSet.labels))

instance : Std.LawfulEqOrd LabelSet where
  eq_of_compare h := LabelSet.ext (Std.LawfulEqOrd.eq_of_compare (α := List Label) h)

/-- The set as it is rendered, without braces. -/
def text (set : LabelSet) : List Char := List.intercalate [','] (set.labels.map Label.text)

end LabelSet

end Switchboard.Metrics
