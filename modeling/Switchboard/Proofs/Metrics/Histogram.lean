import Mathlib.Data.List.DropRight
import Switchboard.Proofs.Metrics.Exposition
import Switchboard.Proofs.Metrics.Series

/-!
# `Switchboard.Proofs.Metrics.Histogram`: cumulative histograms

A histogram updates eleven numbers with every observation. `Histogram.ofMicros` counts each of them
on its own, from the list of all observations, and `Histogram.foldl_observe` says that the two
agree, so that a bucket is the number of observations that do not exceed its bound.

`Timer.lines_cumulative` carries this through the rendering: the block of a family of histograms has
twelve lines for each label set that was ever observed, and the numbers in them are the true ones,
as long as there are fewer than `2 ^ 64` observations.
-/

set_option autoImplicit false

namespace Switchboard.Metrics

/-! ### One histogram -/

namespace Histogram

/-- The histogram of some observations, with each number counted on its own. -/
def ofMicros (micros : List UInt64) : Histogram where
  count := .ofNat micros.length
  sum := .ofNat (micros.map UInt64.toNat).sum
  buckets := bounds.map fun bound => .ofNat (micros.countP (· ≤ bound))

/-- One more observation adds to each number what it should. -/
theorem observe_ofMicros (micros : List UInt64) (next : UInt64) :
    (ofMicros micros).observe next = ofMicros (micros ++ [next]) := by
  have count : (ofMicros micros).count + 1 = (ofMicros (micros ++ [next])).count := by
    simp [ofMicros]
  have sum : (ofMicros micros).sum + next = (ofMicros (micros ++ [next])).sum := by
    simp [ofMicros]
  have buckets : bounds.zipWith (fun bound n => if next ≤ bound then n + 1 else n)
      (ofMicros micros).buckets = (ofMicros (micros ++ [next])).buckets := by
    simp only [ofMicros]
    rw [List.zipWith_map_right, List.zipWith_self]
    refine List.map_congr_left fun bound _ => ?_
    rw [List.countP_append, List.countP_singleton]
    by_cases within : next ≤ bound <;> simp [within]
  rw [observe, count, sum, buckets]

/-- Observing one after another counts every number right. -/
theorem foldl_observe (micros : List UInt64) : micros.foldl observe empty = ofMicros micros := by
  induction micros using List.reverseRecOn with
  | nil => rfl
  | append_singleton micros next ih =>
    rw [List.foldl_append, ih]
    exact observe_ofMicros micros next

end Histogram

/-- A duration counts in whole microseconds, up to the largest number. -/
theorem Duration.toNat_micros (duration : Duration) :
    duration.micros.toNat = min (duration.nanoseconds / 1000) (2 ^ 64 - 1) := by
  have fits : min (duration.nanoseconds / 1000) (2 ^ 64 - 1) < 2 ^ 64 := by omega
  exact (UInt64.toNat_ofNat').trans (Nat.mod_eq_of_lt fits)

/-! ### Families of histograms -/

/-- The series of a family are those that some step is for. -/
theorem Family.mem_ofSteps {α σ : Type} {labels : σ → List Label} {start : α}
    {change : σ → α → α} {steps : List σ} {set : LabelSet} :
    set ∈ Family.ofSteps labels start change steps ↔
      ∃ step ∈ steps, LabelSet.ofList (labels step) = set := by
  induction steps using List.reverseRecOn with
  | nil => simp
  | append_singleton steps step ih => simp [ofSteps_concat, mem_update, ih, or_and_right, exists_or]

/-- A duration that is observed, with labels in any order. -/
structure Observation where
  labels : List Label
  duration : Duration
deriving DecidableEq, Repr

namespace Timer

/-- The histograms of observations made one after another. -/
def ofObservations (observations : List Observation) : Timer :=
  observations.foldl
    (fun timer observation => timer.observe (.ofList observation.labels) observation.duration)
    .empty

variable {observations : List Observation}

/-- Observations change the histogram of their labels one after another. -/
theorem series_ofObservations (observations : List Observation) :
    (ofObservations observations).series =
      Family.ofSteps Observation.labels .empty
        (fun observation histogram => histogram.observe observation.duration.micros)
        observations := by
  apply Family.series_foldl
  · rfl
  · intro timer next
    rfl

/-- The microseconds observed for a label set, as they are counted. -/
def microsFor (set : LabelSet) (observations : List Observation) : List UInt64 :=
  (Family.stepsFor Observation.labels set observations).map (·.duration.micros)

/-- The whole microseconds of the durations observed for a label set. Those that sixty-four bits do
not hold count as the largest number. -/
def wholeMicros (set : LabelSet) (observations : List Observation) : List Nat :=
  (observations.filter fun observation => LabelSet.ofList observation.labels = set).map
    fun observation => min (observation.duration.nanoseconds / 1000) (2 ^ 64 - 1)

/-- What is counted are whole microseconds. -/
theorem map_toNat_microsFor (set : LabelSet) (observations : List Observation) :
    (microsFor set observations).map UInt64.toNat = wholeMicros set observations := by
  rw [microsFor, List.map_map, wholeMicros]
  exact List.map_congr_left fun observation _ => observation.duration.toNat_micros

/-- No label set has more observations than there are. -/
theorem length_microsFor_le (set : LabelSet) (observations : List Observation) :
    (microsFor set observations).length ≤ observations.length := by
  rw [microsFor, List.length_map]
  exact List.length_filter_le _ _

/-- The histogram of a label set is the histogram of the observations for it. -/
theorem getD_series (set : LabelSet) :
    (ofObservations observations).series[set]?.getD .empty =
      .ofMicros (microsFor set observations) := by
  rw [series_ofObservations, Family.getD_ofSteps, ← Histogram.foldl_observe, microsFor,
    List.foldl_map]

/-- The label sets are those that were observed. -/
theorem mem_series (set : LabelSet) :
    set ∈ (ofObservations observations).series ↔
      ∃ observation ∈ observations, LabelSet.ofList observation.labels = set := by
  rw [series_ofObservations]
  exact Family.mem_ofSteps

/-! ### Lines -/

/-- The number at the end of a line, behind its last blank. -/
def lineValue? (line : Line) : Option Int := readNumber (line.rtakeWhile (· != ' '))

/-- The number of a sample is read from its end. -/
theorem lineValue?_sampleLine (name labels : List Char) (n : Nat) :
    lineValue? (sampleLine name labels (Nat.toDigits 10 n)) = some (n : Int) := by
  -- No digit is a blank, so that the number ends at the blank before it.
  have digits (c) (inside : c ∈ (Nat.toDigits 10 n).reverse) : (c != ' ') = true := by
    rw [bne_iff_ne]
    rintro rfl
    exact absurd (isDigit_of_mem_toDigits (List.mem_reverse.mp inside)) (by decide)
  have ending : (sampleLine name labels (Nat.toDigits 10 n)).rtakeWhile (· != ' ') =
      Nat.toDigits 10 n := by
    rw [sampleLine, List.rtakeWhile, List.reverse_append, List.takeWhile_append_of_pos digits]
    simp
  rw [lineValue?, ending, readNumber_toDigits]

/-- How many of some microseconds do not exceed a bound. -/
def within (micros : List Nat) (bound : UInt64) : Nat := micros.countP (· ≤ bound.toNat)

/-- The lines of a cumulative histogram over some labels, from the microseconds that were
observed. -/
def cumulativeLines (name labels : List Char) (micros : List Nat) : List Line :=
  let bucket (bound : List Char) (n : Nat) : Line :=
    sampleLine (name ++ "_bucket".toList) (bucketLabels labels bound) (Nat.toDigits 10 n)
  (Histogram.bounds.map fun bound => bucket (unsignedText bound) (within micros bound)) ++
    [bucket "+Inf".toList micros.length,
     sampleLine (name ++ "_sum".toList) labels (Nat.toDigits 10 (micros.sum % 2 ^ 64)),
     sampleLine (name ++ "_count".toList) labels (Nat.toDigits 10 micros.length)]

/-- The numbers that can be read off these lines. -/
theorem map_lineValue?_cumulativeLines (name labels : List Char) (micros : List Nat) :
    (cumulativeLines name labels micros).map lineValue? =
      (Histogram.bounds.map (within micros) ++
        [micros.length, micros.sum % 2 ^ 64, micros.length]).map fun n : Nat => some (n : Int) := by
  simp only [cumulativeLines, List.map_append, List.map_map, List.map_cons, List.map_nil,
    Function.comp_def, lineValue?_sampleLine]

/-- A number is written modulo 2^64. -/
theorem unsignedText_ofNat (n : Nat) :
    unsignedText (.ofNat n) = Nat.toDigits 10 (n % 2 ^ 64) := by
  rw [unsignedText, UInt64.toNat_ofNat']

/-- The bounds of numbers are the bounds of what they stand for. -/
theorem within_map_toNat (micros : List UInt64) (bound : UInt64) :
    within (micros.map UInt64.toNat) bound = micros.countP (· ≤ bound) := by
  rw [within, List.countP_map]
  refine List.countP_congr fun n _ => ?_
  simp [UInt64.le_iff_toNat_le]

/-- The lines of a histogram are those counted from its observations, as long as there are few
enough of them. -/
theorem lines_ofMicros {micros : List UInt64} (few : micros.length < 2 ^ 64)
    (name labels : List Char) :
    (Histogram.ofMicros micros).lines name labels =
      cumulativeLines name labels (micros.map UInt64.toNat) := by
  -- No count reaches `2 ^ 64`. The sum may, and is printed as it is left by that.
  have counted (bound : UInt64) : unsignedText (.ofNat (micros.countP (· ≤ bound))) =
      Nat.toDigits 10 (within (micros.map UInt64.toNat) bound) := by
    have fewer : micros.countP (· ≤ bound) ≤ micros.length := List.countP_le_length
    rw [unsignedText_ofNat, within_map_toNat, Nat.mod_eq_of_lt (by omega)]
  have all : unsignedText (.ofNat micros.length) =
      Nat.toDigits 10 (micros.map UInt64.toNat).length := by
    rw [unsignedText_ofNat, List.length_map, Nat.mod_eq_of_lt few]
  simp only [Histogram.lines, Histogram.ofMicros, cumulativeLines]
  rw [List.zipWith_map_right, List.zipWith_self, all, unsignedText_ofNat]
  simp only [counted]

/-- A bucket with a larger bound counts no fewer observations. -/
theorem within_mono (micros : List Nat) {bound other : UInt64} (le : bound ≤ other) :
    within micros bound ≤ within micros other := by
  have le' : bound.toNat ≤ other.toNat := UInt64.le_iff_toNat_le.mp le
  refine List.countP_mono_left fun n _ inside => ?_
  rw [decide_eq_true_eq] at inside ⊢
  omega

/-- The numbers of the buckets do not decrease, up to the bucket of all observations. -/
theorem pairwise_within (micros : List Nat) :
    (Histogram.bounds.map (within micros) ++ [micros.length]).Pairwise (· ≤ ·) := by
  have ascending : Histogram.bounds.Pairwise (· ≤ ·) := by decide
  rw [List.pairwise_append]
  refine ⟨ascending.map _ fun _ _ => within_mono micros, List.pairwise_singleton _ _, ?_⟩
  intro n listed total only
  obtain ⟨bound, -, rfl⟩ := List.mem_map.mp listed
  rw [List.mem_singleton.mp only]
  exact List.countP_le_length

/-! ### Whole runs -/

/-- The count of a label set is the number of observations for it. -/
theorem toNat_count (few : observations.length < 2 ^ 64) (set : LabelSet) :
    ((ofObservations observations).count set).toNat = (wholeMicros set observations).length := by
  have fewer := length_microsFor_le set observations
  have read : (ofObservations observations).count set =
      ((ofObservations observations).series[set]?.getD .empty).count := by
    rw [count]
    cases (ofObservations observations).series[set]? <;> rfl
  rw [read, getD_series, ← map_toNat_microsFor, List.length_map, Histogram.ofMicros,
    UInt64.toNat_ofNat', Nat.mod_eq_of_lt (by omega)]

/-- The block of a family has the lines of one histogram for each label set. -/
theorem lines_ofObservations (few : observations.length < 2 ^ 64) (name : String) :
    (ofObservations observations).lines name =
      typeLine name "histogram" :: (ofObservations observations).series.keys.flatMap fun set =>
        cumulativeLines name.toList set.text (wholeMicros set observations) := by
  rw [lines, ← Std.ExtTreeMap.map_fst_toList_eq_keys, List.flatMap_map]
  refine congrArg _ (List.flatMap_congr fun entry listed => ?_)
  obtain ⟨set, histogram⟩ := entry
  have found : (ofObservations observations).series[set]? = some histogram :=
    Std.ExtTreeMap.mem_toList_iff_getElem?_eq_some.mp listed
  have seen : histogram = .ofMicros (microsFor set observations) := by
    rw [← getD_series, found, Option.getD_some]
  have fewer := length_microsFor_le set observations
  show histogram.lines name.toList set.text = _
  rw [seen, lines_ofMicros (by omega), map_toNat_microsFor]

/-- Histograms are cumulative, whatever was observed under whatever labels. The block of a family
has lines for each label set that was ever observed and for no other. There are twelve of them for
each: the buckets in the order of their bounds, each with the number of observations that do not
exceed its bound, then the bucket of all observations, the sum of their microseconds modulo
`2 ^ 64`, and their count, which is the count that can be asked for. The numbers of the buckets do
not decrease. -/
theorem lines_cumulative (few : observations.length < 2 ^ 64) (name : String) :
    (∃ sets : List LabelSet, sets.Nodup ∧
      (∀ set, set ∈ sets ↔
        ∃ observation ∈ observations, LabelSet.ofList observation.labels = set) ∧
      (ofObservations observations).lines name =
        typeLine name "histogram" :: sets.flatMap fun set =>
          cumulativeLines name.toList set.text (wholeMicros set observations)) ∧
    ∀ set,
      let micros := wholeMicros set observations
      let shown := cumulativeLines name.toList set.text micros
      let buckets := Histogram.bounds.map (within micros)
      shown.length = 12 ∧
      shown.map lineValue? =
        (buckets ++ [micros.length, micros.sum % 2 ^ 64, micros.length]).map
          (fun n : Nat => some (n : Int)) ∧
      (buckets ++ [micros.length]).Pairwise (· ≤ ·) ∧
      ((ofObservations observations).count set).toNat = micros.length := by
  constructor
  · -- The sets are the keys of the map. Which order they come in is not part of the claim.
    refine ⟨_, Std.ExtTreeMap.nodup_keys, ?_, lines_ofObservations few name⟩
    intro set
    rw [Std.ExtTreeMap.mem_keys]
    exact mem_series set
  · intro set micros shown buckets
    have twelve : shown.length = 12 := by simp [shown, cumulativeLines, Histogram.bounds]
    exact ⟨twelve, map_lineValue?_cumulativeLines _ _ micros, pairwise_within micros,
      toNat_count few set⟩

/-- Durations at a bound, just below the next microsecond, just above the bound and beyond all that
is counted, for the same labels in two orders, and one for other labels. -/
def edges : List Observation := [
  ⟨[⟨"scope", "wallet"⟩, ⟨"outcome", "handled"⟩], ⟨10000⟩⟩,
  ⟨[⟨"outcome", "handled"⟩, ⟨"scope", "wallet"⟩], ⟨10999⟩⟩,
  ⟨[⟨"scope", "wallet"⟩], ⟨70000⟩⟩,
  ⟨[⟨"scope", "wallet"⟩, ⟨"outcome", "handled"⟩], ⟨11000⟩⟩,
  ⟨[⟨"outcome", "handled"⟩, ⟨"scope", "wallet"⟩], ⟨10 ^ 30⟩⟩]

/-- Durations at the edges of the bounds and of what can be counted. -/
theorem lines_cumulative_edges :
    let set := LabelSet.ofList [⟨"scope", "wallet"⟩, ⟨"outcome", "handled"⟩]
    edges.length < 2 ^ 64 ∧
      wholeMicros set edges = [10, 10, 11, 2 ^ 64 - 1] ∧
      (cumulativeLines "micros".toList set.text (wholeMicros set edges)).map lineValue? =
        [2, 3, 3, 3, 3, 3, 3, 3, 3, 4, 30, 4].map some ∧
      ((ofObservations edges).count set).toNat = 4 := by
  intro set
  have few : edges.length < 2 ^ 64 := by decide
  have micros : wholeMicros set edges = [10, 10, 11, 2 ^ 64 - 1] := by
    simp only [wholeMicros, set, LabelSet.ofList_eq_ofList_iff]
    decide +kernel
  obtain ⟨-, values, -, count⟩ := (lines_cumulative few "micros").2 set
  refine ⟨few, micros, values.trans ?_, count.trans ?_⟩
  · rw [micros]
    decide
  · rw [micros]
    rfl

/-- The block of a family in which one duration was observed. -/
example : (ofObservations [⟨[⟨"scope", "a"⟩], ⟨70000⟩⟩]).lines "t" = [
    "# TYPE t histogram",
    "t_bucket\x7bscope=\"a\",le=\"10\"\x7d 0",
    "t_bucket\x7bscope=\"a\",le=\"50\"\x7d 0",
    "t_bucket\x7bscope=\"a\",le=\"100\"\x7d 1",
    "t_bucket\x7bscope=\"a\",le=\"500\"\x7d 1",
    "t_bucket\x7bscope=\"a\",le=\"1000\"\x7d 1",
    "t_bucket\x7bscope=\"a\",le=\"5000\"\x7d 1",
    "t_bucket\x7bscope=\"a\",le=\"10000\"\x7d 1",
    "t_bucket\x7bscope=\"a\",le=\"50000\"\x7d 1",
    "t_bucket\x7bscope=\"a\",le=\"100000\"\x7d 1",
    "t_bucket\x7bscope=\"a\",le=\"+Inf\"\x7d 1",
    "t_sum\x7bscope=\"a\"\x7d 70",
    "t_count\x7bscope=\"a\"\x7d 1"].map String.toList := by
  decide +kernel

end Timer

end Switchboard.Metrics
