import Switchboard.Metrics.LabelSet

/-!
# `Switchboard.Metrics.Family`: counters, gauges and histograms

A family holds one series for each label set that was ever touched. Counters are unsigned, gauges
signed, both of sixty-four bits and wrapping around. A histogram counts durations in whole
microseconds: each bucket holds those that do not exceed its bound, so buckets are cumulative.

`Counter.get_add` and `Gauge.get_add` say what an addition does to every series of a family.
-/

set_option autoImplicit false

namespace Switchboard.Metrics

/-- Series of one metric by their label sets. -/
abbrev Family (α : Type) := Std.ExtTreeMap LabelSet α

namespace Family

variable {α : Type}

/-- Changes the series of a label set, which starts from the given state. -/
def update (family : Family α) (labels : LabelSet) (start : α) (change : α → α) : Family α :=
  family.alter labels fun old => some (change (old.getD start))

/-- Only the entry with the given labels changes. -/
theorem getElem?_update (family : Family α) (labels query : LabelSet) (start : α)
    (change : α → α) :
    (family.update labels start change)[query]? =
      if query = labels then some (change (family[labels]?.getD start)) else family[query]? := by
  simp only [update, Std.ExtTreeMap.getElem?_alter]
  by_cases h : query = labels
  · simp [h]
  · have differ : compare labels query ≠ .eq := fun same =>
      h (Std.LawfulEqOrd.eq_of_compare same).symm
    simp [h, differ]

end Family

/-- A family of counters. -/
structure Counter where
  series : Family UInt64
deriving DecidableEq, Inhabited

namespace Counter

/-- The family in which nothing was counted. -/
def empty : Counter := ⟨∅⟩

/-- Adds to a counter. -/
def add (counter : Counter) (labels : LabelSet) (n : UInt64) : Counter :=
  ⟨counter.series.update labels 0 (· + n)⟩

/-- Counts one. -/
def increment (counter : Counter) (labels : LabelSet) : Counter := counter.add labels 1

/-- The value of a counter; one that was never touched is at zero. -/
def get (counter : Counter) (labels : LabelSet) : UInt64 := counter.series[labels]?.getD 0

/-- A new counter is at zero. -/
@[simp]
theorem get_empty (labels : LabelSet) : empty.get labels = 0 := by simp [get, empty]

/-- What is added counts for its own labels only. -/
theorem get_add (counter : Counter) (labels query : LabelSet) (n : UInt64) :
    (counter.add labels n).get query = counter.get query + if query = labels then n else 0 := by
  simp only [get, add, Family.getElem?_update]
  by_cases h : query = labels <;> simp [h]

end Counter

/-- A family of gauges. -/
structure Gauge where
  series : Family Int64
deriving DecidableEq, Inhabited

namespace Gauge

/-- The family in which nothing was measured. -/
def empty : Gauge := ⟨∅⟩

/-- Moves a gauge. -/
def add (gauge : Gauge) (labels : LabelSet) (n : Int64) : Gauge :=
  ⟨gauge.series.update labels 0 (· + n)⟩

/-- Moves a gauge up by one. -/
def increment (gauge : Gauge) (labels : LabelSet) : Gauge := gauge.add labels 1

/-- Moves a gauge down by one. -/
def decrement (gauge : Gauge) (labels : LabelSet) : Gauge := gauge.add labels (-1)

/-- The value of a gauge; one that was never touched is at zero. -/
def get (gauge : Gauge) (labels : LabelSet) : Int64 := gauge.series[labels]?.getD 0

/-- A new gauge is at zero. -/
@[simp]
theorem get_empty (labels : LabelSet) : empty.get labels = 0 := by simp [get, empty]

/-- What is added counts for its own labels only. -/
theorem get_add (gauge : Gauge) (labels query : LabelSet) (n : Int64) :
    (gauge.add labels n).get query = gauge.get query + if query = labels then n else 0 := by
  simp only [get, add, Family.getElem?_update]
  by_cases h : query = labels <;> simp [h]

end Gauge

/-- A span of time. -/
structure Duration where
  nanoseconds : Nat
deriving DecidableEq, Repr, Inhabited

/-- Whole microseconds, at most as many as sixty-four bits hold. -/
def Duration.micros (duration : Duration) : UInt64 :=
  (min (duration.nanoseconds / 1000) (UInt64.size - 1)).toUInt64

/-- What a histogram has seen. -/
structure Histogram where
  count : UInt64
  /-- Sum of the observed microseconds, wrapping around. -/
  sum : UInt64
  /-- For each bound, in the order of `bounds`, how many observations do not exceed it. -/
  buckets : List UInt64
deriving DecidableEq, Repr, Inhabited

namespace Histogram

/-- The upper bounds of the buckets in microseconds. -/
def bounds : List UInt64 := [10, 50, 100, 500, 1000, 5000, 10000, 50000, 100000]

/-- The histogram that has seen nothing. -/
def empty : Histogram := ⟨0, 0, bounds.map fun _ => 0⟩

/-- Takes in one observation. -/
def observe (histogram : Histogram) (micros : UInt64) : Histogram where
  count := histogram.count + 1
  sum := histogram.sum + micros
  buckets := bounds.zipWith (fun bound n => if micros ≤ bound then n + 1 else n) histogram.buckets

end Histogram

/-- A family of histograms. -/
structure Timer where
  series : Family Histogram
deriving DecidableEq, Inhabited

namespace Timer

/-- The family in which nothing was observed. -/
def empty : Timer := ⟨∅⟩

/-- Takes in one duration. -/
def observe (timer : Timer) (labels : LabelSet) (duration : Duration) : Timer :=
  ⟨timer.series.update labels .empty (·.observe duration.micros)⟩

/-- The number of durations observed for a label set. -/
def count (timer : Timer) (labels : LabelSet) : UInt64 :=
  (timer.series[labels]?.map Histogram.count).getD 0

end Timer

end Switchboard.Metrics
