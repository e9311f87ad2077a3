import Switchboard.Metrics.Ledger

/-!
# `Switchboard.Metrics.Exposition`: the ledger as text

Each family is a block of lines: its type, then its series. A counter or gauge has one line for each
series, a histogram twelve: its buckets, the bucket of all observations, their sum and their count.

Within a block the series may stand in any order. Here they are in ascending order of their labels,
of which nothing that is proved about them makes use.
-/

set_option autoImplicit false

namespace Switchboard.Metrics

/-- A line of text, without its end. -/
abbrev Line := List Char

/-- The line that opens the block of a family. -/
def typeLine (name kind : String) : Line :=
  "# TYPE ".toList ++ name.toList ++ [' '] ++ kind.toList

/-- The line of one value: its name, its labels between braces and the value. -/
def sampleLine (name : List Char) (labels value : List Char) : Line :=
  name ++ ['\x7b'] ++ labels ++ ['\x7d', ' '] ++ value

/-- The digits of an unsigned value. -/
def unsignedText (n : UInt64) : List Char := Nat.toDigits 10 n.toNat

/-- The digits of a signed value, with its sign if it is negative. -/
def signedText (n : Int64) : List Char :=
  if n < 0 then '-' :: Nat.toDigits 10 n.toInt.natAbs else Nat.toDigits 10 n.toInt.natAbs

/-- The block of a family of counters. -/
def Counter.lines (counter : Counter) (name : String) : List Line :=
  typeLine name "counter" ::
    counter.series.toList.map fun (labels, n) =>
      sampleLine name.toList labels.text (unsignedText n)

/-- The block of a family of gauges. -/
def Gauge.lines (gauge : Gauge) (name : String) : List Line :=
  typeLine name "gauge" ::
    gauge.series.toList.map fun (labels, n) => sampleLine name.toList labels.text (signedText n)

/-- The labels of a bucket: those of its series, then its bound. -/
def bucketLabels (labels bound : List Char) : List Char :=
  (if labels.isEmpty then [] else labels ++ [',']) ++ "le=\"".toList ++ bound ++ ['"']

/-- The twelve lines of one histogram. -/
def Histogram.lines (histogram : Histogram) (name labels : List Char) : List Line :=
  let bucket (bound : List Char) (n : UInt64) : Line :=
    sampleLine (name ++ "_bucket".toList) (bucketLabels labels bound) (unsignedText n)
  bounds.zipWith (fun bound n => bucket (unsignedText bound) n) histogram.buckets ++
    [bucket "+Inf".toList histogram.count,
     sampleLine (name ++ "_sum".toList) labels (unsignedText histogram.sum),
     sampleLine (name ++ "_count".toList) labels (unsignedText histogram.count)]

/-- The block of a family of histograms. -/
def Timer.lines (timer : Timer) (name : String) : List Line :=
  typeLine name "histogram" ::
    timer.series.toList.flatMap fun (labels, histogram) =>
      histogram.lines name.toList labels.text

namespace Ledger

/-- All lines of a ledger. -/
def lines (ledger : Ledger) : List Line :=
  ledger.registrations.lines "scopemux_registrations_total" ++
  ledger.releases.lines "scopemux_releases_total" ++
  ledger.retirements.lines "scopemux_retirements_total" ++
  ledger.dispatches.lines "scopemux_dispatches_total" ++
  ledger.liveHandlers.lines "scopemux_live_handlers" ++
  ledger.dispatchDuration.lines "scopemux_dispatch_duration_micros" ++
  ledger.contractViolations.lines "scopemux_contract_violations_total"

/-- The ledger as text, every line with its end. -/
def render (ledger : Ledger) : String :=
  String.ofList (ledger.lines.flatMap fun line => line ++ ['\n'])

end Ledger

end Switchboard.Metrics
