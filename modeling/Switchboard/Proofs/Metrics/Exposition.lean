import Switchboard.Proofs.Metrics.Sample

/-!
# `Switchboard.Proofs.Metrics.Exposition`: what the rendered ledger says

A ledger is made by entries: additions to counters, moves of the gauge and durations, each with
labels in any order and with any values. The label sets in a ledger are those that its entries touch
(`Ledger.touched_ofEntries`). No line has a line feed inside, so that the rendered text is made of
the lines of its blocks, and the block of a counter or of the gauge has one line for each label set
that was ever touched, which is read back as this set and its value (`Ledger.render_faithful`).
-/

set_option autoImplicit false

namespace Switchboard.Metrics

/-! ### Blocks -/

/-- The lines of a block: its type, and one sample for each label set that was touched, with the
labels of this set and its value. -/
def IsBlock (name kind : String) (touched : LabelSet → Prop) (value : LabelSet → Int)
    (block : List Line) : Prop :=
  ∃ (samples : List Line) (sets : List LabelSet),
    block = ("# TYPE " ++ name ++ " " ++ kind).toList :: samples ∧
      sets.Nodup ∧ (∀ set, set ∈ sets ↔ touched set) ∧
      samples.map Sample.read? = sets.map fun set => some ⟨name, set.labels, value set⟩

/-- The lines of a family make up a block with its label sets and their values. -/
theorem isBlock_of_family {α : Type} {family : Family α} {name kind : String}
    {touched : LabelSet → Prop} {value : LabelSet → Int} {text : α → List Char} {amount : α → Int}
    (plain : name.toList.all isNameChar) (named : ∀ set ∈ family, set.Named)
    (kept : ∀ set, set ∈ family ↔ touched set)
    (values : ∀ set a, family[set]? = some a → value set = amount a)
    (numbers : ∀ a, readNumber (text a) = some (amount a)) :
    IsBlock name kind touched value
      (typeLine name kind :: family.toList.map fun (set, a) =>
        sampleLine name.toList set.text (text a)) := by
  have opening : typeLine name kind = ("# TYPE " ++ name ++ " " ++ kind).toList := by
    rw [String.toList_append, String.toList_append, String.toList_append]
    rfl
  rw [opening]
  -- The sets of the block are the keys of the family, one sample each.
  refine ⟨_, family.keys, rfl, Std.ExtTreeMap.nodup_keys, fun set => ?_, ?_⟩
  · rw [Std.ExtTreeMap.mem_keys, kept]
  · rw [← Std.ExtTreeMap.map_fst_toList_eq_keys, List.map_map, List.map_map]
    refine List.map_congr_left fun (set, a) listed => ?_
    have found : family[set]? = some a := Std.ExtTreeMap.mem_toList_iff_getElem?_eq_some.mp listed
    have inside : set ∈ family := Std.ExtTreeMap.mem_iff_isSome_getElem?.mpr (by simp [found])
    show Sample.read? (sampleLine name.toList set.text (text a)) =
      some ⟨name, set.labels, value set⟩
    rw [read?_sampleLine plain (named set inside) (numbers a), values set a found]

/-! ### Entries -/

/-- The counters of a ledger. -/
inductive Tally
  | registrations
  | releases
  | retirements
  | dispatches
  | contractViolations
deriving DecidableEq, Repr

namespace Tally

/-- The name under which a counter is rendered. -/
def name : Tally → String
  | registrations => "scopemux_registrations_total"
  | releases => "scopemux_releases_total"
  | retirements => "scopemux_retirements_total"
  | dispatches => "scopemux_dispatches_total"
  | contractViolations => "scopemux_contract_violations_total"

/-- The counter in a ledger. -/
def counter (ledger : Ledger) : Tally → Counter
  | registrations => ledger.registrations
  | releases => ledger.releases
  | retirements => ledger.retirements
  | dispatches => ledger.dispatches
  | contractViolations => ledger.contractViolations

/-- The ledger with a counter in its place. -/
def put (ledger : Ledger) (counter : Counter) : Tally → Ledger
  | registrations => { ledger with registrations := counter }
  | releases => { ledger with releases := counter }
  | retirements => { ledger with retirements := counter }
  | dispatches => { ledger with dispatches := counter }
  | contractViolations => { ledger with contractViolations := counter }

/-- Only the counter that is put in its place changes. -/
theorem counter_put (tally other : Tally) (ledger : Ledger) (counter : Counter) :
    tally.counter (other.put ledger counter) =
      if other = tally then counter else tally.counter ledger := by
  cases tally <;> cases other <;> rfl

/-- A counter that is put in its place leaves the gauge. -/
theorem liveHandlers_put (tally : Tally) (ledger : Ledger) (counter : Counter) :
    (tally.put ledger counter).liveHandlers = ledger.liveHandlers := by
  cases tally <;> rfl

/-- A counter that is put in its place leaves the durations. -/
theorem dispatchDuration_put (tally : Tally) (ledger : Ledger) (counter : Counter) :
    (tally.put ledger counter).dispatchDuration = ledger.dispatchDuration := by
  cases tally <;> rfl

/-- The name of a counter is plain. -/
theorem plain_name (tally : Tally) : tally.name.toList.all isNameChar := by
  cases tally <;> decide

end Tally

/-- What is entered into a ledger, with labels in any order. -/
inductive Entry
  | count (tally : Tally) (labels : List Label) (n : UInt64)
  | move (labels : List Label) (n : Int64)
  | observe (labels : List Label) (duration : Duration)
deriving DecidableEq, Repr

/-- The labels of an entry. -/
def Entry.labels : Entry → List Label
  | count _ labels _ | move labels _ | observe labels _ => labels

namespace Entry

/-- Whether an entry adds to a counter of a label set. -/
def Counts (tally : Tally) (set : LabelSet) (entry : Entry) : Prop :=
  ∃ labels n, entry = count tally labels n ∧ LabelSet.ofList labels = set

/-- Whether an entry moves the gauge of a label set. -/
def Moves (set : LabelSet) (entry : Entry) : Prop :=
  ∃ labels n, entry = move labels n ∧ LabelSet.ofList labels = set

/-- Whether an entry is a duration for a label set. -/
def Observes (set : LabelSet) (entry : Entry) : Prop :=
  ∃ labels duration, entry = observe labels duration ∧ LabelSet.ofList labels = set

end Entry

/-- The label sets of a family are those that were touched. -/
theorem Family.mem_update {α : Type} {family : Family α} {labels set : LabelSet} {start : α}
    {change : α → α} :
    set ∈ family.update labels start change ↔ set ∈ family ∨ labels = set := by
  rw [Std.ExtTreeMap.mem_iff_isSome_getElem?, Std.ExtTreeMap.mem_iff_isSome_getElem?,
    Family.getElem?_update]
  by_cases same : set = labels
  · simp [same]
  · simp [same, Ne.symm same]

namespace Ledger

/-- Adds to a counter, moves the gauge or takes in a duration. -/
def enter (ledger : Ledger) : Entry → Ledger
  | .count tally labels n => tally.put ledger ((tally.counter ledger).add (.ofList labels) n)
  | .move labels n => { ledger with liveHandlers := ledger.liveHandlers.add (.ofList labels) n }
  | .observe labels duration =>
    { ledger with
      dispatchDuration := ledger.dispatchDuration.observe (.ofList labels) duration }

/-- The ledger with these entries and no others. -/
def ofEntries (entries : List Entry) : Ledger := entries.foldl enter empty

variable {entries : List Entry}

/-- If it is known which label sets a single entry touches, so it is of all of them. -/
theorem touched_ofEntries (touched : Ledger → LabelSet → Prop) {touches : LabelSet → Entry → Prop}
    (none : ∀ set, ¬ touched empty set)
    (step : ∀ ledger entry set,
      touched (ledger.enter entry) set ↔ touched ledger set ∨ touches set entry) (set : LabelSet) :
    touched (ofEntries entries) set ↔ ∃ entry ∈ entries, touches set entry := by
  have run (ledger : Ledger) : touched (entries.foldl enter ledger) set ↔
      touched ledger set ∨ ∃ entry ∈ entries, touches set entry := by
    induction entries generalizing ledger with
    | nil => simp
    | cons entry rest ih => simp [ih, step, or_assoc]
  rw [ofEntries, run, or_iff_right (none set)]

/-- A counter has the label sets for which entries count. -/
theorem mem_counter (tally : Tally) (set : LabelSet) :
    set ∈ (tally.counter (ofEntries entries)).series ↔
      ∃ entry ∈ entries, entry.Counts tally set := by
  refine touched_ofEntries (fun ledger set => set ∈ (tally.counter ledger).series)
    (fun set => ?_) (fun ledger entry set => ?_) set
  · cases tally <;> exact Std.ExtTreeMap.not_mem_empty
  · cases entry with
    | count other labels n =>
      rw [enter, Tally.counter_put]
      by_cases same : other = tally
      · subst same
        rw [if_pos rfl, Counter.add, Family.mem_update]
        simp [Entry.Counts]
      · simp [Entry.Counts, same]
    | move | observe => cases tally <;> simp [enter, Tally.counter, Entry.Counts]

/-- The gauge has the label sets for which entries move it. -/
theorem mem_liveHandlers (set : LabelSet) :
    set ∈ (ofEntries entries).liveHandlers.series ↔ ∃ entry ∈ entries, entry.Moves set := by
  refine touched_ofEntries (fun ledger set => set ∈ ledger.liveHandlers.series)
    (fun set => Std.ExtTreeMap.not_mem_empty) (fun ledger entry set => ?_) set
  cases entry with
  | move labels n =>
    rw [enter, Gauge.add, Family.mem_update]
    simp [Entry.Moves]
  | count tally => simp [enter, Tally.liveHandlers_put, Entry.Moves]
  | observe => simp [enter, Entry.Moves]

/-- The durations have the label sets for which entries observe one. -/
theorem mem_dispatchDuration (set : LabelSet) :
    set ∈ (ofEntries entries).dispatchDuration.series ↔ ∃ entry ∈ entries, entry.Observes set := by
  refine touched_ofEntries (fun ledger set => set ∈ ledger.dispatchDuration.series)
    (fun set => Std.ExtTreeMap.not_mem_empty) (fun ledger entry set => ?_) set
  cases entry with
  | observe labels duration =>
    rw [enter, Timer.observe, Family.mem_update]
    simp [Entry.Observes]
  | count tally => simp [enter, Tally.dispatchDuration_put, Entry.Observes]
  | move => simp [enter, Entry.Observes]

end Ledger

/-! ### Lines -/

/-- A text without line feeds. -/
def OneLine (text : List Char) : Prop := '\n' ∉ text

instance (text : List Char) : Decidable (OneLine text) :=
  inferInstanceAs (Decidable ('\n' ∉ text))

/-- Texts without line feeds can be joined. -/
theorem OneLine.append {text more : List Char} (front : OneLine text) (back : OneLine more) :
    OneLine (text ++ more) := by
  simp_all [OneLine]

/-- A plain name is on one line. -/
theorem oneLine_of_plain {name : List Char} (plain : name.all isNameChar) : OneLine name := by
  intro feed
  cases List.all_eq_true.mp plain _ feed

/-- A number is on one line. -/
theorem oneLine_toDigits (n : Nat) : OneLine (Nat.toDigits 10 n) := by
  intro feed
  exact absurd (isDigit_of_mem_toDigits feed) (by decide)

/-- A number with a sign is on one line. -/
theorem oneLine_signedText (n : Int64) : OneLine (signedText n) := by
  unfold signedText
  split
  · show OneLine (['-'] ++ _)
    exact OneLine.append (by decide) (oneLine_toDigits _)
  · exact oneLine_toDigits _

/-- The line feeds of a value are escaped. -/
theorem oneLine_escape (value : List Char) : OneLine (Label.escape value) := by
  rw [Label.escape_eq_flatMap]
  intro feed
  obtain ⟨c, -, inside⟩ := List.mem_flatMap.mp feed
  unfold Label.escapeChar at inside
  split at inside
  · simp at inside
  · split at inside
    · simp at inside
    · split at inside
      · simp at inside
      · rename_i other
        exact other (List.mem_singleton.mp inside).symm

/-- A label is on one line, whatever its value is. -/
theorem oneLine_label {label : Label} (named : label.Named) : OneLine label.text :=
  (((oneLine_of_plain named).append (by decide)).append (oneLine_escape _)).append (by decide)

/-- Texts without line feeds can be listed with commas between them. -/
theorem oneLine_intercalate {texts : List (List Char)} (all : ∀ text ∈ texts, OneLine text) :
    OneLine (List.intercalate [','] texts) := by
  induction texts with
  | nil => decide
  | cons first rest ih =>
    obtain ⟨head, tail⟩ := List.forall_mem_cons.mp all
    cases rest with
    | nil => rwa [List.intercalate_singleton]
    | cons second rest =>
      rw [List.intercalate_cons_cons]
      exact (head.append (by decide)).append (ih tail)

/-- A label set is on one line. -/
theorem oneLine_text {set : LabelSet} (named : set.Named) : OneLine set.text :=
  oneLine_intercalate fun _ listed => by
    obtain ⟨label, inside, rfl⟩ := List.mem_map.mp listed
    exact oneLine_label (named label inside)

/-- A sample is on one line. -/
theorem oneLine_sampleLine {name labels value : List Char} (first : OneLine name)
    (second : OneLine labels) (third : OneLine value) : OneLine (sampleLine name labels value) :=
  (((first.append (by decide)).append second).append (by decide)).append third

/-- The labels of a bucket are on one line. -/
theorem oneLine_bucketLabels {labels bound : List Char} (first : OneLine labels)
    (second : OneLine bound) : OneLine (bucketLabels labels bound) := by
  unfold bucketLabels
  refine ((OneLine.append ?_ (by decide)).append second).append (by decide)
  split
  · decide
  · exact first.append (by decide)

/-- Each line of a histogram is one. -/
theorem oneLine_histogram {histogram : Histogram} {name labels : List Char} (first : OneLine name)
    (second : OneLine labels) : ∀ line ∈ histogram.lines name labels, OneLine line := by
  have bucket {bound : List Char} (third : OneLine bound) (n : UInt64) :
      OneLine
        (sampleLine (name ++ "_bucket".toList) (bucketLabels labels bound) (unsignedText n)) :=
    oneLine_sampleLine (first.append (by decide)) (oneLine_bucketLabels second third)
      (oneLine_toDigits _)
  have summary {suffix : List Char} (third : OneLine suffix) (n : UInt64) :
      OneLine (sampleLine (name ++ suffix) labels (unsignedText n)) :=
    oneLine_sampleLine (first.append third) second (oneLine_toDigits _)
  unfold Histogram.lines
  refine List.forall_mem_append.mpr ⟨fun line listed => ?_, ?_⟩
  · rw [← List.map_uncurry_zip_eq_zipWith] at listed
    obtain ⟨⟨bound, n⟩, -, rfl⟩ := List.mem_map.mp listed
    exact bucket (oneLine_toDigits _) n
  · simp only [List.forall_mem_cons]
    exact ⟨bucket (by decide) _, summary (by decide) _, summary (by decide) _, by simp⟩

/-- Lines are found again in a text in which each of them has its end. -/
theorem splitOn_flatMap {lines : List Line} (all : ∀ line ∈ lines, OneLine line) :
    (lines.flatMap fun line => line ++ ['\n']).splitOn '\n' = lines ++ [[]] := by
  have joined : (lines.flatMap fun line => line ++ ['\n']) =
      List.intercalate ['\n'] (lines ++ [[]]) := by
    induction lines with
    | nil => rfl
    | cons line rest ih =>
      rw [List.flatMap_cons, ih fun line listed => all line (List.mem_cons_of_mem _ listed)]
      cases rest with
      | nil => simp [List.intercalate]
      | cons =>
        rw [List.cons_append, List.cons_append, List.cons_append, List.intercalate_cons_cons]
  rw [joined, List.splitOn_intercalate]
  · exact List.forall_mem_append.mpr ⟨all, by simp⟩
  · simp

namespace Ledger

/-- A ledger with names of letters, digits and underscores only. -/
structure Named (ledger : Ledger) : Prop where
  counter : ∀ tally : Tally, ∀ set ∈ (tally.counter ledger).series, set.Named
  liveHandlers : ∀ set ∈ ledger.liveHandlers.series, set.Named
  dispatchDuration : ∀ set ∈ ledger.dispatchDuration.series, set.Named

/-- A ledger has the names that its entries have. -/
theorem named_ofEntries {entries : List Entry}
    (named : ∀ entry ∈ entries, ∀ label ∈ entry.labels, label.Named) :
    (ofEntries entries).Named where
  counter tally set touched := by
    obtain ⟨_, listed, labels, n, rfl, rfl⟩ := (mem_counter tally set).mp touched
    exact LabelSet.named_ofList (named _ listed)
  liveHandlers set touched := by
    obtain ⟨_, listed, labels, n, rfl, rfl⟩ := (mem_liveHandlers set).mp touched
    exact LabelSet.named_ofList (named _ listed)
  dispatchDuration set touched := by
    obtain ⟨_, listed, labels, duration, rfl, rfl⟩ := (mem_dispatchDuration set).mp touched
    exact LabelSet.named_ofList (named _ listed)

/-- No line of a ledger has a line feed inside. -/
theorem Named.oneLine {ledger : Ledger} (named : ledger.Named) :
    ∀ line ∈ ledger.lines, OneLine line := by
  -- Only label sets of the ledger are rendered, and their names are plain.
  have inside {α : Type} {family : Family α} {set : LabelSet} {a : α}
      (listed : (set, a) ∈ family.toList) : set ∈ family := by
    rw [Std.ExtTreeMap.mem_iff_isSome_getElem?,
      Std.ExtTreeMap.mem_toList_iff_getElem?_eq_some.mp listed]
    rfl
  have counter (tally : Tally) :
      ∀ line ∈ (tally.counter ledger).lines tally.name, OneLine line := by
    refine List.forall_mem_cons.mpr ⟨by cases tally <;> decide, fun line listed => ?_⟩
    obtain ⟨⟨set, n⟩, kept, rfl⟩ := List.mem_map.mp listed
    exact oneLine_sampleLine (oneLine_of_plain tally.plain_name)
      (oneLine_text (named.counter tally set (inside kept))) (oneLine_toDigits _)
  have gauge : ∀ line ∈ ledger.liveHandlers.lines "scopemux_live_handlers", OneLine line := by
    refine List.forall_mem_cons.mpr ⟨by decide, fun line listed => ?_⟩
    obtain ⟨⟨set, n⟩, kept, rfl⟩ := List.mem_map.mp listed
    exact oneLine_sampleLine (by decide)
      (oneLine_text (named.liveHandlers set (inside kept))) (oneLine_signedText _)
  have timer : ∀ line ∈ ledger.dispatchDuration.lines "scopemux_dispatch_duration_micros",
      OneLine line := by
    refine List.forall_mem_cons.mpr ⟨by decide, fun line listed => ?_⟩
    obtain ⟨⟨set, histogram⟩, kept, member⟩ := List.mem_flatMap.mp listed
    exact oneLine_histogram (by decide)
      (oneLine_text (named.dispatchDuration set (inside kept))) line member
  simp only [lines, List.forall_mem_append]
  exact ⟨⟨⟨⟨⟨⟨counter .registrations, counter .releases⟩, counter .retirements⟩,
    counter .dispatches⟩, gauge⟩, timer⟩, counter .contractViolations⟩

/-- A text renders entries if it consists of seven blocks in their order, each line with its end.
The blocks of the counters and of the gauge have one sample for each label set that an entry
touches, with the value that can be asked for. -/
def Renders (entries : List Entry) (text : List Char) : Prop :=
  ∃ (counter : Tally → List Line) (gauge timer : List Line),
    text.splitOn '\n' =
      counter .registrations ++ counter .releases ++ counter .retirements ++ counter .dispatches ++
        gauge ++ timer ++ counter .contractViolations ++ [[]] ∧
    (∀ tally, IsBlock tally.name "counter"
      (fun set => ∃ entry ∈ entries, entry.Counts tally set)
      (fun set => ((tally.counter (ofEntries entries)).get set).toNat) (counter tally)) ∧
    IsBlock "scopemux_live_handlers" "gauge"
      (fun set => ∃ entry ∈ entries, entry.Moves set)
      (fun set => ((ofEntries entries).liveHandlers.get set).toInt) gauge ∧
    timer = (ofEntries entries).dispatchDuration.lines "scopemux_dispatch_duration_micros"

/-- A rendered ledger says what was entered into it, whatever the values of the labels are. No two
label sets are rendered alike. -/
theorem render_faithful {entries : List Entry}
    (named : ∀ entry ∈ entries, ∀ label ∈ entry.labels, label.Named) :
    Renders entries (ofEntries entries).render.toList ∧
    ∀ set other : LabelSet, set.Named → other.Named → set.text = other.text → set = other := by
  have clean := named_ofEntries named
  refine ⟨⟨fun tally => (tally.counter (ofEntries entries)).lines tally.name,
    (ofEntries entries).liveHandlers.lines "scopemux_live_handlers", _, ?_, fun tally => ?_, ?_,
    rfl⟩, fun _ _ => LabelSet.text_inj⟩
  · rw [render, String.toList_ofList, splitOn_flatMap clean.oneLine]
    rfl
  · refine isBlock_of_family tally.plain_name (clean.counter tally) (mem_counter tally)
      (fun set n found => ?_) readNumber_unsignedText
    rw [Counter.get, found]
    rfl
  · refine isBlock_of_family (by decide) clean.liveHandlers mem_liveHandlers
      (fun set n found => ?_) readNumber_signedText
    rw [Gauge.get, found]
    rfl

/-- Labels that look like the end of a value, of a line and like another sample. -/
def misleadingLabels : List Entry := [
  .count .contractViolations [⟨"scope", "a\"\x7d 1\nscopemux_releases_total\x7bscope=\"b"⟩] 1,
  .count .contractViolations [⟨"scope", "a\\"⟩, ⟨"", ","⟩] 2,
  .move [⟨"scope", "\\n"⟩] (-1),
  .move [⟨"scope", "\n"⟩] 1]

/-- The ledger with these entries as it is rendered. -/
def renderedMisleading : String :=
  "# TYPE scopemux_registrations_total counter\n" ++
  "# TYPE scopemux_releases_total counter\n" ++
  "# TYPE scopemux_retirements_total counter\n" ++
  "# TYPE scopemux_dispatches_total counter\n" ++
  "# TYPE scopemux_live_handlers gauge\n" ++
  "scopemux_live_handlers\x7bscope=\"\\n\"\x7d 1\n" ++
  "scopemux_live_handlers\x7bscope=\"\\\\n\"\x7d -1\n" ++
  "# TYPE scopemux_dispatch_duration_micros histogram\n" ++
  "# TYPE scopemux_contract_violations_total counter\n" ++
  "scopemux_contract_violations_total\x7b=\",\",scope=\"a\\\\\"\x7d 2\n" ++
  "scopemux_contract_violations_total\x7bscope=" ++
    "\"a\\\"\x7d 1\\nscopemux_releases_total\x7bscope=\\\"b\"\x7d 1\n"

/-- What looks like the end of a value or like another sample stays within the value. -/
theorem render_faithful_of_misleading_labels :
    (∀ entry ∈ misleadingLabels, ∀ label ∈ entry.labels, label.Named) ∧
      (ofEntries misleadingLabels).render = renderedMisleading ∧
      Renders misleadingLabels renderedMisleading.toList := by
  have named : ∀ entry ∈ misleadingLabels, ∀ label ∈ entry.labels, label.Named := by decide
  have sorted : LabelSet.ofList [⟨"scope", "a\\"⟩, ⟨"", ","⟩] =
      ⟨[⟨"", ","⟩, ⟨"scope", "a\\"⟩], by decide⟩ :=
    (LabelSet.ofList_eq_ofList_iff.mpr (by decide)).trans (LabelSet.ofList_labels ⟨_, _⟩)
  have rendered : (ofEntries misleadingLabels).render = renderedMisleading := by
    simp only [ofEntries, misleadingLabels, List.foldl_cons, List.foldl_nil, enter, sorted]
    decide +kernel
  exact ⟨named, rendered, rendered ▸ (render_faithful named).1⟩

end Ledger

end Switchboard.Metrics
