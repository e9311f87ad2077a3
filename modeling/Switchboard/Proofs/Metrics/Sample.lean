import Switchboard.Metrics.Exposition

/-!
# `Switchboard.Proofs.Metrics.Sample`: a rendered sample read back

`Sample.read?` reads a line of the rendered ledger: the name of its family, its labels with all
escapes undone, and its value. It knows nothing of how lines are written, and it gets back what was
written whatever the values of the labels are, as long as their names are made of letters, digits
and underscores (`read?_sampleLine`). Different label sets are therefore never rendered alike
(`LabelSet.text_inj`).
-/

set_option autoImplicit false

namespace Switchboard.Metrics

/-! ### Escaped values -/

/-- How a rendered value spells one character. -/
def Label.escapeChar (c : Char) : List Char :=
  if c = '\\' then ['\\', '\\']
  else if c = '"' then ['\\', '"']
  else if c = '\n' then ['\\', 'n']
  else [c]

/-- Replacing the backslashes of a value, then its quotes and then its line feeds is the same as
escaping each character on its own. -/
theorem Label.escape_eq_flatMap (value : List Char) :
    Label.escape value = value.flatMap Label.escapeChar := by
  simp only [Label.escape, Label.replaceAll, List.flatMap_assoc]
  refine congrArg (value.flatMap ·) (funext fun c => ?_)
  by_cases backslash : c = '\\'
  · simp [backslash, Label.escapeChar]
  · by_cases quote : c = '"'
    · simp [quote, Label.escapeChar]
    · by_cases feed : c = '\n' <;> simp [backslash, quote, feed, Label.escapeChar]

/-! ### Reading a line -/

/-- The characters of which the names of labels are made. -/
def isNameChar (c : Char) : Bool := c.isAlphanum || c == '_'

mutual

/-- Reads labels up to the closing brace, from within the name of the first one. -/
def readName (name : List Char) : List Char → Option (List Label × List Char)
  | '=' :: '"' :: rest => readValue name [] rest
  | c :: rest => if isNameChar c then readName (name ++ [c]) rest else none
  | [] => none

/-- Reads labels up to the closing brace, from within the value of the first one. -/
def readValue (name value : List Char) : List Char → Option (List Label × List Char)
  | '\\' :: '\\' :: rest => readValue name (value ++ ['\\']) rest
  | '\\' :: '"' :: rest => readValue name (value ++ ['"']) rest
  | '\\' :: 'n' :: rest => readValue name (value ++ ['\n']) rest
  | '\\' :: _ => none
  | '"' :: ',' :: rest =>
    (readName [] rest).map fun (labels, rest) =>
      (⟨String.ofList name, String.ofList value⟩ :: labels, rest)
  | '"' :: '\x7d' :: rest => some ([⟨String.ofList name, String.ofList value⟩], rest)
  | '"' :: _ => none
  | c :: rest => readValue name (value ++ [c]) rest
  | [] => none

end

/-- Reads the labels of a sample behind its opening brace, up to the closing one. -/
def readLabels : List Char → Option (List Label × List Char)
  | '\x7d' :: rest => some ([], rest)
  | text => readName [] text

/-- The natural number that digits spell. -/
def readDigits (digits : List Char) : Option Nat :=
  if digits ≠ [] ∧ digits.all Char.isDigit then some (Nat.ofDigitChars 10 digits 0) else none

/-- The number that digits spell, with a sign in front if it is negative. -/
def readNumber : List Char → Option Int
  | '-' :: digits => (readDigits digits).map fun n : Nat => -(n : Int)
  | digits => (readDigits digits).map fun n : Nat => (n : Int)

/-- A line of the rendered ledger as it is read. -/
structure Sample where
  name : String
  labels : List Label
  value : Int
deriving DecidableEq, Repr

/-- The sample that a line spells. -/
def Sample.read? (line : Line) : Option Sample := do
  let (labels, rest) ← readLabels (line.dropWhile (· != '\x7b')).tail
  match rest with
  | ' ' :: digits =>
    let value ← readNumber digits
    some ⟨String.ofList (line.takeWhile (· != '\x7b')), labels, value⟩
  | _ => none

/-- A label with a name of letters, digits and underscores, whatever its value is. -/
def Label.Named (label : Label) : Prop := label.name.toList.all isNameChar

instance (label : Label) : Decidable label.Named := inferInstanceAs (Decidable (_ = true))

/-- A label set with such names only. -/
def LabelSet.Named (set : LabelSet) : Prop := ∀ label ∈ set.labels, label.Named

/-- The set of labels with such names. -/
theorem LabelSet.named_ofList {labels : List Label} (named : ∀ label ∈ labels, label.Named) :
    (LabelSet.ofList labels).Named := fun label listed =>
  named label ((List.mergeSort_perm labels Label.le).mem_iff.mp listed)

/-! ### Labels that were rendered -/

/-- An escaped value reaches up to the quote behind it, whatever characters are in it. -/
theorem readValue_escape (name before value rest : List Char) :
    readValue name before (Label.escape value ++ '"' :: rest) =
      readValue name (before ++ value) ('"' :: rest) := by
  rw [Label.escape_eq_flatMap]
  induction value generalizing before with
  | nil => simp
  | cons c value ih =>
    rw [List.flatMap_cons, List.append_assoc]
    -- Each escape has a case of its own in the reader, and every other character is taken as it is.
    by_cases backslash : c = '\\'
    · simp [backslash, Label.escapeChar, readValue, ih]
    · by_cases quote : c = '"'
      · simp [quote, Label.escapeChar, readValue, ih]
      · by_cases feed : c = '\n'
        · simp [feed, Label.escapeChar, readValue, ih]
        · simp [backslash, quote, feed, Label.escapeChar, readValue, ih]

/-- A name reaches up to the sign behind it. -/
theorem readName_append {name : List Char} (named : name.all isNameChar)
    (before rest : List Char) :
    readName before (name ++ '=' :: '"' :: rest) = readValue (before ++ name) [] rest := by
  induction name generalizing before with
  | nil => simp [readName]
  | cons c name ih =>
    obtain ⟨first, others⟩ := Bool.and_eq_true_iff.mp named
    have inside : c ≠ '=' := by
      rintro rfl
      cases first
    simp [readName, inside, first, ih others]

/-- A label is read up to the closing quote of its value. -/
theorem readName_text {label : Label} (named : label.Named) (rest : List Char) :
    readName [] (label.text ++ rest) =
      readValue label.name.toList label.value.toList ('"' :: rest) := by
  have whole : label.text ++ rest = label.name.toList ++ '=' :: '"' ::
      (Label.escape label.value.toList ++ '"' :: rest) := by
    simp [Label.text]
  rw [whole, readName_append named, readValue_escape]
  rfl

/-- All labels of a set are read up to the closing brace. -/
theorem readName_intercalate {labels : List Label} {label : Label} (named : label.Named)
    (others : ∀ label ∈ labels, label.Named) (rest : List Char) :
    readName [] (List.intercalate [','] ((label :: labels).map Label.text) ++ '\x7d' :: rest) =
      some (label :: labels, rest) := by
  induction labels generalizing label with
  | nil =>
    rw [List.map_cons, List.map_nil, List.intercalate_singleton, readName_text named]
    simp [readValue]
  | cons next labels ih =>
    obtain ⟨second, others⟩ := List.forall_mem_cons.mp others
    rw [List.map_cons, List.map_cons, List.intercalate_cons_cons, List.append_assoc,
      List.append_assoc, readName_text named]
    have later := ih second others
    rw [List.map_cons] at later
    simp [readValue, later]

/-- A label does not start with a closing brace. -/
theorem readLabels_label {label : Label} (named : label.Named) (rest : List Char) :
    readLabels (label.text ++ rest) = readName [] (label.text ++ rest) := by
  unfold readLabels
  split
  · -- The label would have to start with the brace, but its name cannot, and no name means a sign.
    rename_i brace
    unfold Label.text at brace
    cases name : label.name.toList with
    | nil => simp [name] at brace
    | cons c name' =>
      have first := List.all_eq_true.mp named c (name ▸ List.mem_cons_self)
      obtain rfl : c = '\x7d' := by simp_all
      cases first
  · rfl

/-- The labels of a set are read up to the brace behind them. -/
theorem readLabels_text {set : LabelSet} (named : set.Named) (rest : List Char) :
    readLabels (set.text ++ '\x7d' :: rest) = some (set.labels, rest) := by
  obtain ⟨labels, ascending⟩ := set
  cases labels with
  | nil => rfl
  | cons label labels =>
    obtain ⟨first, others⟩ := List.forall_mem_cons.mp named
    rw [← readName_intercalate first others, LabelSet.text]
    cases labels with
    | nil =>
      rw [List.map_cons, List.map_nil, List.intercalate_singleton]
      exact readLabels_label first _
    | cons next labels =>
      rw [List.map_cons, List.map_cons, List.intercalate_cons_cons, List.append_assoc,
        List.append_assoc, readLabels_label first]

/-- Two label sets are rendered alike only if they are the same. -/
theorem LabelSet.text_inj {set other : LabelSet} (named : set.Named) (named' : other.Named)
    (same : set.text = other.text) : set = other := by
  have read := readLabels_text named []
  rw [same, readLabels_text named' []] at read
  exact LabelSet.ext (Prod.mk.inj (Option.some.inj read.symm)).1

/-! ### Samples -/

/-- The decimal digits of a number are digits. -/
theorem isDigit_of_mem_toDigits {n : Nat} {c : Char} (digit : c ∈ Nat.toDigits 10 n) : c.isDigit :=
  Nat.isDigit_of_mem_toDigits (by decide) (by decide) digit

/-- The decimal digits of a number spell it. -/
theorem readDigits_toDigits (n : Nat) : readDigits (Nat.toDigits 10 n) = some n := by
  have digits : Nat.toDigits 10 n ≠ [] ∧ (Nat.toDigits 10 n).all Char.isDigit :=
    ⟨Nat.toDigits_ne_nil, List.all_eq_true.mpr fun _ => isDigit_of_mem_toDigits⟩
  rw [readDigits, if_pos digits, Nat.ofDigitChars_ten_toDigits]

/-- A number without a sign is read as it is. -/
theorem readNumber_toDigits (n : Nat) : readNumber (Nat.toDigits 10 n) = some (n : Int) := by
  unfold readNumber
  split
  · rename_i digits sign
    have digit : '-' ∈ Nat.toDigits 10 n := sign ▸ List.mem_cons_self
    exact absurd (isDigit_of_mem_toDigits digit) (by decide)
  · rw [readDigits_toDigits]
    rfl

/-- The value of a counter is read back. -/
theorem readNumber_unsignedText (n : UInt64) : readNumber (unsignedText n) = some n.toNat :=
  readNumber_toDigits n.toNat

/-- The value of a gauge is read back, with its sign. -/
theorem readNumber_signedText (n : Int64) : readNumber (signedText n) = some n.toInt := by
  have sign : n < 0 ↔ n.toInt < 0 := Int64.lt_iff_toInt_lt
  simp only [signedText, sign]
  by_cases negative : n.toInt < 0
  · have size : -(n.toInt.natAbs : Int) = n.toInt := by omega
    rw [if_pos negative, readNumber, readDigits_toDigits, Option.map_some, size]
  · have size : (n.toInt.natAbs : Int) = n.toInt := by omega
    rw [if_neg negative, readNumber_toDigits, size]

/-- What is rendered as a sample is read as this sample. -/
theorem read?_sampleLine {name : String} (plain : name.toList.all isNameChar)
    {set : LabelSet} (named : set.Named) {digits : List Char} {value : Int}
    (number : readNumber digits = some value) :
    Sample.read? (sampleLine name.toList set.text digits) = some ⟨name, set.labels, value⟩ := by
  have before (c) (inside : c ∈ name.toList) : (c != '\x7b') = true := by
    rw [bne_iff_ne]
    rintro rfl
    cases List.all_eq_true.mp plain _ inside
  have whole : sampleLine name.toList set.text digits =
      name.toList ++ '\x7b' :: (set.text ++ '\x7d' :: ' ' :: digits) := by
    simp [sampleLine]
  rw [Sample.read?, whole, List.takeWhile_append_of_pos before, List.dropWhile_append_of_pos before]
  simp [readLabels_text named, number]

end Switchboard.Metrics
