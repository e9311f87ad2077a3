import Switchboard.Proofs.Json.Syntax

/-!
# `Switchboard.Proofs.Json.Recognition`: what is read is JSON

The converse of `Grammatical.exists_written`. Tokens that are cut off are what the grammar calls
numbers and strings, and a run of them that spells a value is written as a JSON value. `Frame.Ajar`
says how a container that is still open was written so far; it follows the steps of `Opened`. So
reading decides the grammar: a text holds one value and no more exactly if it is a JSON value with
blanks around it (`Document.alone_iff`).
-/

set_option autoImplicit false

namespace Switchboard.Json

/-! ### Tokens -/

section
variable {text written after : List Char}

/-- What is cut off as digits is digits. -/
theorem digits_of_cutDigits? (cut : cutDigits? text = some (written, after)) : Digits written := by
  rw [cutDigits?_append cut] at cut
  obtain ⟨nonempty, all, -⟩ := cutDigits?_append_eq_iff.mp cut
  exact ⟨nonempty, all⟩

/-- What is cut off as a whole part is digits without a leading zero. -/
theorem digits_of_cutWhole? (cut : cutWhole? text = some (written, after)) :
    Digits written ∧ (written = ['0'] ∨ written.head? ≠ some '0') := by
  unfold cutWhole? at cut
  split at cut
  case h_1 =>
    split at cut
    · cases cut
    · cases cut
      exact ⟨⟨List.cons_ne_nil _ _, List.forall_mem_singleton.mpr rfl⟩, .inl rfl⟩
  case h_2 nonzero =>
    refine ⟨digits_of_cutDigits? cut, .inr fun start => ?_⟩
    obtain ⟨more, rfl⟩ := List.head?_eq_some_iff.mp start
    exact nonzero _ (cutDigits?_append cut)

/-- What is cut off as a fraction is nothing or a point and digits. -/
theorem fraction_of_cutFraction? (cut : cutFraction? text = some (written, after)) :
    written = [] ∨ ∃ digits, written = '.' :: digits ∧ Digits digits := by
  unfold cutFraction? at cut
  split at cut
  · obtain ⟨⟨digits, after⟩, cut, same⟩ := Option.map_eq_some_iff.mp cut
    cases same
    exact .inr ⟨digits, rfl, digits_of_cutDigits? cut⟩
  · cases cut
    exact .inl rfl

/-- What is cut off as an exponent is nothing or a mark, a sign and digits. -/
theorem exponent_of_cutExponent? (cut : cutExponent? text = some (written, after)) :
    written = [] ∨ ∃ mark sign digits, written = mark :: (sign ++ digits) ∧
      (mark = 'e' ∨ mark = 'E') ∧ (sign = [] ∨ sign = ['+'] ∨ sign = ['-']) ∧ Digits digits := by
  unfold cutExponent? at cut
  -- A text that does not start with a mark, or with one and no digits behind it, has no exponent.
  split at cut
  case h_2 =>
    cases cut
    exact .inl rfl
  case h_1 mark rest =>
    split at cut
    case isFalse =>
      cases cut
      exact .inl rfl
    case isTrue marked =>
      replace marked : mark = 'e' ∨ mark = 'E' := by simpa using marked
      split at cut
      case h_2 => cases cut
      case h_1 sign digits =>
        split at cut
        case isTrue signed =>
          obtain ⟨⟨digits, after⟩, cut, same⟩ := Option.map_eq_some_iff.mp cut
          cases same
          refine .inr ⟨mark, [sign], digits, rfl, marked, .inr ?_, digits_of_cutDigits? cut⟩
          simpa using signed
        case isFalse =>
          obtain ⟨⟨digits, after⟩, cut, same⟩ := Option.map_eq_some_iff.mp cut
          cases same
          exact .inr ⟨mark, [], digits, rfl, marked, .inl rfl, digits_of_cutDigits? cut⟩

/-- What is cut off as a number without its sign is a numeral. -/
theorem numeral_of_cutUnsigned? (cut : cutUnsigned? text = some (written, after)) :
    ∃ whole fraction exponent, written = whole ++ fraction ++ exponent ∧
      Numeral whole fraction exponent := by
  simp only [cutUnsigned?, Option.bind_eq_bind, Option.bind_eq_some_iff, Option.some.injEq,
    Prod.mk.injEq, Prod.exists] at cut
  obtain ⟨whole, _, first, fraction, _, second, exponent, _, third, rfl, -⟩ := cut
  obtain ⟨digits, lead⟩ := digits_of_cutWhole? first
  exact ⟨whole, fraction, exponent, rfl, digits, lead, fraction_of_cutFraction? second,
    exponent_of_cutExponent? third⟩

/-- What is cut off as a number is a value of the grammar. -/
theorem grammatical_of_cutNumber? (cut : cutNumber? text = some (written, after)) :
    Grammatical written := by
  unfold cutNumber? at cut
  split at cut
  · obtain ⟨⟨digits, after⟩, cut, same⟩ := Option.map_eq_some_iff.mp cut
    cases same
    obtain ⟨whole, fraction, exponent, rfl, numeral⟩ := numeral_of_cutUnsigned? cut
    exact .number (.inr rfl) numeral
  · obtain ⟨whole, fraction, exponent, rfl, numeral⟩ := numeral_of_cutUnsigned? cut
    exact .number (.inl rfl) numeral

/-- A token that is a whole value is written as one. -/
theorem grammatical_of_cutToken? {value : Scalar}
    (cut : cutToken? text = some (.scalar value, after)) : Grammatical value.source := by
  match value with
  | .null => exact .nullWord
  | .bool true => exact .trueWord
  | .bool false => exact .falseWord
  | .number written => exact grammatical_of_cutNumber? (cutNumber?_of_cutToken? cut)
  | .string inside =>
    rw [cutToken?_append cut] at cut
    have quote : (Token.scalar (.string inside)).source ++ after =
        '"' :: (inside ++ '"' :: after) := by
      simp [Token.source, Scalar.source]
    rw [quote] at cut
    obtain ⟨⟨front, after⟩, cut, same⟩ := Option.map_eq_some_iff.mp cut
    cases same
    exact .string ⟨inside_of_cutString? cut⟩

end

/-- A lexeme as it stands in a text: blanks, and a token whose value is one of the grammar. -/
structure Lexeme.Proper (lexeme : Lexeme) : Prop where
  gap : lexeme.gap.all isGap
  value : ∀ value, lexeme.token = .scalar value → Grammatical value.source

/-- Lexemes that were cut off a text are proper. -/
theorem Separable.proper {run : List Lexeme} {rest : List Char} (cut : Separable run rest) :
    ∀ lexeme ∈ run, lexeme.Proper := by
  induction run with
  | nil => exact List.forall_mem_nil _
  | cons lexeme run ih =>
    obtain ⟨blank, first, others⟩ := cut
    refine List.forall_mem_cons.mpr ⟨⟨blank, fun value token => ?_⟩, ih others⟩
    rw [token] at first
    exact grammatical_of_cutToken? first

/-! ### Runs of lexemes -/

/-- The text of a run of lexemes, last one first. -/
def writtenRun (run : List Lexeme) : List Char := run.reverse.flatMap Lexeme.source

/-- The last lexeme is written last. -/
@[simp]
theorem writtenRun_cons (lexeme : Lexeme) (run : List Lexeme) :
    writtenRun (lexeme :: run) = writtenRun run ++ (lexeme.gap ++ lexeme.token.source) := by
  simp [writtenRun, Lexeme.source]

/-- Runs are written one after the other. -/
@[simp]
theorem writtenRun_append (run before : List Lexeme) :
    writtenRun (run ++ before) = writtenRun before ++ writtenRun run := by
  simp [writtenRun]

/-- What is written behind the last comma of an open array, given the items before it. -/
inductive ItemBegun : List Padded → Due → List Char → Prop
  | first : ItemBegun [] .valueOrClose []
  | next (front : List Padded) : ItemBegun front .value []
  -- Blanks behind the item are only known with the lexeme that they stand before.
  | item (front : List Padded) (before : Blanks) {core : List Char}
      (value : Grammatical core) : ItemBegun front .commaOrClose (before.text ++ core)

/-- What is written behind the last comma of an open object, given the members before it. -/
inductive SlotBegun : List Slot → Due → List Char → Prop
  | first : SlotBegun [] .nameOrClose []
  | next (front : List Slot) : SlotBegun front .name []
  | name (front : List Slot) (before : Blanks) {core : List Char} (string : StringText core) :
      SlotBegun front .colon (before.text ++ core)
  | colon (front : List Slot) (name : Padded) (string : StringText name.core) :
      SlotBegun front .value (name.text ++ [':'])
  | value (front : List Slot) (name : Padded) (before : Blanks) {core : List Char}
      (string : StringText name.core) (value : Grammatical core) :
      SlotBegun front .commaOrClose (name.text ++ ':' :: (before.text ++ core))

/-- A text behind which an array is open: its finished items, each with its comma, and what comes
after them. -/
def ArrayAjar (text : List Char) (due : Due) : Prop :=
  ∃ (gap : Blanks) (front : List Padded) (last : List Char),
    text = gap.text ++ '[' :: (front.flatMap (·.text ++ [',']) ++ last) ∧
      (∀ item ∈ front, Grammatical item.core) ∧ ItemBegun front due last

/-- A text behind which an object is open: its finished members, each with its comma, and what comes
after them. -/
def ObjectAjar (text : List Char) (due : Due) : Prop :=
  ∃ (gap : Blanks) (front : List Slot) (last : List Char),
    text = gap.text ++ '\x7b' :: (front.flatMap (·.text ++ [',']) ++ last) ∧
      (∀ slot ∈ front, StringText slot.name.core ∧ Grammatical slot.value.core) ∧
      SlotBegun front due last

/-- A text that is a value with blanks before it. -/
def Indented (text : List Char) : Prop :=
  ∃ (gap : Blanks) (core : List Char), text = gap.text ++ core ∧ Grammatical core

/-- Before the last text each one has a comma behind it. -/
theorem intercalate_comma_concat (front : List (List Char)) (last : List Char) :
    List.intercalate [','] (front ++ [last]) = front.flatMap (· ++ [',']) ++ last := by
  induction front with
  | nil => simp
  | cons first front ih =>
    obtain ⟨second, rest, same⟩ := List.exists_cons_of_ne_nil
      (List.append_ne_nil_of_right_ne_nil front (List.cons_ne_nil last []))
    rw [List.cons_append, same, List.intercalate_cons_cons, ← same, ih]
    simp

/-- Texts between brackets are texts with a comma each, and one last text. -/
theorem enclosed_concat (opening closing : Char) (empty : Blanks) (front : List (List Char))
    (last : List Char) :
    enclosed opening closing empty (front ++ [last]) =
      opening :: (front.flatMap (· ++ [',']) ++ (last ++ [closing])) := by
  have between := intercalate_comma_concat front last
  cases front with
  | nil => simp [enclosed]
  | cons first front =>
    rw [List.cons_append] at between ⊢
    rw [enclosed, between]
    simp

namespace ArrayAjar

variable {text more : List Char} {due : Due}

/-- Behind its bracket an array is open. -/
theorem start (gap : Blanks) : ArrayAjar (gap.text ++ ['[']) .valueOrClose :=
  ⟨gap, [], [], rfl, List.forall_mem_nil _, .first⟩

/-- An item where a value is due keeps the array open. -/
theorem item (ajar : ArrayAjar text due) (admits : due.admitsValue) (value : Indented more) :
    ArrayAjar (text ++ more) .commaOrClose := by
  obtain ⟨gap, front, last, rfl, values, begun⟩ := ajar
  obtain ⟨before, core, rfl, value⟩ := value
  cases begun with
  | first | next => exact ⟨gap, _, _, by simp, values, .item _ before value⟩
  | item => cases admits

/-- A comma behind an item keeps the array open. -/
theorem next (ajar : ArrayAjar text .commaOrClose) (behind : Blanks) :
    ArrayAjar (text ++ (behind.text ++ [','])) .value := by
  obtain ⟨gap, front, last, rfl, values, begun⟩ := ajar
  cases begun with
  | @item _ before core value =>
    refine ⟨gap, front ++ [⟨before, core, behind⟩], [], by simp [Padded.text], ?_, .next _⟩
    exact List.forall_mem_append.mpr ⟨values, List.forall_mem_singleton.mpr value⟩

/-- A bracket where it may stand makes the array a value. -/
theorem close (ajar : ArrayAjar text due) (closes : due.admitsClose) (behind : Blanks) :
    Indented (text ++ (behind.text ++ [']'])) := by
  obtain ⟨gap, front, last, rfl, values, begun⟩ := ajar
  cases begun with
  | first => exact ⟨gap, _, by simp [enclosed], .array behind [] (List.forall_mem_nil _)⟩
  | next => cases closes
  | @item _ before core value =>
    have items : ∀ item ∈ front ++ [⟨before, core, behind⟩], Grammatical item.core :=
      List.forall_mem_append.mpr ⟨values, List.forall_mem_singleton.mpr value⟩
    refine ⟨gap, _, ?_, .array behind _ items⟩
    rw [List.map_append, List.map_singleton, enclosed_concat]
    simp [Padded.text, List.flatMap_map]

end ArrayAjar

namespace ObjectAjar

variable {text more : List Char} {due : Due}

/-- Behind its brace an object is open. -/
theorem start (gap : Blanks) : ObjectAjar (gap.text ++ ['\x7b']) .nameOrClose :=
  ⟨gap, [], [], rfl, List.forall_mem_nil _, .first⟩

/-- A name where one is due keeps the object open. -/
theorem name (ajar : ObjectAjar text due) (admits : due.admitsName) (before : Blanks)
    (string : StringText more) : ObjectAjar (text ++ (before.text ++ more)) .colon := by
  obtain ⟨gap, front, last, rfl, slots, begun⟩ := ajar
  cases begun with
  | first | next => exact ⟨gap, _, _, by simp, slots, .name _ before string⟩
  | name | colon | value => cases admits

/-- A colon behind a name keeps the object open. -/
theorem colon (ajar : ObjectAjar text .colon) (behind : Blanks) :
    ObjectAjar (text ++ (behind.text ++ [':'])) .value := by
  obtain ⟨gap, front, last, rfl, slots, begun⟩ := ajar
  cases begun with
  | @name _ before core string =>
    exact ⟨gap, _, _, by simp [Padded.text], slots, .colon _ ⟨before, core, behind⟩ string⟩

/-- A value behind the colon keeps the object open. -/
theorem value (ajar : ObjectAjar text .value) (value : Indented more) :
    ObjectAjar (text ++ more) .commaOrClose := by
  obtain ⟨gap, front, last, rfl, slots, begun⟩ := ajar
  obtain ⟨before, core, rfl, value⟩ := value
  cases begun with
  | colon _ name string => exact ⟨gap, _, _, by simp, slots, .value _ name before string value⟩

/-- A comma behind a member keeps the object open. -/
theorem next (ajar : ObjectAjar text .commaOrClose) (behind : Blanks) :
    ObjectAjar (text ++ (behind.text ++ [','])) .name := by
  obtain ⟨gap, front, last, rfl, slots, begun⟩ := ajar
  cases begun with
  | @value _ name before core string value =>
    refine ⟨gap, front ++ [⟨name, before, core, behind⟩], [], ?_, ?_, .next _⟩
    · simp [Slot.text, Padded.text]
    · exact List.forall_mem_append.mpr ⟨slots, List.forall_mem_singleton.mpr ⟨string, value⟩⟩

/-- A brace where it may stand makes the object a value. -/
theorem close (ajar : ObjectAjar text due) (closes : due.admitsClose) (behind : Blanks) :
    Indented (text ++ (behind.text ++ ['\x7d'])) := by
  obtain ⟨gap, front, last, rfl, slots, begun⟩ := ajar
  cases begun with
  | first =>
    exact ⟨gap, _, by simp [enclosed],
      .object behind [] (List.forall_mem_nil _) (List.forall_mem_nil _)⟩
  | next | name | colon => cases closes
  | @value _ name before core string value =>
    have all : ∀ slot ∈ front ++ [⟨name, before, core, behind⟩],
        StringText slot.name.core ∧ Grammatical slot.value.core :=
      List.forall_mem_append.mpr ⟨slots, List.forall_mem_singleton.mpr ⟨string, value⟩⟩
    refine ⟨gap, _, ?_, .object behind _ (fun slot listed => (all slot listed).1)
      fun slot listed => (all slot listed).2⟩
    rw [List.map_append, List.map_singleton, enclosed_concat]
    simp [Slot.text, Padded.text, List.flatMap_map]

end ObjectAjar

/-- An open container whose lexemes are written as one. -/
def Frame.Ajar (due : Due) : Frame → Prop
  | .array source _ => ArrayAjar (writtenRun source) due
  | .object source _ | .member source _ _ => ObjectAjar (writtenRun source) due

mutual

/-- What spells a value is written as one. -/
theorem Spells.indented {spelling : List Lexeme} {value : Outline} (spells : Spells spelling value)
    (proper : ∀ lexeme ∈ spelling, lexeme.Proper) : Indented (writtenRun spelling) := by
  -- Both statements follow the lexemes from the front, with the one read last taken off first.
  match spells with
  | .scalar token =>
    obtain ⟨gap, value⟩ := proper _ List.mem_cons_self
    exact ⟨⟨_, gap⟩, _, by simp [writtenRun, Lexeme.source, token, Token.source],
      value _ token⟩
  | .array opened closes token =>
    obtain ⟨last, others⟩ := List.forall_mem_cons.mp proper
    have ajar : ArrayAjar _ _ := opened.ajar others
    rw [writtenRun_cons, token]
    exact ajar.close closes ⟨_, last.gap⟩
  | .object opened closes token =>
    obtain ⟨last, others⟩ := List.forall_mem_cons.mp proper
    have ajar : ObjectAjar _ _ := opened.ajar others
    rw [writtenRun_cons, token]
    exact ajar.close closes ⟨_, last.gap⟩

/-- An open container is written as one. -/
theorem Opened.ajar {frame : Frame} {due : Due} (opened : Opened frame due)
    (proper : ∀ lexeme ∈ frame.source, lexeme.Proper) : frame.Ajar due := by
  -- By recursion on how the container was filled: what stands before the last piece is ajar, and
  -- the piece goes on with it.
  match opened with
  | .array token =>
    obtain ⟨gap, -⟩ := proper _ List.mem_cons_self
    show ArrayAjar _ _
    rw [writtenRun_cons, token]
    exact .start ⟨_, gap⟩
  | .item opened admits spells =>
    obtain ⟨inside, before⟩ := List.forall_mem_append.mp proper
    have ajar : ArrayAjar _ _ := opened.ajar before
    show ArrayAjar _ _
    rw [writtenRun_append]
    exact ajar.item admits (spells.indented inside)
  | .nextItem opened token =>
    obtain ⟨last, before⟩ := List.forall_mem_cons.mp proper
    have ajar : ArrayAjar _ _ := opened.ajar before
    show ArrayAjar _ _
    rw [writtenRun_cons, token]
    exact ajar.next ⟨_, last.gap⟩
  | .object token =>
    obtain ⟨gap, -⟩ := proper _ List.mem_cons_self
    show ObjectAjar _ _
    rw [writtenRun_cons, token]
    exact .start ⟨_, gap⟩
  | .name opened admits token =>
    obtain ⟨last, before⟩ := List.forall_mem_cons.mp proper
    have ajar : ObjectAjar _ _ := opened.ajar before
    show ObjectAjar _ _
    rw [writtenRun_cons, token]
    exact ajar.name admits ⟨_, last.gap⟩ ⟨(last.value _ token).inner⟩
  | .colon opened token =>
    obtain ⟨last, before⟩ := List.forall_mem_cons.mp proper
    have ajar : ObjectAjar _ _ := opened.ajar before
    show ObjectAjar _ _
    rw [writtenRun_cons, token]
    exact ajar.colon ⟨_, last.gap⟩
  | .member opened spells =>
    obtain ⟨inside, before⟩ := List.forall_mem_append.mp proper
    have ajar : ObjectAjar _ _ := opened.ajar before
    show ObjectAjar _ _
    rw [writtenRun_append]
    exact ajar.value (spells.indented inside)
  | .nextMember opened token =>
    obtain ⟨last, before⟩ := List.forall_mem_cons.mp proper
    have ajar : ObjectAjar _ _ := opened.ajar before
    show ObjectAjar _ _
    rw [writtenRun_cons, token]
    exact ajar.next ⟨_, last.gap⟩

end

/-! ### Documents -/

/-- What is behind a value that stands alone are blanks. -/
theorem complete_of_readFrom {builder : Builder} {complete : Bool} {lexemes : List Lexeme}
    {root : Outline} (read : Document.readFrom builder complete lexemes = ⟨root, true⟩) :
    complete = true := by
  induction lexemes generalizing builder with
  | nil => cases read
  | cons lexeme rest ih =>
    unfold Document.readFrom at read
    split at read
    · exact ih read
    · exact (Bool.and_eq_true_iff.mp (Document.mk.inj read).2).2
    · cases read

/-- What is read as one value and no more is a value of the grammar with blanks around it. -/
theorem exists_grammatical_of_ofText {text : List Char} {root : Outline}
    (read : Document.ofText text = ⟨root, true⟩) :
    ∃ padded : Padded, padded.text = text ∧ Grammatical padded.core := by
  have sound : Builder.start.Sound := rfl
  have spells := spells_of_readFrom sound read
  rw [show Builder.start.lexemes = [] from rfl, List.append_nil] at spells
  -- The lexemes and the blanks behind them make up the text, and each of them was cut off from it.
  obtain ⟨blanks, blank, whole⟩ := lexWithin_append (complete_of_readFrom read)
  obtain ⟨rest, -, separable⟩ := separable_lexWithin (text.length + 1) text
  have proper := separable.proper
  obtain ⟨before, core, written, value⟩ := spells.indented fun lexeme listed =>
    proper lexeme (List.mem_reverse.mp listed)
  refine ⟨⟨before, core, blanks, blank⟩, ?_, value⟩
  rw [writtenRun, List.reverse_reverse] at written
  rw [Padded.text, ← List.append_assoc, ← written]
  exact whole.symm

/-- A text holds one value and no more exactly if it is a JSON value with blanks around it. -/
theorem Document.alone_iff {text : List Char} :
    (Document.ofText text).alone ↔
      ∃ padded : Padded, padded.text = text ∧ Grammatical padded.core := by
  constructor
  · intro alone
    have read : Document.ofText text = ⟨(Document.ofText text).root, true⟩ := by rw [← alone]
    exact exists_grammatical_of_ofText read
  · rintro ⟨padded, rfl, value⟩
    obtain ⟨outline, written⟩ := value.exists_written padded.before
    have read := written.ofText_append padded.behind
    rw [List.append_assoc] at read
    rw [Padded.text, read]

/-- A value that starts with a brace is an object. -/
theorem Grammatical.exists_slots {text : List Char} (grammatical : Grammatical text)
    (brace : text.head? = some '\x7b') :
    ∃ (empty : Blanks) (slots : List Slot),
      text = enclosed '\x7b' '\x7d' empty (slots.map Slot.text) ∧
        (∀ slot ∈ slots, StringText slot.name.core) ∧
        ∀ slot ∈ slots, Grammatical slot.value.core := by
  -- No other value starts with a brace.
  cases grammatical with
  | nullWord | trueWord | falseWord => cases brace
  | number signed numeral =>
    rcases signed with rfl | rfl
    · obtain ⟨c, more, rfl⟩ := List.exists_cons_of_ne_nil numeral.digits.nonempty
      have digit := numeral.digits.all c List.mem_cons_self
      obtain rfl : c = '\x7b' := Option.some.inj brace
      exact absurd digit (by decide)
    · cases brace
  | string string =>
    obtain ⟨inner⟩ := string
    cases brace
  | array empty items values =>
    obtain ⟨more, same⟩ := exists_enclosed '[' ']' empty (items.map Padded.text)
    rw [same] at brace
    cases brace
  | object empty slots names values => exact ⟨empty, slots, rfl, names, values⟩

end Switchboard.Json
