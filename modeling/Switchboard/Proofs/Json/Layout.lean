import Mathlib.Data.List.Forall2
import Switchboard.Proofs.Json.Grammar

/-!
# `Switchboard.Proofs.Json.Layout`: values and the blanks around them

`Written` says of a text that it spells a value, wherever in a larger text it stands, and `Begun`
says how far a container is open behind a text. A container is put together mark by mark, with any
blanks before each of them, so that items and members may be laid out in every way
(`written_padded`, `written_slots`). What is written is read as a document of its own, also in front
of blanks (`Written.ofText_append`).
-/

set_option autoImplicit false

namespace Switchboard.Json

/-! ### Layouts -/

/-- A text of blanks. -/
structure Blanks where
  text : List Char
  blank : text.all isGap

/-- No blanks. -/
def Blanks.none : Blanks := ⟨[], rfl⟩

/-- A text with blanks around it. -/
structure Padded where
  before : Blanks
  core : List Char
  behind : Blanks

namespace Padded

/-- The text with its blanks. -/
def text (padded : Padded) : List Char :=
  padded.before.text ++ (padded.core ++ padded.behind.text)

/-- A text without blanks around it. -/
def bare (core : List Char) : Padded := ⟨.none, core, .none⟩

/-- Without blanks only the core is left. -/
@[simp]
theorem text_bare (core : List Char) : (bare core).text = core := by simp [text, bare, Blanks.none]

end Padded

/-- A member of an object as it is laid out: its name, with the quotes, and its value. -/
structure Slot where
  name : Padded
  value : Padded

/-- The text of a member. -/
def Slot.text (slot : Slot) : List Char := slot.name.text ++ ':' :: slot.value.text

/-- Texts between brackets, with commas between them. Where there are none, blanks may stand in
their place. -/
def enclosed (opening closing : Char) (empty : Blanks) : List (List Char) → List Char
  | [] => opening :: (empty.text ++ [closing])
  | first :: rest => opening :: (List.intercalate [','] (first :: rest) ++ [closing])

/-- Behind the first text each one has a comma before it. -/
theorem intercalate_comma_cons (first : List Char) (rest : List (List Char)) :
    List.intercalate [','] (first :: rest) = first ++ rest.flatMap (',' :: ·) := by
  induction rest generalizing first with
  | nil => simp [List.intercalate]
  | cons second rest ih =>
    rw [List.intercalate_cons_cons, ih]
    simp

/-- Sources of single results are sources of the list. -/
theorem exists_forall₂ {α β : Type} {R : α → β → Prop} {results : List β}
    (each : ∀ result ∈ results, ∃ source, R source result) :
    ∃ sources, List.Forall₂ R sources results := by
  induction results with
  | nil => exact ⟨[], .nil⟩
  | cons result rest ih =>
    obtain ⟨⟨source, first⟩, later⟩ := List.forall_mem_cons.mp each
    obtain ⟨sources, others⟩ := ih later
    exact ⟨source :: sources, .cons first others⟩

/-- Each source of a list has its result. -/
theorem exists_of_forall₂ {α β : Type} {R : α → β → Prop} {sources : List α} {results : List β}
    (related : List.Forall₂ R sources results) {source : α} (listed : source ∈ sources) :
    ∃ result ∈ results, R source result := by
  induction related with
  | nil => cases listed
  | @cons first result _ _ head _ ih =>
    rcases List.mem_cons.mp listed with rfl | later
    · exact ⟨result, List.mem_cons_self, head⟩
    · obtain ⟨other, inside, relates⟩ := ih later
      exact ⟨other, List.mem_cons_of_mem _ inside, relates⟩

/-! ### Texts that are cut into lexemes -/

/-- What may stand behind a value. -/
def EndsValue (rest : List Char) : Prop :=
  ∀ c, rest.head? = some c → c = ',' ∨ c = ']' ∨ c = '\x7d'

/-- What ends a value ends a number. -/
theorem EndsValue.endsNumber {rest : List Char} (ends : EndsValue rest) : EndsNumber rest := by
  intro c first
  rcases ends c first with rfl | rfl | rfl <;> decide

/-- No blank goes on with a number. -/
theorem Blanks.endsNumber (blanks : Blanks) {rest : List Char} (ends : EndsNumber rest) :
    EndsNumber (blanks.text ++ rest) := by
  obtain ⟨text, blank⟩ := blanks
  cases text with
  | nil => exact ends
  | cons c text =>
    intro d first
    obtain rfl : c = d := Option.some.inj first
    have gap : isGap c := List.all_eq_true.mp blank c List.mem_cons_self
    simp only [isGap, Bool.or_eq_true, beq_iff_eq] at gap
    rcases gap with ((rfl | rfl) | rfl) | rfl <;> decide

/-- What may follow where something is due: behind a value it has to end the value. -/
def Due.Fits : Due → List Char → Prop
  | .commaOrClose, rest => EndsValue rest
  | _, _ => True

/-- A text that is cut into a run of lexemes if what follows it fits. -/
structure CutsInto (text : List Char) (run : List Lexeme) (fits : List Char → Prop) : Prop where
  source : run.flatMap Lexeme.source = text
  separable : ∀ rest, fits rest → Separable run rest

variable {text more : List Char} {run next : List Lexeme} {fits fits' : List Char → Prop}

/-- Two runs that can be cut off one after the other can be cut off as one. -/
theorem Separable.append {rest : List Char}
    (front : Separable run (next.flatMap Lexeme.source ++ rest)) (back : Separable next rest) :
    Separable (run ++ next) rest := by
  induction run with
  | nil => exact back
  | cons lexeme run ih =>
    obtain ⟨blank, first, others⟩ := front
    refine ⟨blank, ?_, ih others⟩
    simpa [List.append_assoc] using first

/-- Texts one behind the other, the second of which fits behind the first. -/
theorem CutsInto.append (front : CutsInto text run fits) (back : CutsInto more next fits')
    (meets : ∀ rest, fits' rest → fits (more ++ rest)) :
    CutsInto (text ++ more) (run ++ next) fits' where
  source := by rw [List.flatMap_append, front.source, back.source]
  separable rest fitting := by
    refine Separable.append ?_ (back.separable rest fitting)
    rw [back.source]
    exact front.separable _ (meets rest fitting)

/-- What is cut off in front of all that may stand behind a value is cut off as well in front of
all that does not go on with a number. -/
theorem CutsInto.endsNumber (cuts : CutsInto text run EndsValue) :
    CutsInto text run EndsNumber where
  source := cuts.source
  separable _ ends := (cuts.separable [] fun c first => by cases first).replace (.inr ends)

/-- A token with blanks before it is cut into one lexeme. -/
theorem cutsInto_token (gap : Blanks) (token : Token)
    (cut : ∀ rest, fits rest → cutToken? (token.source ++ rest) = some (token, rest)) :
    CutsInto (gap.text ++ token.source) [⟨gap.text, token⟩] fits where
  source := by simp [Lexeme.source]
  separable rest fitting := ⟨gap.blank, cut rest fitting, trivial⟩

/-! ### Texts that spell values -/

/-- A text that spells a value. -/
def Written (text : List Char) (value : Outline) : Prop :=
  ∃ run, CutsInto text run EndsValue ∧ Spells run.reverse value

/-- A scalar spells itself if it is cut off in front of all that may stand behind it. -/
theorem written_scalar_behind (gap : Blanks) (value : Scalar) (cut : ∀ rest, EndsValue rest →
      cutToken? (value.source ++ rest) = some (.scalar value, rest)) :
    Written (gap.text ++ value.source) (.scalar value) := by
  have cuts : CutsInto (gap.text ++ (Token.scalar value).source) [⟨gap.text, .scalar value⟩]
      EndsValue := cutsInto_token gap _ cut
  exact ⟨_, cuts, .scalar rfl⟩

/-- A token that is a scalar spells it. -/
theorem written_scalar (value : Scalar) (cut : ∀ rest, EndsValue rest →
      cutToken? (value.source ++ rest) = some (.scalar value, rest)) :
    Written value.source (.scalar value) :=
  written_scalar_behind .none value cut

/-- What is written is read as a document of its own, also with blanks behind it. -/
theorem Written.ofText_append {value : Outline} (written : Written text value) (blanks : Blanks) :
    Document.ofText (text ++ blanks.text) = ⟨value, true⟩ := by
  obtain ⟨run, cuts, spells⟩ := written
  have ends := blanks.endsNumber endsNumber_nil
  rw [List.append_nil] at ends
  have separable : Separable run blanks.text := cuts.endsNumber.separable blanks.text ends
  have lexed : lex (text ++ blanks.text) = ⟨run, true⟩ := by
    rw [← cuts.source]
    refine lexWithin_of_separable separable blanks.blank (Nat.lt_succ_of_le ?_)
    exact Nat.le_trans separable.length_le (by simp)
  have read := spells.reads [] (rfl : Due.value.admitsValue) true []
  rw [List.reverse_reverse, List.append_nil] at read
  rw [Document.ofText, lexed]
  exact read

/-- A text that spells a value is read as this value and no more. -/
theorem Written.ofText {value : Outline} (written : Written text value) :
    Document.ofText text = ⟨value, true⟩ := by
  have read := written.ofText_append .none
  rwa [Blanks.none, List.append_nil] at read

/-- A text spells one value at most. -/
theorem Written.unique {value value' : Outline} (written : Written text value)
    (again : Written text value') : value' = value :=
  congrArg Document.root (again.ofText.symm.trans written.ofText)

/-- A value behind blanks spells itself without them, and its text is its own. -/
theorem Written.bare {gap : Blanks} {value : Outline} (written : Written (gap.text ++ text) value)
    (starts : ∀ c, text.head? = some c → isGap c = false) :
    value.text? = some text ∧ ∃ again, Written text again ∧ again.Alike value := by
  obtain ⟨run, cuts, spells⟩ := written
  obtain ⟨first, others, again, split, bare, alike⟩ := spells.exists_bare
  rw [List.reverse_reverse] at split
  subst split
  -- Neither the text nor the first token starts with a blank, so the blanks before them are alike.
  have whole : first.gap ++ sourceText (first :: others) = gap.text ++ text := by
    simpa [sourceText, Lexeme.source] using cuts.source
  obtain ⟨blank, cut, -⟩ := cuts.separable [] fun c first => by cases first
  rw [List.append_nil] at cut
  have token_starts : ∀ c, (sourceText (first :: others)).head? = some c → isGap c = false := by
    intro c head
    obtain ⟨more, same⟩ := List.head?_eq_some_iff.mp head
    refine Bool.eq_false_iff.mpr fun isBlank => ?_
    rw [show first.token.source ++ others.flatMap Lexeme.source = c :: more from same,
      cutToken?_of_isGap isBlank] at cut
    cases cut
  have gap_eq : first.gap = gap.text := by
    rw [← takeWhile_append_eq_iff.mpr ⟨List.all_eq_true.mp blank, token_starts⟩, whole]
    exact takeWhile_append_eq_iff.mpr ⟨List.all_eq_true.mp gap.blank, starts⟩
  rw [gap_eq] at whole
  have source := List.append_cancel_left whole
  refine ⟨by rw [spells.text?, List.reverse_reverse, source], again,
    ⟨first.bare :: others, ⟨source, fun rest ends => ?_⟩, bare⟩, alike⟩
  obtain ⟨-, head, later⟩ := cuts.separable rest ends
  exact ⟨rfl, head, later⟩

/-- A value inside a text spells itself wherever its own text stands, without the blanks before
it. -/
theorem Spells.written {spelling : List Lexeme} {value : Outline} (spells : Spells spelling value)
    (inside : spelling.reverse <:+: (lex text).lexemes) :
    ∃ again, Written (sourceText spelling.reverse) again ∧
      again.text? = some (sourceText spelling.reverse) ∧ again.Alike value := by
  obtain ⟨first, run, again, split, bare, alike⟩ := spells.exists_bare
  rw [split] at inside ⊢
  have same : sourceText (first.bare :: run) = sourceText (first :: run) := rfl
  refine ⟨again, ⟨first.bare :: run, ⟨rfl, fun rest ends => ?_⟩, bare⟩, ?_, alike⟩
  · obtain ⟨behind, -, separable⟩ := separable_lexWithin (text.length + 1) text
    obtain ⟨-, head, others⟩ := separable.of_infix inside ends.endsNumber
    exact ⟨rfl, head, others⟩
  · rw [bare.text?, List.reverse_reverse, same]

/-! ### Containers -/

/-- A text behind which a container is open, and what is due in it then. -/
structure Begun (text : List Char) (frame : Frame) (due : Due) : Prop where
  opened : Opened frame due
  cuts : CutsInto text frame.source.reverse due.Fits

/-- A padded text that spells an item, together with the blanks before it. -/
def Padded.Spells (padded : Padded) (value : Outline) : Prop :=
  Written (padded.before.text ++ padded.core) value

/-- A member as it is laid out, and what it spells. -/
structure Slot.Spells (slot : Slot) (member : List Char × Outline) : Prop where
  name : ∀ rest, cutToken? (slot.name.core ++ rest) = some (.scalar (.string member.1), rest)
  value : slot.value.Spells member.2

namespace Begun

variable {due : Due} {frame : Frame} {source : List Lexeme}
  {items : List Outline} {members : List (List Char × Outline)} {value : Outline}
  {inside : List Char}

/-- Behind blanks the same may follow. -/
theorem separable (begun : Begun text frame due) (gap : Blanks) {rest : List Char}
    (fits : due.Fits rest) : Separable frame.source.reverse (gap.text ++ rest) := by
  have cuts := begun.cuts
  cases due with
  | commaOrClose =>
    exact (CutsInto.endsNumber cuts).separable _ (gap.endsNumber (EndsValue.endsNumber fits))
  | value | valueOrClose | name | nameOrClose | colon => exact cuts.separable _ trivial

/-- A mark behind the text of an open container. -/
theorem cuts_concat (begun : Begun text frame due) (gap : Blanks) (token : Token)
    (cut : ∀ rest, cutToken? (token.source ++ rest) = some (token, rest))
    (meets : ∀ rest, due.Fits (token.source ++ rest)) (fits : List Char → Prop) :
    CutsInto (text ++ (gap.text ++ token.source)) (⟨gap.text, token⟩ :: frame.source).reverse
      fits := by
  have front : CutsInto text frame.source.reverse fun rest =>
      ∃ behind, rest = gap.text ++ behind ∧ due.Fits behind := by
    refine ⟨begun.cuts.source, ?_⟩
    rintro _ ⟨behind, rfl, fitting⟩
    exact begun.separable gap fitting
  rw [List.reverse_cons]
  exact front.append (cutsInto_token gap token fun rest _ => cut rest) fun rest _ =>
    ⟨token.source ++ rest, List.append_assoc .., meets rest⟩

/-- A bracket opens an array. -/
theorem array (gap : Blanks) :
    Begun (gap.text ++ ['[']) (.array [⟨gap.text, .openArray⟩] []) .valueOrClose :=
  ⟨.array rfl, cutsInto_token gap .openArray fun _ _ => rfl⟩

/-- A brace opens an object. -/
theorem object (gap : Blanks) :
    Begun (gap.text ++ ['\x7b']) (.object [⟨gap.text, .openObject⟩] []) .nameOrClose :=
  ⟨.object rfl, cutsInto_token gap .openObject fun _ _ => rfl⟩

/-- Where a value is due, anything may follow. -/
theorem fits_of_admitsValue (admits : due.admitsValue) (rest : List Char) : due.Fits rest := by
  cases due with
  | value | valueOrClose => trivial
  | name | nameOrClose | colon | commaOrClose => cases admits

/-- Where a name is due, anything may follow. -/
theorem fits_of_admitsName (admits : due.admitsName) (rest : List Char) : due.Fits rest := by
  cases due with
  | name | nameOrClose => trivial
  | value | valueOrClose | colon | commaOrClose => cases admits

/-- An item of an array. -/
theorem item (begun : Begun text (.array source items) due) (admits : due.admitsValue)
    (written : Written more value) :
    ∃ source', Begun (text ++ more) (.array source' (value :: items)) .commaOrClose := by
  obtain ⟨run, cuts, spells⟩ := written
  refine ⟨run.reverse ++ source, .item begun.opened admits spells, ?_⟩
  rw [Frame.source, List.reverse_append, List.reverse_reverse]
  exact begun.cuts.append cuts fun rest _ => fits_of_admitsValue admits _

/-- The comma behind an item. -/
theorem nextItem (begun : Begun text (.array source items) .commaOrClose) (gap : Blanks) :
    ∃ source', Begun (text ++ (gap.text ++ [','])) (.array source' items) .value := by
  refine ⟨⟨gap.text, .comma⟩ :: source, .nextItem begun.opened rfl, ?_⟩
  refine begun.cuts_concat gap .comma (fun _ => rfl) (fun rest c first => ?_) _
  exact Or.inl (Option.some.inj first).symm

/-- An array is closed behind its opening bracket or behind an item. -/
theorem closeArray (begun : Begun text (.array source items) due) (closes : due.admitsClose)
    (gap : Blanks) :
    ∃ source', Written (text ++ (gap.text ++ [']'])) (.array items.reverse (some source')) := by
  have cuts := begun.cuts_concat gap .closeArray (fun _ => rfl) (fun rest => ?_) EndsValue
  · exact ⟨_, _, cuts, by
      rw [List.reverse_reverse]
      exact .array begun.opened closes rfl⟩
  · cases due with
    | commaOrClose => exact fun c first => Or.inr (Or.inl (Option.some.inj first).symm)
    | value | valueOrClose | name | nameOrClose | colon => trivial

/-- The name of a member. -/
theorem name (begun : Begun text (.object source members) due) (admits : due.admitsName)
    (gap : Blanks)
    (cut : ∀ rest, cutToken? (more ++ rest) = some (.scalar (.string inside), rest)) :
    ∃ source', Begun (text ++ (gap.text ++ more)) (.member source' members inside) .colon := by
  obtain rfl : more = (Token.scalar (.string inside)).source := by
    simpa using cutToken?_append (cut [])
  refine ⟨⟨gap.text, .scalar (.string inside)⟩ :: source, .name begun.opened admits rfl, ?_⟩
  exact begun.cuts_concat gap _ cut (fun rest => fits_of_admitsName admits _) _

/-- The colon behind a name. -/
theorem colon (begun : Begun text (.member source members inside) .colon) (gap : Blanks) :
    ∃ source', Begun (text ++ (gap.text ++ [':'])) (.member source' members inside) .value :=
  ⟨⟨gap.text, .colon⟩ :: source, .colon begun.opened rfl,
    begun.cuts_concat gap .colon (fun _ => rfl) (fun _ => trivial) _⟩

/-- The value of a member. -/
theorem memberValue (begun : Begun text (.member source members inside) .value)
    (written : Written more value) :
    ∃ source', Begun (text ++ more) (.object source' ((inside, value) :: members))
      .commaOrClose := by
  obtain ⟨run, cuts, spells⟩ := written
  refine ⟨run.reverse ++ source, .member begun.opened spells, ?_⟩
  rw [Frame.source, List.reverse_append, List.reverse_reverse]
  exact begun.cuts.append cuts fun _ _ => trivial

/-- The comma behind a member. -/
theorem nextMember (begun : Begun text (.object source members) .commaOrClose) (gap : Blanks) :
    ∃ source', Begun (text ++ (gap.text ++ [','])) (.object source' members) .name := by
  refine ⟨⟨gap.text, .comma⟩ :: source, .nextMember begun.opened rfl, ?_⟩
  refine begun.cuts_concat gap .comma (fun _ => rfl) (fun rest c first => ?_) _
  exact Or.inl (Option.some.inj first).symm

/-- An object is closed behind its opening bracket or behind a member. -/
theorem closeObject (begun : Begun text (.object source members) due)
    (closes : due.admitsClose) (gap : Blanks) :
    ∃ source', Written (text ++ (gap.text ++ ['\x7d']))
      (.object members.reverse (some source')) := by
  have cuts := begun.cuts_concat gap .closeObject (fun _ => rfl) (fun rest => ?_) EndsValue
  · exact ⟨_, _, cuts, by
      rw [List.reverse_reverse]
      exact .object begun.opened closes rfl⟩
  · cases due with
    | commaOrClose => exact fun c first => Or.inr (Or.inr (Option.some.inj first).symm)
    | value | valueOrClose | name | nameOrClose | colon => trivial

/-- A member as it is laid out, up to the blanks behind it. -/
theorem slot (begun : Begun text (.object source members) due) (admits : due.admitsName)
    {slot : Slot} {member : List Char × Outline} (spells : slot.Spells member) :
    ∃ front source', Begun front (.object source' (member :: members)) .commaOrClose ∧
      text ++ slot.text = front ++ slot.value.behind.text := by
  obtain ⟨_, named⟩ := begun.name admits slot.name.before spells.name
  obtain ⟨_, ready⟩ := named.colon slot.name.behind
  obtain ⟨source', put⟩ := ready.memberValue spells.value
  exact ⟨_, source', put, by simp [Slot.text, Padded.text]⟩

/-- Further items, each behind a comma, and the closing bracket. -/
theorem closeItems (begun : Begun text (.array source items) .commaOrClose) (gap : Blanks)
    {padded : List Padded} {outlines : List Outline}
    (spell : List.Forall₂ Padded.Spells padded outlines) :
    ∃ source', Written
      (text ++ (gap.text ++ ((padded.map Padded.text).flatMap (',' :: ·) ++ [']'])))
      (.array (items.reverse ++ outlines) (some source')) := by
  -- The blanks behind an item stand before the mark that follows it.
  induction spell generalizing text source items gap with
  | nil => simpa using begun.closeArray rfl gap
  | @cons first _ _ _ spells others ih =>
    obtain ⟨_, separated⟩ := begun.nextItem gap
    obtain ⟨_, put⟩ := separated.item rfl spells
    obtain ⟨source', all⟩ := ih put first.behind
    exact ⟨source', by simpa [Padded.text] using all⟩

/-- Further members, each behind a comma, and the closing brace. -/
theorem closeMembers (begun : Begun text (.object source members) .commaOrClose) (gap : Blanks)
    {slots : List Slot} {outlines : List (List Char × Outline)}
    (spell : List.Forall₂ Slot.Spells slots outlines) :
    ∃ source', Written
      (text ++ (gap.text ++ ((slots.map Slot.text).flatMap (',' :: ·) ++ ['\x7d'])))
      (.object (members.reverse ++ outlines) (some source')) := by
  induction spell generalizing text source members gap with
  | nil => simpa using begun.closeObject rfl gap
  | cons spells others ih =>
    obtain ⟨_, separated⟩ := begun.nextMember gap
    obtain ⟨front, _, put, same⟩ := separated.slot rfl spells
    obtain ⟨source', all⟩ := ih put _
    refine ⟨source', ?_⟩
    rw [← List.append_assoc front, ← same] at all
    simpa using all

end Begun

/-- An array is spelled by its items between brackets, with commas between them and blanks
anywhere. -/
theorem written_padded (gap empty : Blanks) {items : List Padded} {outlines : List Outline}
    (spell : List.Forall₂ Padded.Spells items outlines) :
    ∃ source, Written (gap.text ++ enclosed '[' ']' empty (items.map Padded.text))
      (.array outlines (some source)) := by
  cases spell with
  | nil =>
    have closed := (Begun.array gap).closeArray rfl empty
    simpa [enclosed] using closed
  | @cons first _ _ _ spells others =>
    obtain ⟨_, put⟩ := (Begun.array gap).item rfl spells
    obtain ⟨source, closed⟩ := put.closeItems first.behind others
    refine ⟨source, ?_⟩
    rw [List.map_cons, enclosed, intercalate_comma_cons]
    simpa [Padded.text] using closed

/-- An object is spelled by its members between braces, with commas between them and blanks
anywhere. -/
theorem written_slots (gap empty : Blanks) {slots : List Slot}
    {outlines : List (List Char × Outline)} (spell : List.Forall₂ Slot.Spells slots outlines) :
    ∃ source, Written (gap.text ++ enclosed '\x7b' '\x7d' empty (slots.map Slot.text))
      (.object outlines (some source)) := by
  cases spell with
  | nil =>
    have closed := (Begun.object gap).closeObject rfl empty
    simpa [enclosed] using closed
  | cons spells others =>
    obtain ⟨front, _, put, same⟩ := (Begun.object gap).slot rfl spells
    obtain ⟨source, closed⟩ := put.closeMembers _ others
    refine ⟨source, ?_⟩
    rw [← List.append_assoc front, ← same] at closed
    rw [List.map_cons, enclosed, intercalate_comma_cons]
    simpa using closed

end Switchboard.Json
