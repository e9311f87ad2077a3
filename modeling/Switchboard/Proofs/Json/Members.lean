import Mathlib.Data.List.Nodup
import Switchboard.Proofs.Json.Legible
import Switchboard.Proofs.Json.Recognition
import Switchboard.Proofs.Json.Restored

/-!
# `Switchboard.Proofs.Json.Members`: strict records from object texts

A `Member` is a name and the text of a value, and `ObjectText` says that a text is an object with
given members, in their order, whatever blanks are around them and whatever strings stand for their
names. Every text that is read as an object is one, if its names can be read (`exists_objectText`).

What a strict record is made of depends on the members alone: it can be read if they have different
names, each is admitted under its name and none that is required is missing
(`Shape.exists_read_iff`), and each of its parts is then read from the text of one value
(`Shape.part_of_members`).
-/

set_option autoImplicit false

namespace Switchboard.Json

/-! ### Members and their texts -/

/-- A member of an object: its name and the text of its value. -/
structure Member where
  name : String
  value : List Char
  grammatical : Grammatical value

/-- A slot that holds a member. Every string may be written that stands for the name. -/
structure Slot.Holds (slot : Slot) (member : Member) : Prop where
  name : ∃ inside, slot.name.core = quoted inside ∧ Inside inside ∧
    readInside inside = .ok member.name
  value : slot.value.core = member.value

/-- A text that is an object with some members in their order, with blanks anywhere. -/
inductive ObjectText (members : List Member) : List Char → Prop
  | intro (before empty behind : Blanks) {slots : List Slot}
      (hold : List.Forall₂ Slot.Holds slots members) :
      ObjectText members
        (before.text ++ enclosed '\x7b' '\x7d' empty (slots.map Slot.text) ++ behind.text)

/-- A member with the same blanks on both sides of its name and of its value. -/
def Slot.spaced (gap : Blanks) (member : Member) : Slot :=
  ⟨⟨gap, quote member.name.toList, gap⟩, ⟨gap, member.value, gap⟩⟩

/-- A member with blanks around it is still held. -/
theorem Slot.holds_spaced (gap : Blanks) (member : Member) :
    (Slot.spaced gap member).Holds member where
  name := ⟨quoteInside member.name.toList, rfl, inside_quoteInside _, readInside_quoteInside _⟩
  value := rfl

/-- Every list of members can be written, and with any blanks. -/
theorem objectText_spaced (gap : Blanks) (members : List Member) :
    ObjectText members (gap.text ++
      enclosed '\x7b' '\x7d' gap ((members.map (Slot.spaced gap)).map Slot.text) ++ gap.text) := by
  refine .intro gap gap gap ?_
  rw [List.forall₂_map_left_iff, List.forall₂_same]
  exact fun member _ => Slot.holds_spaced gap member

/-- What is read for a member: its name as it is written, and its value. -/
structure Member.Spelled (member : Member) (spelled : List Char × Outline) : Prop where
  name : readInside spelled.1 = .ok member.name
  value : ∃ gap : Blanks, Written (gap.text ++ member.value) spelled.2

/-- What a slot spells is what is read for its member. -/
theorem Slot.Holds.exists_spelled {slot : Slot} {member : Member} (holds : slot.Holds member) :
    ∃ spelled, slot.Spells spelled ∧ member.Spelled spelled := by
  obtain ⟨inside, whole, inner, named⟩ := holds.name
  obtain ⟨outline, written⟩ := member.grammatical.exists_written slot.value.before
  have value : slot.value.Spells outline := by
    rw [Padded.Spells, holds.value]
    exact written
  exact ⟨(inside, outline), ⟨fun rest => whole ▸ cutToken?_of_inside inner rest, value⟩,
    named, _, written⟩

/-- An object text is read as an object with its members. -/
theorem ObjectText.exists_object {members : List Member} {text : List Char}
    (object : ObjectText members text) :
    ∃ spelled source, Document.ofText text = ⟨.object spelled (some source), true⟩ ∧
      List.Forall₂ Member.Spelled members spelled := by
  obtain ⟨before, empty, behind, hold⟩ := object
  rename_i slots
  obtain ⟨spelled, spell, each⟩ : ∃ spelled, List.Forall₂ Slot.Spells slots spelled ∧
      List.Forall₂ Member.Spelled members spelled := by
    induction hold with
    | nil => exact ⟨[], .nil, .nil⟩
    | cons first _ ih =>
      obtain ⟨one, spells, reads⟩ := first.exists_spelled
      obtain ⟨others, spell, each⟩ := ih
      exact ⟨one :: others, .cons spells spell, .cons reads each⟩
  obtain ⟨source, written⟩ := written_slots before empty spell
  exact ⟨spelled, source, written.ofText_append behind, each⟩

/-- Slots whose names and values can be read hold members. -/
theorem exists_holds {slots : List Slot} {spelled : List (List Char × Outline)}
    (strings : ∀ slot ∈ slots, StringText slot.name.core)
    (values : ∀ slot ∈ slots, Grammatical slot.value.core)
    (spell : List.Forall₂ Slot.Spells slots spelled)
    (named : ∀ one ∈ spelled, ∃ name, readInside one.1 = .ok name) :
    ∃ members, List.Forall₂ Slot.Holds slots members := by
  have each (slot) (listed : slot ∈ slots) : ∃ member, slot.Holds member := by
    obtain ⟨one, inside, spells⟩ := exists_of_forall₂ spell listed
    obtain ⟨name, reads⟩ := named one inside
    have whole : slot.name.core = quoted one.1 := by
      simpa [Token.source, Scalar.source, quoted] using cutToken?_append (spells.name [])
    have string := whole ▸ strings slot listed
    exact ⟨⟨name, slot.value.core, values slot listed⟩, ⟨one.1, whole, string.inner, reads⟩, rfl⟩
  obtain ⟨members, hold⟩ := exists_forall₂ (R := flip Slot.Holds) each
  exact ⟨members, hold.flip⟩

/-- A text that is read to its end and starts with a brace is the text of an object, if its names
stand for something. -/
theorem exists_objectText {text : List Char} (alone : (Document.ofText text).alone)
    (brace : (text.dropWhile isGap).head? = some '\x7b')
    (named : ∀ spelled source, (Document.ofText text).root = .object spelled (some source) →
      ∀ one ∈ spelled, ∃ name, readInside one.1 = .ok name) :
    ∃ members, ObjectText members text := by
  obtain ⟨⟨before, core, behind⟩, rfl, grammatical⟩ := Document.alone_iff.mp alone
  -- No value starts with a blank, so the brace is its first character.
  have starts : core.head? = some '\x7b' := by
    obtain ⟨c, more, rfl, unblank, -⟩ := grammatical.start
    rwa [Padded.text, List.dropWhile_append_of_pos (List.all_eq_true.mp before.blank),
      List.cons_append, List.dropWhile_cons_of_neg (by simp [unblank])] at brace
  obtain ⟨empty, slots, rfl, strings, values⟩ := grammatical.exists_slots starts
  obtain ⟨spelled, spell⟩ := exists_slots strings fun slot listed =>
    (values slot listed).exists_written slot.value.before
  obtain ⟨source, written⟩ := written_slots before empty spell
  have read := written.ofText_append behind
  rw [Padded.text, ← List.append_assoc] at named ⊢
  rw [read] at named
  obtain ⟨members, hold⟩ := exists_holds strings values spell (named spelled source rfl)
  exact ⟨members, .intro before empty behind hold⟩

/-! ### What readers make of a value -/

/-- A text that is a string and stands for some content. -/
def Quotes (text : List Char) (content : String) : Prop :=
  ∃ inside, text = quoted inside ∧ readInside inside = .ok content

/-- A text that is decoded as a value, with so many levels of nesting allowed. -/
def Decodes (room : Nat) (text : List Char) (value : Value) : Prop :=
  Reader.value room (Document.ofText text).root = .ok value

/-- A text that is null or something else. -/
inductive OrNull {α : Type} (reads : List Char → α → Prop) : List Char → Option α → Prop
  | null : OrNull reads nullText none
  | given {text : List Char} {value : α} (present : text ≠ nullText) (given : reads text value) :
      OrNull reads text (some value)

/-- A text quotes one content only. -/
theorem rightUnique_quotes : Relator.RightUnique Quotes := by
  rintro text content content' ⟨inside, rfl, read⟩ ⟨inside', same, read'⟩
  obtain rfl := List.append_cancel_right (List.cons.inj same).2
  exact Except.ok.inj (read.symm.trans read')

/-- A text is decoded as one value only. -/
theorem rightUnique_decodes (room : Nat) : Relator.RightUnique (Decodes room) :=
  fun _ _ _ read read' => Except.ok.inj (read.symm.trans read')

/-- A text is null or is read one way only. -/
theorem rightUnique_orNull {α : Type} {reads : List Char → α → Prop}
    (unique : Relator.RightUnique reads) : Relator.RightUnique (OrNull reads) := by
  intro text value? value?' first again
  cases first with
  | null =>
    cases again with
    | null => rfl
    | given present => exact absurd rfl present
  | given present given =>
    cases again with
    | null => exact absurd rfl present
    | given _ given' => exact congrArg some (unique given given')

namespace Member.Spelled

variable {member : Member} {spelled : List Char × Outline}

/-- The value of a member spells what was read, up to the text that is kept of it. -/
theorem bare (reads : member.Spelled spelled) :
    spelled.2.text? = some member.value ∧
      ∃ again, Written member.value again ∧ again.Alike spelled.2 := by
  obtain ⟨gap, written⟩ := reads.value
  exact written.bare member.grammatical.unblank

/-- A string is read exactly from the quoted text. -/
theorem string_iff (reads : member.Spelled spelled) {inside : List Char} :
    spelled.2 = .scalar (.string inside) ↔ member.value = quoted inside := by
  constructor
  · intro same
    have text := reads.bare.1
    rw [same] at text
    exact (Option.some.inj text).symm
  · intro same
    obtain ⟨gap, written⟩ := reads.value
    have grammatical := member.grammatical
    rw [same] at written grammatical
    exact (written_string_behind gap grammatical.inner).unique written

/-- Null is read exactly from the word for it. -/
theorem null_iff (reads : member.Spelled spelled) :
    spelled.2 = .scalar .null ↔ member.value = nullText := by
  constructor
  · intro same
    have text := reads.bare.1
    rw [same] at text
    exact (Option.some.inj text).symm
  · intro same
    obtain ⟨gap, written⟩ := reads.value
    rw [same] at written
    exact (written_scalar_behind gap .null fun _ _ => rfl).unique written

end Member.Spelled

namespace Reader

variable {α β : Type} {room : Nat} {reads : List Char → α → Prop}

/-- A reader for which only the text of a value counts, which it takes as a relation says. -/
structure Follows (reader : Reader α) (room : Nat) (reads : List Char → α → Prop) : Prop where
  iff : ∀ {member : Member} {spelled : List Char × Outline}, member.Spelled spelled →
    ∀ value, reader room spelled.2 = .ok value ↔ reads member.value value

/-- The reader of strings takes what is quoted. -/
theorem follows_string : string.Follows room Quotes := by
  refine ⟨fun {member spelled} stands content => ?_⟩
  constructor
  · intro read
    unfold string stringAs at read
    split at read
    case h_1 inside same => exact ⟨inside, stands.string_iff.mp same, read⟩
    case h_2 => cases read
  · rintro ⟨inside, same, read⟩
    rw [stands.string_iff.mpr same]
    exact read

/-- The reader of values takes what is decoded. -/
theorem follows_value : Reader.value.Follows room (Decodes room) := by
  refine ⟨fun {member spelled} stands value => ?_⟩
  obtain ⟨-, again, written, alike⟩ := stands.bare
  rw [Decodes, written.ofText, value_eq_of_alike alike]

/-- The text of a value is taken as it is. -/
theorem follows_sourceText : sourceText.Follows room fun text source => text = source := by
  refine ⟨fun {member spelled} stands source => ?_⟩
  rw [sourceText, stands.bare.1]
  constructor
  · exact Except.ok.inj
  · rintro rfl
    rfl

/-- What is made of a value follows the text of the value. -/
theorem Follows.map {reader : Reader α} (follows : reader.Follows room reads) (f : α → β) :
    (reader.map f).Follows room fun text result =>
      ∃ value, reads text value ∧ f value = result := by
  refine ⟨fun {member spelled} stands result => ?_⟩
  constructor
  · intro read
    obtain ⟨value, read, same⟩ := map_eq_ok read
    exact ⟨value, (follows.iff stands value).mp read, same⟩
  · rintro ⟨value, given, rfl⟩
    rw [Reader.map, (follows.iff stands value).mpr given]
    rfl

/-- A value that may be missing is missing exactly for null. -/
theorem Follows.optional {reader : Reader α} (follows : reader.Follows room reads) :
    (reader.optional).Follows room (OrNull reads) := by
  refine ⟨fun {member spelled} stands value? => ?_⟩
  by_cases null : member.value = nullText
  · rw [stands.null_iff.mpr null, null]
    constructor
    · intro read
      obtain rfl := Except.ok.inj read
      exact .null
    · rintro (_ | ⟨present, -⟩)
      · rfl
      · exact absurd rfl present
  · rw [optional_eq fun same => null (stands.null_iff.mp same)]
    constructor
    · intro read
      obtain ⟨value, inner, rfl⟩ := map_eq_ok read
      exact .given null ((follows.iff stands value).mp inner)
    · intro given
      generalize whole : member.value = text at given
      cases given with
      | null => exact absurd whole null
      | given present given =>
        rw [(follows.iff stands _).mpr (whole ▸ given)]
        rfl

end Reader

/-! ### What a record is made of -/

/-- The value that is read from the member of a name. -/
def Given {α : Type} (members : List Member) (name : String) (reads : List Char → α → Prop)
    (value : α) : Prop :=
  ∃ member ∈ members, member.name = name ∧ reads member.value value

/-- The value that is read from the member of a name, or another one if there is no such member. -/
def GivenOr {α : Type} (members : List Member) (name : String) (reads : List Char → α → Prop)
    (absent value : α) : Prop :=
  Given members name reads value ∨ name ∉ members.map Member.name ∧ value = absent

section
variable {α : Type} {members members' : List Member} {name : String}
  {reads : List Char → α → Prop} {absent value value' : α}

/-- A name gives one value only if the names are distinct. -/
theorem Given.unique (distinct : (members.map Member.name).Nodup)
    (unique : Relator.RightUnique reads)
    (given : Given members name reads value) (again : Given members name reads value') :
    value = value' := by
  obtain ⟨member, listed, rfl, given⟩ := given
  obtain ⟨other, listed', same, given'⟩ := again
  rw [List.inj_on_of_nodup_map distinct listed' listed same] at given'
  exact unique given given'

/-- A name that gives a value is the name of a member. -/
theorem Given.mem_names (given : Given members name reads value) :
    name ∈ members.map Member.name := by
  obtain ⟨member, listed, rfl, -⟩ := given
  exact List.mem_map_of_mem listed

/-- A name gives one value only, also where it may be absent. -/
theorem GivenOr.unique (distinct : (members.map Member.name).Nodup)
    (unique : Relator.RightUnique reads) (given : GivenOr members name reads absent value)
    (again : GivenOr members name reads absent value') : value = value' := by
  rcases given with given | ⟨missing, rfl⟩
  · rcases again with again | ⟨missing, -⟩
    · exact given.unique distinct unique again
    · exact absurd given.mem_names missing
  · rcases again with again | ⟨-, rfl⟩
    · exact absurd again.mem_names missing
    · rfl

/-- A name that is present gives its value. -/
theorem GivenOr.given (or : GivenOr members name reads absent value)
    (present : name ∈ members.map Member.name) : Given members name reads value :=
  or.resolve_right fun missing => missing.1 present

/-- The order of the members does not matter for what a name gives. -/
theorem Given.perm (given : Given members name reads value) (same : members.Perm members') :
    Given members' name reads value := by
  obtain ⟨member, listed, rest⟩ := given
  exact ⟨member, same.mem_iff.mp listed, rest⟩

/-- The order of the members does not matter, also where a name may be absent. -/
theorem GivenOr.perm (given : GivenOr members name reads absent value)
    (same : members.Perm members') : GivenOr members' name reads absent value := by
  rcases given with given | ⟨missing, same_value⟩
  · exact .inl (given.perm same)
  · exact .inr ⟨fun listed => missing ((same.map Member.name).mem_iff.mpr listed), same_value⟩

end

namespace Shape

variable {ρ α : Type} {shape : Shape ρ} {room : Nat} {members : List Member}
  {spelled : List (List Char × Outline)} {source : List Lexeme}

/-- A member that stands for a field is given to it. -/
theorem gives_of_follows {name : String} {required : Bool} {reader : Reader α} {put : α → ρ → ρ}
    (known : shape.field? name =
      some ⟨name, required, fun room outline => put <$> reader room outline⟩)
    {reads : List Char → α → Prop} (follows : reader.Follows room reads) {member : Member}
    {one : List Char × Outline} (stands : member.Spelled one) (named : member.name = name)
    {value : α} (given : reads member.value value) :
    shape.Gives room one member.name (put value) := by
  refine ⟨stands.name, _, named ▸ known, ?_⟩
  show put <$> reader room one.2 = _
  rw [(follows.iff stands value).mpr given]
  rfl

/-- A part of a record that only one field sets is read from the member of this name. -/
theorem part_of_members (strict : shape.strict) {name : String} {required : Bool}
    {reader : Reader α} {put : α → ρ → ρ} {get : ρ → α}
    (known : shape.field? name =
      some ⟨name, required, fun room outline => put <$> reader room outline⟩)
    (sets : ∀ value record, get (put value record) = value)
    (keeps : ∀ field ∈ shape.fields, field.name ≠ name → ∀ value put,
      field.read room value = .ok put → ∀ record, get (put record) = get record)
    {reads : List Char → α → Prop} (follows : reader.Follows room reads)
    (each : List.Forall₂ Member.Spelled members spelled) {record : ρ}
    (read : shape.read (room + 1) (.object spelled (some source)) = .ok record) :
    GivenOr members name reads (get shape.blank) (get record) := by
  obtain ⟨done, fold, complete⟩ := read_object_iff.mp read
  obtain ⟨-, rfl⟩ := finish_eq_ok_iff.mp complete
  -- The outlines that were read stand for the members one by one.
  rcases part_of_foldlM strict known sets keeps fold with
    ⟨unnamed, kept⟩ | ⟨one, listed, named, set⟩
  · refine .inr ⟨fun present => ?_, kept⟩
    obtain ⟨member, inside, rfl⟩ := List.mem_map.mp present
    obtain ⟨one, listed, stands⟩ := exists_of_forall₂ each inside
    exact unnamed one listed stands.name
  · obtain ⟨member, inside, stands⟩ := exists_of_forall₂ each.flip listed
    have same : member.name = name := Except.ok.inj (stands.name.symm.trans named)
    exact .inl ⟨member, inside, same, (follows.iff stands _).mp set⟩

/-- A strict record can be read from an object if its members have different names, each is one
that its field admits, and none that is required is missing. -/
theorem exists_read_iff (strict : shape.strict) {admits : Member → Prop}
    (gives : ∀ {member : Member} {one : List Char × Outline}, member.Spelled one →
      ((∃ put, shape.Gives room one member.name put) ↔ admits member))
    (each : List.Forall₂ Member.Spelled members spelled) :
    (∃ record, shape.read (room + 1) (.object spelled (some source)) = .ok record) ↔
      (members.map Member.name).Nodup ∧ (∀ member ∈ members, admits member) ∧
        ∀ field ∈ shape.fields, field.required → field.name ∈ members.map Member.name := by
  have named : List.Forall₂ (fun one name => readInside one.1 = .ok name) spelled
      (members.map Member.name) := by
    rw [List.forall₂_map_right_iff]
    exact each.flip.imp fun _ _ stands => stands.name
  constructor
  · rintro ⟨record, read⟩
    obtain ⟨done, fold, complete⟩ := read_object_iff.mp read
    obtain ⟨distinct, -, given⟩ := given_of_foldlM strict named fold
    refine ⟨distinct, fun member inside => ?_, fun field known required => ?_⟩
    · obtain ⟨one, listed, stands⟩ := exists_of_forall₂ each inside
      obtain ⟨name, put, accepted, -⟩ := gives_of_foldlM strict fold listed
      obtain rfl := Except.ok.inj (stands.name.symm.trans accepted.named)
      exact (gives stands).mp ⟨put, accepted⟩
    · have present := (finish_eq_ok_iff.mp complete).1 field known required
      simpa [given] using present
  · rintro ⟨distinct, admitted, required⟩
    -- Nothing was given before the first member, so different names are all that is asked of them.
    have accepted : List.Forall₂ (fun one name => ∃ put, shape.Gives room one name put) spelled
        (members.map Member.name) := by
      rw [List.forall₂_map_right_iff]
      have both := (List.forall₂_and_left _ _).mpr ⟨admitted, each⟩
      exact (both.imp fun _ _ both => (gives both.2).mpr both.1).flip
    have fresh : ∀ name ∈ members.map Member.name,
        name ∉ (⟨shape.blank, []⟩ : Partial ρ).given := fun _ _ => List.not_mem_nil
    obtain ⟨done, fold⟩ := exists_foldlM accepted distinct fresh
    obtain ⟨-, -, given⟩ := given_of_foldlM strict named fold
    refine ⟨done.record, read_object_iff.mpr ⟨done, fold, finish_eq_ok_iff.mpr ⟨?_, rfl⟩⟩⟩
    intro field known needed
    simpa [given] using required field known needed

end Shape

end Switchboard.Json
