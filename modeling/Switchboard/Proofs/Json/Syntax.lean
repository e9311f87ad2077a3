import Switchboard.Proofs.Json.Layout
import Switchboard.Proofs.Json.Numeral

/-!
# `Switchboard.Proofs.Json.Syntax`: JSON texts, character by character

`Grammatical` says which texts are JSON values, without reference to lexemes or to any reader. Every
such text spells an outline behind any blanks (`Grammatical.exists_written`), however deep it is and
whatever its strings and numbers stand for.
-/

set_option autoImplicit false

namespace Switchboard.Json

/-! ### The grammar -/

/-- A text between quotes. -/
def quoted (inside : List Char) : List Char := '"' :: (inside ++ ['"'])

/-- A text that is a string. -/
inductive StringText : List Char → Prop
  | intro {inside : List Char} (inner : Inside inside) : StringText (quoted inside)

/-- The word for nothing. -/
def nullText : List Char := ['n', 'u', 'l', 'l']

/-- A text that is a JSON value, without blanks around it. -/
inductive Grammatical : List Char → Prop
  | nullWord : Grammatical nullText
  | trueWord : Grammatical ['t', 'r', 'u', 'e']
  | falseWord : Grammatical ['f', 'a', 'l', 's', 'e']
  | number {sign whole fraction exponent : List Char} (signed : sign = [] ∨ sign = ['-'])
      (numeral : Numeral whole fraction exponent) :
      Grammatical (sign ++ (whole ++ fraction ++ exponent))
  | string {text : List Char} (string : StringText text) : Grammatical text
  | array (empty : Blanks) (items : List Padded)
      (values : ∀ item ∈ items, Grammatical item.core) :
      Grammatical (enclosed '[' ']' empty (items.map Padded.text))
  | object (empty : Blanks) (slots : List Slot) (names : ∀ slot ∈ slots, StringText slot.name.core)
      (values : ∀ slot ∈ slots, Grammatical slot.value.core) :
      Grammatical (enclosed '\x7b' '\x7d' empty (slots.map Slot.text))

/-! ### Where texts start -/

/-- What is enclosed starts with its bracket. -/
theorem exists_enclosed (opening closing : Char) (empty : Blanks) (texts : List (List Char)) :
    ∃ more, enclosed opening closing empty texts = opening :: more := by
  cases texts with
  | nil => exact ⟨_, rfl⟩
  | cons first rest => exact ⟨_, rfl⟩

variable {text inside : List Char}

/-- No value starts with a blank, and only a string starts with a quote. -/
theorem Grammatical.start (grammatical : Grammatical text) :
    ∃ c more, text = c :: more ∧ isGap c = false ∧ (c = '"' → StringText text) := by
  cases grammatical with
  | nullWord => exact ⟨'n', _, rfl, rfl, fun same => absurd same (by decide)⟩
  | trueWord => exact ⟨'t', _, rfl, rfl, fun same => absurd same (by decide)⟩
  | falseWord => exact ⟨'f', _, rfl, rfl, fun same => absurd same (by decide)⟩
  | number signed numeral =>
    rcases signed with rfl | rfl
    · obtain ⟨c, more, rfl⟩ := List.exists_cons_of_ne_nil numeral.digits.nonempty
      have digit := numeral.digits.all c List.mem_cons_self
      refine ⟨c, _, rfl, Bool.eq_false_iff.mpr fun isBlank => ?_, ?_⟩
      · simp only [isGap, Bool.or_eq_true, beq_iff_eq] at isBlank
        rcases isBlank with ((rfl | rfl) | rfl) | rfl <;> exact absurd digit (by decide)
      · rintro rfl
        exact absurd digit (by decide)
    · exact ⟨'-', _, rfl, rfl, fun same => absurd same (by decide)⟩
  | string string =>
    have whole := string
    obtain ⟨inner⟩ := string
    exact ⟨'"', _, rfl, rfl, fun _ => whole⟩
  | array empty items values =>
    obtain ⟨more, same⟩ := exists_enclosed '[' ']' empty (items.map Padded.text)
    exact ⟨'[', more, same, rfl, fun same => absurd same (by decide)⟩
  | object empty slots names values =>
    obtain ⟨more, same⟩ := exists_enclosed '\x7b' '\x7d' empty (slots.map Slot.text)
    exact ⟨'\x7b', more, same, rfl, fun same => absurd same (by decide)⟩

/-- A value does not start with a blank. -/
theorem Grammatical.unblank (grammatical : Grammatical text) (c : Char)
    (first : text.head? = some c) : isGap c = false := by
  obtain ⟨c, more, rfl, starts, -⟩ := grammatical.start
  obtain rfl := Option.some.inj first
  exact starts

/-- What stands between the quotes of a string may stand there. -/
theorem StringText.inner (string : StringText (quoted inside)) : Inside inside := by
  generalize whole : quoted inside = text at string
  obtain ⟨inner⟩ := string
  rwa [List.append_cancel_right (List.cons.inj whole).2]

/-- Of the values only a string is written between quotes. -/
theorem Grammatical.inner (grammatical : Grammatical (quoted inside)) : Inside inside := by
  obtain ⟨c, more, same, -, string⟩ := grammatical.start
  exact (string (List.cons.inj same).1.symm).inner

/-! ### Texts that are cut into lexemes -/

/-- A quoted text is one token. -/
theorem cutToken?_of_inside (inner : Inside inside) (rest : List Char) :
    cutToken? (quoted inside ++ rest) = some (.scalar (.string inside), rest) := by
  have whole : quoted inside ++ rest = '"' :: (inside ++ '"' :: rest) := by simp [quoted]
  rw [whole]
  show (cutString? (inside ++ '"' :: rest)).map _ = _
  rw [cutString?_of_inside inner]
  rfl

/-- A string with blanks before it spells the string. -/
theorem written_string_behind (gap : Blanks) (inner : Inside inside) :
    Written (gap.text ++ quoted inside) (.scalar (.string inside)) :=
  written_scalar_behind gap (.string inside) fun rest _ => cutToken?_of_inside inner rest

/-- The members of an object spell something if their names are strings and their values spell
something. -/
theorem exists_slots {slots : List Slot} (names : ∀ slot ∈ slots, StringText slot.name.core)
    (values : ∀ slot ∈ slots, ∃ outline, slot.value.Spells outline) :
    ∃ members, List.Forall₂ Slot.Spells slots members := by
  have each (slot) (listed : slot ∈ slots) : ∃ member, slot.Spells member := by
    obtain ⟨outline, spells⟩ := values slot listed
    have string := names slot listed
    generalize whole : slot.name.core = text at string
    obtain ⟨inner⟩ := string
    exact ⟨(_, outline), fun rest => whole ▸ cutToken?_of_inside inner rest, spells⟩
  obtain ⟨members, spell⟩ := exists_forall₂ (R := flip Slot.Spells) each
  exact ⟨members, spell.flip⟩

/-- Every value spells something behind any blanks. -/
theorem Grammatical.exists_written (grammatical : Grammatical text) (gap : Blanks) :
    ∃ outline, Written (gap.text ++ text) outline := by
  -- The blanks vary, since each value inside a container has its own before it.
  induction grammatical generalizing gap with
  | nullWord => exact ⟨_, written_scalar_behind gap .null fun _ _ => rfl⟩
  | trueWord => exact ⟨_, written_scalar_behind gap (.bool true) fun _ _ => rfl⟩
  | falseWord => exact ⟨_, written_scalar_behind gap (.bool false) fun _ _ => rfl⟩
  | number signed numeral =>
    exact ⟨_, written_scalar_behind gap (.number _) fun rest ends =>
      cutToken?_of_numeral numeral signed ends.endsNumber⟩
  | string string =>
    obtain ⟨inner⟩ := string
    exact ⟨_, written_string_behind gap inner⟩
  | array empty items values ih =>
    obtain ⟨outlines, spell⟩ := exists_forall₂ (R := flip Padded.Spells) fun item listed =>
      ih item listed item.before
    obtain ⟨source, written⟩ := written_padded gap empty spell.flip
    exact ⟨_, written⟩
  | object empty slots names values ih =>
    obtain ⟨members, spell⟩ := exists_slots names fun slot listed =>
      ih slot listed slot.value.before
    obtain ⟨source, written⟩ := written_slots gap empty spell
    exact ⟨_, written⟩

end Switchboard.Json
