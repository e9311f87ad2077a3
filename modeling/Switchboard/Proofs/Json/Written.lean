import Switchboard.Json.Printer
import Switchboard.Proofs.Json.Syntax

/-!
# `Switchboard.Proofs.Json.Written`: what the printer writes is JSON

The printer puts values together from the texts of their parts, without blanks between them. So
every value is written as JSON (`exists_written_text`), whatever texts it holds and however deep it
is. No control character is among it (`visible_text`).
-/

set_option autoImplicit false

namespace Switchboard.Json

variable {text more : List Char}

/-! ### Texts that spell values -/

/-- A text that spells a member of an object. -/
inductive WrittenMember : List Char → List Char × Outline → Prop
  | intro (name : String) {text : List Char} {value : Outline} (written : Written text value) :
    WrittenMember (memberText name text) (quoteInside name.toList, value)

/-- The hexadecimal digit of a small number is one. -/
theorem isHexDigit_hexDigit : ∀ n < 16, isHexDigit (hexDigit n) = true := by decide

/-- What is written between quotes may stand there. -/
theorem inside_quoteInside (text : List Char) : Inside (quoteInside text) := by
  induction text with
  | nil => exact .nil
  | cons c text ih =>
    show Inside (quoteChar c ++ quoteInside text)
    unfold quoteChar
    repeat' split
    all_goals try exact .short rfl ih
    · have zero : isHexDigit '0' = true := by decide
      have high := isHexDigit_hexDigit (c.toNat / 16) (by omega)
      have low := isHexDigit_hexDigit (c.toNat % 16) (by omega)
      exact .unicode (by simp [zero, high, low]) ih
    · rename_i unquote unescape _ _ _ _ _ visible
      exact .plain unquote unescape (Nat.le_of_not_lt visible) ih

/-- A quoted text is one token. -/
theorem cutToken?_quote (text rest : List Char) :
    cutToken? (quote text ++ rest) = some (.scalar (.string (quoteInside text)), rest) :=
  cutToken?_of_inside (inside_quoteInside text) rest

/-- A quoted text spells a string. -/
theorem written_quote (text : List Char) :
    Written (quote text) (.scalar (.string (quoteInside text))) :=
  written_string_behind .none (inside_quoteInside text)

/-- The text of a number spells it. -/
theorem written_number (number : Number) :
    Written number.text (.scalar (.number number.text)) := by
  refine written_scalar (.number number.text) fun rest ends => ?_
  exact cutToken?_number_text number ends.endsNumber

/-! ### Containers -/

/-- An array is spelled by its items between brackets, with commas between them. -/
theorem written_array {texts : List (List Char)} {outlines : List Outline}
    (written : List.Forall₂ Written texts outlines) :
    ∃ source, Written ('[' :: (List.intercalate [','] texts ++ [']']))
      (.array outlines (some source)) := by
  have spell : List.Forall₂ Padded.Spells (texts.map Padded.bare) outlines := by
    rw [List.forall₂_map_left_iff]
    exact written
  obtain ⟨source, whole⟩ := written_padded .none .none spell
  refine ⟨source, ?_⟩
  have same : (texts.map Padded.bare).map Padded.text = texts := by simp [Function.comp_def]
  rw [same] at whole
  cases texts <;> exact whole

/-- A member is laid out without blanks. -/
theorem WrittenMember.exists_slot {member : List Char × Outline}
    (written : WrittenMember text member) :
    ∃ slot : Slot, slot.text = text ∧ slot.Spells member := by
  obtain ⟨name, written⟩ := written
  exact ⟨⟨.bare (quote name.toList), .bare _⟩, by simp [Slot.text, memberText],
    cutToken?_quote name.toList, written⟩

/-- An object is spelled by its members between braces, with commas between them. -/
theorem written_object {texts : List (List Char)} {outlines : List (List Char × Outline)}
    (written : List.Forall₂ WrittenMember texts outlines) :
    ∃ source, Written (objectText texts) (.object outlines (some source)) := by
  obtain ⟨slots, same, spell⟩ : ∃ slots : List Slot, slots.map Slot.text = texts ∧
      List.Forall₂ Slot.Spells slots outlines := by
    induction written with
    | nil => exact ⟨[], rfl, .nil⟩
    | cons first _ ih =>
      obtain ⟨slot, rfl, spells⟩ := first.exists_slot
      obtain ⟨slots, rfl, others⟩ := ih
      exact ⟨slot :: slots, rfl, .cons spells others⟩
  obtain ⟨source, whole⟩ := written_slots .none .none spell
  refine ⟨source, ?_⟩
  rw [same] at whole
  cases texts <;> exact whole

/-! ### Values -/

mutual

/-- Every value is written as JSON. -/
theorem exists_written_text : (value : Value) → ∃ outline, Written value.text outline
  | .null => ⟨_, written_scalar .null fun _ _ => rfl⟩
  | .bool true => ⟨_, written_scalar (.bool true) fun _ _ => rfl⟩
  | .bool false => ⟨_, written_scalar (.bool false) fun _ _ => rfl⟩
  | .number number => ⟨_, written_number number⟩
  | .string text => ⟨_, written_quote text.toList⟩
  | .array items => by
    obtain ⟨outlines, written⟩ := exists_written_items items
    obtain ⟨source, array⟩ := written_array written
    exact ⟨_, array⟩
  | .object members => by
    obtain ⟨outlines, written⟩ := exists_written_members members
    obtain ⟨source, object⟩ := written_object written
    exact ⟨_, object⟩

/-- The text of each item spells a value. -/
theorem exists_written_items : (items : List Value) →
    ∃ outlines, List.Forall₂ Written (itemTexts items) outlines
  | [] => ⟨[], .nil⟩
  | item :: rest => by
    obtain ⟨outline, first⟩ := exists_written_text item
    obtain ⟨outlines, others⟩ := exists_written_items rest
    exact ⟨outline :: outlines, .cons first others⟩

/-- The text of each member spells a member. -/
theorem exists_written_members : (members : List (String × Value)) →
    ∃ outlines, List.Forall₂ WrittenMember (memberTexts members) outlines
  | [] => ⟨[], .nil⟩
  | (name, value) :: rest => by
    obtain ⟨outline, first⟩ := exists_written_text value
    obtain ⟨outlines, others⟩ := exists_written_members rest
    exact ⟨_, .cons (.intro name first) others⟩

end

/-! ### No control characters -/

/-- No character of a text is a control character below the space. -/
def Visible (text : List Char) : Prop := ∀ c ∈ text, 0x20 ≤ c.toNat

instance (text : List Char) : Decidable (Visible text) :=
  List.decidableBAll (fun c : Char => 0x20 ≤ c.toNat) text

/-- Texts without control characters can be joined. -/
theorem Visible.append (front : Visible text) (back : Visible more) : Visible (text ++ more) :=
  List.forall_mem_append.mpr ⟨front, back⟩

/-- A quoted text has no control characters. -/
theorem visible_quote (text : List Char) : Visible (quote text) :=
  fun _ member => visible_of_mem_quote member

/-- A member has no control characters if its value has none. -/
theorem visible_memberText (name : String) {value : List Char} (visible : Visible value) :
    Visible (memberText name value) :=
  (visible_quote name.toList).append (List.forall_mem_cons.mpr ⟨by decide, visible⟩)

/-- Texts without control characters can be listed with commas between them. -/
theorem visible_intercalate {texts : List (List Char)} (visible : ∀ text ∈ texts, Visible text) :
    Visible (List.intercalate [','] texts) := by
  cases texts with
  | nil => exact fun _ member => absurd member List.not_mem_nil
  | cons first rest =>
    obtain ⟨front, others⟩ := List.forall_mem_cons.mp visible
    rw [intercalate_comma_cons]
    refine front.append fun c member => ?_
    obtain ⟨text, listed, inside⟩ := List.mem_flatMap.mp member
    rcases List.mem_cons.mp inside with rfl | inside
    · decide
    · exact others text listed c inside

/-- An object has no control characters if its members have none. -/
theorem visible_objectText {members : List (List Char)}
    (visible : ∀ member ∈ members, Visible member) : Visible (objectText members) :=
  List.forall_mem_cons.mpr ⟨by decide, (visible_intercalate visible).append (by decide)⟩

/-- A member that may be absent. -/
theorem visible_of_mem_optional {α : Type} {value? : Option α} {write : α → List Char}
    (visible : ∀ value, Visible (write value)) {member : List Char}
    (present : member ∈ (value?.map write).toList) : Visible member := by
  obtain ⟨value, -, rfl⟩ := Option.map_eq_some_iff.mp (Option.mem_toList.mp present)
  exact visible value

mutual

/-- A value is written without control characters. -/
theorem visible_text : (value : Value) → Visible value.text
  | .null => by decide
  | .bool true => by decide
  | .bool false => by decide
  | .number number => fun _ member => visible_of_mem_number member
  | .string text => visible_quote text.toList
  | .array items => List.forall_mem_cons.mpr
      ⟨by decide, (visible_intercalate (visible_itemTexts items)).append (by decide)⟩
  | .object members => visible_objectText (visible_memberTexts members)

/-- The text of no item has control characters. -/
theorem visible_itemTexts : (items : List Value) → ∀ text ∈ itemTexts items, Visible text
  | [] => fun _ listed => absurd listed List.not_mem_nil
  | item :: rest => List.forall_mem_cons.mpr ⟨visible_text item, visible_itemTexts rest⟩

/-- The text of no member has control characters. -/
theorem visible_memberTexts : (members : List (String × Value)) →
    ∀ text ∈ memberTexts members, Visible text
  | [] => fun _ listed => absurd listed List.not_mem_nil
  | (name, value) :: rest => List.forall_mem_cons.mpr
      ⟨visible_memberText name (visible_text value), visible_memberTexts rest⟩

end

end Switchboard.Json
