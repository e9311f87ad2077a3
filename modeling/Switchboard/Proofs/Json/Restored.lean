import Mathlib.Data.List.TakeWhile
import Switchboard.Proofs.Json.Value
import Switchboard.Proofs.Json.Written

/-!
# `Switchboard.Proofs.Json.Restored`: values read from their own text

The text of a value without doubles is read as this value again if it is not nested too deeply and
if no object in it starts with the name that embeds a text (`exists_depicts`). Otherwise the text
is not read as the value; and if the value was itself read from some text, it is not read at all.
-/

set_option autoImplicit false

namespace Switchboard.Json

open Numeric

/-! ### Integers -/

namespace Number

/-- The digits of a number give back the number. -/
theorem natOfDigits_decimalDigits (n : Nat) : natOfDigits (decimalDigits n) = n := by
  have read : Nat.ofDigitChars 10 (decimalDigits n) 0 = n := Nat.ofDigitChars_ten_toDigits
  rw [Nat.ofDigitChars_eq_foldl] at read
  simpa only [natOfDigits, digitValue, Nat.mul_comm] using read

/-- Digits are a number without sign, fraction and exponent. -/
theorem parts_digits {digits : List Char} (all : Digits digits) :
    parts digits = ⟨false, digits, none, none⟩ := by
  obtain ⟨c, rest, rfl⟩ := List.exists_cons_of_ne_nil all.nonempty
  have unsigned : c ≠ '-' := by
    rintro rfl
    exact absurd (all.all '-' List.mem_cons_self) (by decide)
  have taken : (c :: rest).takeWhile Char.isDigit = c :: rest :=
    List.takeWhile_eq_self_iff.mpr all.all
  have dropped : (c :: rest).dropWhile Char.isDigit = [] := List.dropWhile_eq_nil_iff.mpr all.all
  simp [parts, unsigned, taken, dropped]

/-- A sign before digits makes the number negative. -/
theorem parts_negative {digits : List Char} (all : Digits digits) :
    parts ('-' :: digits) = ⟨true, digits, none, none⟩ := by
  have taken : digits.takeWhile Char.isDigit = digits := List.takeWhile_eq_self_iff.mpr all.all
  have dropped : digits.dropWhile Char.isDigit = [] := List.dropWhile_eq_nil_iff.mpr all.all
  simp [parts, taken, dropped]

/-- Digits that stand for an integer in range are read as this integer. -/
theorem ofWritten?_of_parts {written whole : List Char} {negative : Bool} {value : Int}
    (taken : parts written = ⟨negative, whole, none, none⟩)
    (signed : (negative && natOfDigits whole == 0) = false)
    (same : (if negative then -(natOfDigits whole : Int) else natOfDigits whole) = value)
    (inRange : leastInteger ≤ value ∧ value ≤ greatestInteger) :
    ofWritten? written = some (integer value inRange) := by
  simp only [ofWritten?, taken, signed, same, ofInt?, dif_pos inRange]
  rfl

/-- An integer is read from its digits. -/
theorem ofWritten?_integerText {value : Int}
    (inRange : leastInteger ≤ value ∧ value ≤ greatestInteger) :
    ofWritten? (integerText value) = some (integer value inRange) := by
  have digits := digits_decimalDigits value.natAbs
  have size := natOfDigits_decimalDigits value.natAbs
  unfold integerText
  by_cases negative : value < 0
  · have nonzero : value.natAbs ≠ 0 := by omega
    have same : -(value.natAbs : Int) = value := by omega
    rw [if_pos negative]
    refine ofWritten?_of_parts (parts_negative digits) ?_ ?_ inRange
    · rw [size, Bool.true_and]
      exact beq_eq_false_iff_ne.mpr nonzero
    · rw [if_pos rfl, size, same]
  · have same : (value.natAbs : Int) = value := by omega
    rw [if_neg negative]
    refine ofWritten?_of_parts (parts_digits digits) (Bool.false_and _) ?_ inRange
    rw [size, same]
    rfl

end Number

/-! ### Outlines of written values -/

/-- Anything but null is read where null may be read instead. -/
theorem Reader.optional_eq {α : Type} {reader : Reader α} {room : Nat} {outline : Outline}
    (given : outline ≠ .scalar .null) :
    Reader.optional reader room outline = some <$> reader room outline := by
  unfold optional
  split
  · exact absurd rfl given
  · rfl

/-- What is written is read whole. -/
theorem Written.run_eq {α : Type} {reader : Reader α} {text : List Char} {outline : Outline}
    (written : Written text outline) : reader.run text = reader maxNesting outline := by
  rw [Reader.run, written.ofText]
  cases reader maxNesting outline <;> rfl

/-- An outline of the text of a value, with what is read from it. -/
structure Depicts (outline : Outline) (value : Value) : Prop where
  written : Written value.text outline
  read_iff : ∀ room,
    Reader.value room outline = .ok value ↔ value.Unmarked ∧ value.depth ≤ room
  only : value.Parsed → ∀ room other, Reader.value room outline = .ok other → other = value
  null_iff : outline = .scalar .null ↔ value = .null

/-- The outline of a member, whose name is written without need. -/
structure DepictsMember (outline : List Char × Outline) (member : String × Value) : Prop where
  named : outline.1 = quoteInside member.1.toList
  value : Depicts outline.2 member.2

/-- A name is read from the string that spells it. -/
theorem readInside_quoteInside (name : String) :
    readInside (quoteInside name.toList) = .ok name := by
  rw [readInside, unquote?_quoteInside]
  exact congrArg Except.ok String.ofList_toList

/-- A scalar that is written and read as a value depicts it. -/
theorem depicts_scalar {scalar : Scalar} {value : Value}
    (written : Written value.text (.scalar scalar)) (read : scalar.toValue = .ok value)
    (unmarked : value.Unmarked) (flat : value.depth = 0) : Depicts (.scalar scalar) value where
  written := written
  read_iff room := by
    -- Scalars need no level of nesting.
    have least : value.depth ≤ room := by omega
    exact iff_of_true read ⟨unmarked, least⟩
  only _ room other again := Except.ok.inj (again.symm.trans read)
  null_iff := by
    cases scalar with
    | null =>
      obtain rfl := Except.ok.inj read
      simp
    | bool =>
      obtain rfl := Except.ok.inj read
      simp
    | number written =>
      simp only [Scalar.toValue] at read
      split at read
      · obtain rfl := Except.ok.inj read
        simp
      · cases read
    | string inside =>
      obtain ⟨text, -, rfl⟩ := map_eq_ok read
      simp

section
variable {readText : List Char → Except Fault Value} {room : Nat}

/-- Items are read one by one. -/
theorem toValuesWith_cons_eq_ok_iff {item : Outline} {rest : List Outline} {value : Value}
    {values : List Value} :
    toValuesWith readText room (item :: rest) = .ok (value :: values) ↔
      item.toValueWith readText room = .ok value ∧
        toValuesWith readText room rest = .ok values := by
  rw [toValuesWith]
  cases item.toValueWith readText room with
  | error => simp [bind, Except.bind]
  | ok => cases toValuesWith readText room rest <;> simp [bind, Except.bind]

/-- Members are read one by one. -/
theorem toMembersWith_cons_eq_ok_iff {member : List Char × Outline}
    {rest : List (List Char × Outline)} {entry : String × Value}
    {entries : List (String × Value)} :
    toMembersWith readText room (member :: rest) = .ok (entry :: entries) ↔
      readInside member.1 = .ok entry.1 ∧ member.2.toValueWith readText room = .ok entry.2 ∧
        toMembersWith readText room rest = .ok entries := by
  rw [toMembersWith]
  cases readInside member.1 with
  | error => simp [bind, Except.bind]
  | ok =>
    cases member.2.toValueWith readText room with
    | error => simp [bind, Except.bind]
    | ok =>
      cases toMembersWith readText room rest <;> simp [bind, Except.bind, Prod.ext_iff, and_assoc]

variable {outlines : List Outline} {items : List Value}

/-- The text of each item stands for its outline. -/
theorem written_items (depict : List.Forall₂ Depicts outlines items) :
    List.Forall₂ Written (itemTexts items) outlines := by
  induction depict with
  | nil => exact .nil
  | cons first others ih => exact .cons first.written ih

/-- The items of an array are read if each of them is. -/
theorem toValuesWith_depicted (depict : List.Forall₂ Depicts outlines items) (room : Nat) :
    toValuesWith Value.parse room outlines = .ok items ↔
      ∀ item ∈ items, item.Unmarked ∧ item.depth ≤ room := by
  induction depict with
  | nil => simp [toValuesWith]
  | cons first others ih =>
    rw [toValuesWith_cons_eq_ok_iff, ih, List.forall_mem_cons]
    exact and_congr_left fun _ => first.read_iff room

/-- Nothing but the items is read from their outlines. -/
theorem eq_of_toValuesWith (depict : List.Forall₂ Depicts outlines items)
    (parsed : ∀ item ∈ items, item.Parsed) {room : Nat} {values : List Value}
    (read : toValuesWith Value.parse room outlines = .ok values) : values = items := by
  induction depict generalizing values with
  | nil => exact (Except.ok.inj read).symm
  | cons first others ih =>
    obtain ⟨mine, rest⟩ := List.forall_mem_cons.mp parsed
    obtain ⟨value, head, read⟩ := bind_eq_ok read
    obtain ⟨later, tail, same⟩ := bind_eq_ok read
    rw [← Except.ok.inj same, first.only mine _ _ head, ih rest tail]

variable {members : List (String × Value)} {spelled : List (List Char × Outline)}

/-- The text of each member stands for its outline. -/
theorem written_members (depict : List.Forall₂ DepictsMember spelled members) :
    List.Forall₂ WrittenMember (memberTexts members) spelled := by
  induction depict with
  | nil => exact .nil
  | @cons outline member _ _ first others ih =>
    obtain ⟨inside, value⟩ := outline
    obtain rfl : inside = quoteInside member.1.toList := first.named
    exact .cons (.intro member.1 first.value.written) ih

/-- The name of a member is read back. -/
theorem DepictsMember.read {outline : List Char × Outline} {member : String × Value}
    (depicts : DepictsMember outline member) : readInside outline.1 = .ok member.1 := by
  rw [depicts.named, readInside_quoteInside]

/-- The members of an object are read if each of them is. -/
theorem toMembersWith_depicted (depict : List.Forall₂ DepictsMember spelled members) (room : Nat) :
    toMembersWith Value.parse room spelled = .ok members ↔
      ∀ member ∈ members, member.2.Unmarked ∧ member.2.depth ≤ room := by
  induction depict with
  | nil => simp [toMembersWith]
  | cons first others ih =>
    rw [toMembersWith_cons_eq_ok_iff, ih, List.forall_mem_cons, and_iff_right first.read]
    exact and_congr_left fun _ => first.value.read_iff room

/-- The names of the members are read back in their order. -/
theorem names_of_toMembersWith (depict : List.Forall₂ DepictsMember spelled members) {room : Nat}
    {entries : List (String × Value)}
    (read : toMembersWith Value.parse room spelled = .ok entries) :
    entries.map Prod.fst = members.map Prod.fst := by
  induction depict generalizing entries with
  | nil =>
    rw [← Except.ok.inj read]
  | cons first others ih =>
    obtain ⟨name, named, read⟩ := bind_eq_ok read
    obtain ⟨value, -, read⟩ := bind_eq_ok read
    obtain ⟨later, tail, same⟩ := bind_eq_ok read
    rw [← Except.ok.inj same, List.map_cons, List.map_cons, ih tail]
    rw [Except.ok.inj (named.symm.trans first.read)]

/-- Nothing but the members is read from their outlines. -/
theorem eq_of_toMembersWith (depict : List.Forall₂ DepictsMember spelled members)
    (parsed : ∀ member ∈ members, member.2.Parsed) {room : Nat} {entries : List (String × Value)}
    (read : toMembersWith Value.parse room spelled = .ok entries) : entries = members := by
  induction depict generalizing entries with
  | nil => exact (Except.ok.inj read).symm
  | @cons outline member _ _ first others ih =>
    obtain ⟨mine, rest⟩ := List.forall_mem_cons.mp parsed
    obtain ⟨name, named, read⟩ := bind_eq_ok read
    obtain ⟨value, head, read⟩ := bind_eq_ok read
    obtain ⟨later, tail, same⟩ := bind_eq_ok read
    obtain rfl := Except.ok.inj (named.symm.trans first.read)
    rw [← Except.ok.inj same, first.value.only mine _ _ head, ih rest tail]

/-- Whether an object embeds a text is seen from the first name in it. -/
theorem isEmbedding_depicted (depict : List.Forall₂ DepictsMember spelled members) :
    isEmbedding spelled = (members.head?.map Prod.fst == some embeddedName) := by
  cases depict with
  | nil => rfl
  | @cons outline member _ _ first others =>
    rw [isEmbedding, first.named, unquote?_quoteInside]
    by_cases same : member.1 = embeddedName
    · simp [same]
    · have differ : member.1.toList ≠ embeddedName.toList :=
        fun letters => same (String.ext letters)
      simp [same, differ]

/-- An object that was read as an embedded text has nothing else in it. -/
theorem sole_of_readEmbedded (depict : List.Forall₂ DepictsMember spelled members)
    (embeds : isEmbedding spelled) {room : Nat} {value : Value}
    (read : readEmbedded Value.parse room spelled = .ok value) :
    members.map Prod.fst = [embeddedName] ∧ value.Parsed := by
  rw [isEmbedding_depicted depict] at embeds
  obtain ⟨text, outline, rfl, -, parsed⟩ := parse_of_readEmbedded read
  refine ⟨?_, parsed_of_parse parsed⟩
  cases depict with
  | cons first others =>
    cases others
    simpa using embeds

/-- An array is read as its items are. -/
theorem depicts_array (depict : List.Forall₂ Depicts outlines items) :
    ∃ source?, Depicts (.array outlines source?) (.array items) := by
  obtain ⟨source, written⟩ := written_array (written_items depict)
  refine ⟨some source, written, fun room => ?_, fun parsed room other read => ?_, by simp⟩
  · cases room with
    | zero =>
      -- There is no room for any container.
      refine iff_of_false (fun read => by cases read) ?_
      rintro ⟨-, deep⟩
      simp [Value.depth] at deep
    | succ room =>
      have unmarked : (Value.array items).Unmarked ↔ ∀ item ∈ items, item.Unmarked :=
        all_array_iff.trans (and_iff_right rfl)
      rw [unmarked, depth_array_le_iff, ← forall₂_and, ← toValuesWith_depicted depict room]
      simp only [Reader.value, Outline.toValueWith, requireClosed, Option.isSome_some]
      cases toValuesWith Value.parse room outlines <;> simp [bind, Except.bind]
  · cases room with
    | zero => cases read
    | succ room =>
      obtain ⟨values, read, done⟩ := bind_eq_ok read
      obtain ⟨_, -, same⟩ := bind_eq_ok done
      rw [← Except.ok.inj same, eq_of_toValuesWith depict (all_array_iff.mp parsed).2 read]

/-- Whether an object with an embedded text is read depends on this text alone. -/
theorem value_of_isEmbedding {source : List Lexeme} (embeds : isEmbedding spelled) (room : Nat) :
    Reader.value (room + 1) (.object spelled (some source)) =
      readEmbedded Value.parse room spelled := by
  simp only [Reader.value, Outline.toValueWith, embeds, requireClosed, Option.isSome_some]
  cases readEmbedded Value.parse room spelled <;> rfl

/-- Any other object is read member by member. -/
theorem value_of_not_isEmbedding {source : List Lexeme} (usual : ¬ isEmbedding spelled)
    (room : Nat) :
    Reader.value (room + 1) (.object spelled (some source)) =
      Value.ofMembers <$> toMembersWith Value.parse room spelled := by
  simp only [Reader.value, Outline.toValueWith, usual, requireClosed, Option.isSome_some]
  cases toMembersWith Value.parse room spelled <;> rfl

/-- An object in order is the value of its own members and of no others with these names. -/
theorem eq_of_ofMembers {entries : List (String × Value)} (ascending : Members.Ascending members)
    (names : entries.map Prod.fst = members.map Prod.fst)
    (same : Value.ofMembers entries = .object members) : entries = members := by
  have sorted : Members.Ascending entries := by
    rw [Members.Ascending, ← List.pairwise_map (f := Prod.fst) (R := fun a b => compare a b = .lt)]
    rw [names]
    exact List.pairwise_map.mpr ascending
  rw [Value.ofMembers, Members.ofList_of_ascending sorted] at same
  exact Value.object.inj same

/-- An object in order is read as its members are, unless it embeds a text. -/
theorem depicts_object (depict : List.Forall₂ DepictsMember spelled members)
    (ascending : Members.Ascending members) :
    ∃ source?, Depicts (.object spelled source?) (.object members) := by
  obtain ⟨source, written⟩ := written_object (written_members depict)
  have ordered : Value.ofMembers members = .object members :=
    congrArg Value.object (Members.ofList_of_ascending ascending)
  have embedding := isEmbedding_depicted depict
  refine ⟨some source, written, fun room => ?_, fun parsed room other read => ?_, by simp⟩
  · have unmarked : (Value.object members).Unmarked ↔
        ¬ isEmbedding spelled ∧ ∀ member ∈ members, member.2.Unmarked := by
      rw [embedding, Bool.not_eq_true, ← Bool.not_eq_true']
      exact all_object_iff
    -- Without a level left no object is read, however flat it is.
    cases room with
    | zero =>
      refine iff_of_false (fun read => by cases read) ?_
      rintro ⟨-, deep⟩
      simp [Value.depth] at deep
    | succ room =>
      rw [unmarked, depth_object_le_iff, and_assoc, ← forall₂_and, ← toMembersWith_depicted depict]
      by_cases embeds : isEmbedding spelled
      · -- The text would be the only member, and an object like this is not what is read.
        refine iff_of_false (fun read => ?_) fun fine => fine.1 embeds
        rw [value_of_isEmbedding embeds] at read
        obtain ⟨sole, parsed⟩ := sole_of_readEmbedded depict embeds read
        have node := (all_object_iff.mp parsed).1
        simp [sole] at node
      · rw [and_iff_right embeds, value_of_not_isEmbedding embeds]
        constructor
        · intro made
          obtain ⟨entries, read, same⟩ := map_eq_ok made
          have names := names_of_toMembersWith depict read
          rwa [← eq_of_ofMembers ascending names same]
        · intro read
          rw [read]
          exact congrArg Except.ok ordered
  · cases room with
    | zero => cases read
    | succ room =>
      obtain ⟨node, inner⟩ := all_object_iff.mp parsed
      by_cases embeds : isEmbedding spelled
      · rw [value_of_isEmbedding embeds] at read
        simp [(sole_of_readEmbedded depict embeds read).1] at node
      · rw [value_of_not_isEmbedding embeds] at read
        obtain ⟨entries, inside, rfl⟩ := map_eq_ok read
        rw [eq_of_toMembersWith depict inner inside, ordered]

/-- A value that may be null instead: null is taken for none. -/
theorem Depicts.optional {outline : Outline} {value : Value} (depicts : Depicts outline value)
    (room : Nat) :
    Reader.optional Reader.value room outline =
      if value = .null then .ok none else some <$> Reader.value room outline := by
  by_cases null : value = .null
  · rw [if_pos null, depicts.null_iff.mpr null]
    rfl
  · rw [if_neg null, Reader.optional_eq fun same => null (depicts.null_iff.mp same)]

/-- A value without doubles whose objects are in order is read from its own text if the text
embeds none and is not nested too deeply. -/
theorem exists_depicts {value : Value} (exact : value.Exact) (ordered : value.Ordered) :
    ∃ outline, Depicts outline value := by
  -- Members are read by their names, which is why the objects have to be in order.
  induction value with
  | null => exact ⟨_, depicts_scalar (written_scalar .null fun _ _ => rfl) rfl rfl rfl⟩
  | bool value =>
    have written : Written (Value.bool value).text (.scalar (.bool value)) := by
      cases value with
      | true => exact written_scalar (.bool true) fun _ _ => rfl
      | false => exact written_scalar (.bool false) fun _ _ => rfl
    exact ⟨_, depicts_scalar written rfl rfl rfl⟩
  | number number =>
    cases number with
    | integer value inRange =>
      refine ⟨_, depicts_scalar (written_number (.integer value inRange)) ?_ rfl rfl⟩
      simp only [Scalar.toValue, Number.text, Number.ofWritten?_integerText inRange]
    | float value => cases exact
  | string text =>
    refine ⟨_, depicts_scalar (written_quote text.toList) ?_ rfl rfl⟩
    simp only [Scalar.toValue, readInside_quoteInside]
    rfl
  | array items ih =>
    obtain ⟨-, exact⟩ := all_array_iff.mp exact
    obtain ⟨-, ordered⟩ := all_array_iff.mp ordered
    obtain ⟨outlines, depict⟩ := exists_forall₂ fun item listed =>
      ih item listed (exact item listed) (ordered item listed)
    obtain ⟨source?, depicts⟩ := depicts_array depict
    exact ⟨_, depicts⟩
  | object members ih =>
    obtain ⟨-, exact⟩ := all_object_iff.mp exact
    obtain ⟨sorted, ordered⟩ := all_object_iff.mp ordered
    have ascending : members.Pairwise fun a b => compare a.1 b.1 = .lt := of_decide_eq_true sorted
    have each (member) (listed : member ∈ members) : ∃ spelled, DepictsMember spelled member := by
      obtain ⟨outline, depicts⟩ := ih member listed (exact member listed) (ordered member listed)
      exact ⟨(quoteInside member.1.toList, outline), rfl, depicts⟩
    obtain ⟨spelled, depict⟩ := exists_forall₂ each
    obtain ⟨source?, depicts⟩ := depicts_object depict ascending
    exact ⟨_, depicts⟩

end

end Switchboard.Json
