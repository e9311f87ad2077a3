import Switchboard.Json.Reader
import Switchboard.Proofs.Json.Grammar

/-!
# `Switchboard.Proofs.Json.Embedding`: texts embedded in a text

An embedded text is spelled by a string of the text around it and is therefore shorter
(`Document.short_ofText`), so that the length of a text bounds how many are embedded in it one
inside the other (`Value.parseWithin_eq`). The reader of values is then its own reader of embedded
texts (`Value.parse_eq`).
-/

set_option autoImplicit false

namespace Switchboard.Json

/-! ### Strings of a text -/

/-- Reading the inside of a string makes it no longer. -/
theorem length_of_unquote? {inside text : List Char} (read : unquote? inside = some text) :
    text.length ≤ inside.length := by
  fun_induction unquote? inside generalizing text with
  | case1 => cases read; exact Nat.le_refl 0
  | case2 | case4 | case5 => cases read
  | case3 | case6 | case7 | case8 =>
    rename_i ih
    obtain ⟨rest, behind, rfl⟩ := Option.map_eq_some_iff.mp read
    have := ih behind
    simp only [List.length_cons]
    omega

/-- A value in which every string is written with fewer than so many characters. -/
inductive Outline.Short (bound : Nat) : Outline → Prop
  | scalar {value : Scalar} (short : value.source.length ≤ bound) : Short bound (.scalar value)
  | array {items : List Outline} {source? : Option (List Lexeme)}
      (short : ∀ item ∈ items, Short bound item) : Short bound (.array items source?)
  | object {members : List (List Char × Outline)} {source? : Option (List Lexeme)}
      (short : ∀ member ∈ members, Short bound member.2) : Short bound (.object members source?)
  | broken : Short bound .broken

/-- What is inside a short value is short. -/
theorem Outline.Short.contents {bound : Nat} {outline : Outline} (short : outline.Short bound)
    {value : Outline} (inside : value ∈ outline.contents) : value.Short bound := by
  cases short with
  | scalar | broken => cases inside
  | array short => exact short value inside
  | object short =>
    obtain ⟨member, listed, rfl⟩ := List.mem_map.mp inside
    exact short member listed

namespace Frame

/-- An open container with short values only. -/
def Short (bound : Nat) (frame : Frame) : Prop := ∀ value ∈ frame.contents, value.Short bound

/-- A short value can be put into a container with short values. -/
theorem Short.put {bound : Nat} {frame : Frame} (short : frame.Short bound) {value : Outline}
    (inner : value.Short bound) (spelling : List Lexeme) :
    (frame.put value spelling).Short bound := by
  cases frame with
  | array | member => exact List.forall_mem_cons.mpr ⟨inner, short⟩
  | object => exact short

/-- A container with short values is short when it is given up. -/
theorem Short.abandon {bound : Nat} {frame : Frame} (short : frame.Short bound)
    {inner? : Option Outline} (within : ∀ value, inner? = some value → value.Short bound) :
    (frame.abandon inner?).Short bound := by
  cases frame with
  | array source items =>
    refine .array fun item listed => ?_
    rcases List.mem_append.mp (List.mem_reverse.mp listed) with inner | before
    · exact within item (Option.mem_toList.mp inner)
    · exact short item before
  | object source members =>
    refine .object fun member listed => ?_
    exact short _ (List.mem_map_of_mem (List.mem_reverse.mp listed))
  | member source members name =>
    refine .object fun member listed => ?_
    rcases List.mem_cons.mp (List.mem_reverse.mp listed) with rfl | before
    · cases inner? with
      | none => exact .broken
      | some value => exact within value rfl
    · exact short _ (List.mem_map_of_mem before)

end Frame

namespace Builder

variable {bound : Nat} {frames : List Frame} {lexeme : Lexeme}

/-- What a lexeme leads to if all values are short so far. -/
def Short (bound : Nat) : Progress → Prop
  | .more builder => ∀ frame ∈ builder.frames, frame.Short bound
  | .finished root => root.Short bound
  | .fault => True

/-- The delivery of a short value keeps all containers short. -/
theorem short_deliver (short : ∀ frame ∈ frames, frame.Short bound) {value : Outline}
    (inner : value.Short bound) (spelling : List Lexeme) :
    Short bound (deliver frames value spelling) := by
  cases frames with
  | nil => exact inner
  | cons frame outer =>
    obtain ⟨first, others⟩ := List.forall_mem_cons.mp short
    exact List.forall_mem_cons.mpr ⟨first.put inner spelling, others⟩

/-- A short lexeme that begins a value keeps all containers short. -/
theorem short_beginValue (short : ∀ frame ∈ frames, frame.Short bound)
    (fits : lexeme.token.source.length ≤ bound) : Short bound (beginValue frames lexeme) := by
  have none (value : Outline) : value ∈ [] → value.Short bound := (absurd · List.not_mem_nil)
  unfold beginValue
  split
  case h_1 value token =>
    rw [token] at fits
    exact short_deliver short (.scalar fits) _
  case h_2 => exact List.forall_mem_cons.mpr ⟨none, short⟩
  case h_3 => exact List.forall_mem_cons.mpr ⟨none, short⟩
  case h_4 => trivial

/-- A container with short values is short when it is closed. -/
theorem short_close (short : ∀ frame ∈ frames, frame.Short bound) :
    Short bound (close frames lexeme) := by
  unfold close
  split
  case h_1 =>
    obtain ⟨first, others⟩ := List.forall_mem_cons.mp short
    exact short_deliver others (.array fun item listed => first item (List.mem_reverse.mp listed)) _
  case h_2 =>
    obtain ⟨first, others⟩ := List.forall_mem_cons.mp short
    exact short_deliver others (.object fun member listed =>
      first _ (List.mem_map_of_mem (List.mem_reverse.mp listed))) _
  case h_3 => trivial

/-- Only the contents of a container decide whether it is short. -/
theorem short_replace {frame frame' : Frame}
    (short : ∀ inner ∈ frame :: frames, inner.Short bound)
    (same : frame'.contents = frame.contents) :
    ∀ inner ∈ frame' :: frames, inner.Short bound := by
  obtain ⟨first, others⟩ := List.forall_mem_cons.mp short
  exact List.forall_mem_cons.mpr ⟨fun value listed => first value (same ▸ listed), others⟩

/-- The name of a member is not yet a value. -/
theorem short_beginMember (short : ∀ frame ∈ frames, frame.Short bound) :
    Short bound (beginMember frames lexeme) := by
  unfold beginMember
  split
  case h_1 => exact short_replace short rfl
  case h_2 => trivial

/-- A comma is no value. -/
theorem short_separate (short : ∀ frame ∈ frames, frame.Short bound) :
    Short bound (separate frames lexeme) := by
  unfold separate
  split
  case h_1 => exact short_replace short rfl
  case h_2 => exact short_replace short rfl
  case h_3 => trivial

/-- A short lexeme keeps all containers short. -/
theorem short_step {builder : Builder} (short : ∀ frame ∈ builder.frames, frame.Short bound)
    (fits : lexeme.token.source.length ≤ bound) : Short bound (builder.step lexeme) := by
  unfold step
  -- The cases are what is due, and for some of them whether the lexeme closes the container.
  split
  case h_1 => exact short_beginValue short fits
  case h_2 => exact short_close short
  case h_3 => exact short_beginValue short fits
  case h_4 => exact short_close short
  case h_5 => exact short_beginMember short
  case h_6 => exact short_beginMember short
  case h_7 =>
    dsimp only
    split
    case h_1 frame outer same =>
      rw [same] at short
      refine short_replace short ?_
      cases frame <;> rfl
    case h_2 => trivial
  case h_8 => trivial
  case h_9 => exact short_separate short
  case h_10 => exact short_close short

/-- Containers with short values leave a short value when they are given up. -/
theorem short_abandon {builder : Builder} (short : ∀ frame ∈ builder.frames, frame.Short bound) :
    builder.abandon.Short bound := by
  obtain ⟨frames, due⟩ := builder
  cases frames with
  | nil => exact .broken
  | cons frame outer =>
    obtain ⟨first, others⟩ := List.forall_mem_cons.mp short
    have innermost : (frame.abandon none).Short bound := first.abandon fun _ none => nomatch none
    -- From the innermost container outwards each is abandoned with what broke off inside it.
    refine List.foldlRecOn outer _ innermost fun inner within frame listed => ?_
    refine (others frame listed).abandon fun value same => ?_
    cases same
    exact within

end Builder

/-- A text of short lexemes is read to a short value. -/
theorem Document.short_readFrom {bound : Nat} {builder : Builder} {complete : Bool}
    {lexemes : List Lexeme} (short : ∀ frame ∈ builder.frames, frame.Short bound)
    (fits : ∀ lexeme ∈ lexemes, lexeme.token.source.length ≤ bound) :
    (readFrom builder complete lexemes).root.Short bound := by
  induction lexemes generalizing builder with
  | nil => exact Builder.short_abandon short
  | cons lexeme rest ih =>
    obtain ⟨fits, others⟩ := List.forall_mem_cons.mp fits
    have step := Builder.short_step short fits
    unfold readFrom
    split
    case h_1 after reached =>
      rw [reached] at step
      exact ih step others
    case h_2 root reached =>
      rw [reached] at step
      exact step
    case h_3 => exact Builder.short_abandon short

/-- No string of a text is longer than the text. -/
theorem Document.short_ofText (text : List Char) :
    (Document.ofText text).root.Short text.length :=
  short_readFrom (List.forall_mem_nil _) fun _ listed => length_token_le listed

/-! ### Reading embedded texts -/

variable {bound : Nat} {readText readText' : List Char → Except Fault Value}

/-- Whether two ways to read an embedded text agree on short ones. -/
def AgreeBelow (bound : Nat) (readText readText' : List Char → Except Fault Value) : Prop :=
  ∀ text : List Char, text.length < bound → readText text = readText' text

/-- A string of a short value stands for a short text. -/
theorem length_of_stringAs {expected : String} {room : Nat} {value : Outline} {text : String}
    (short : value.Short bound) (read : Reader.stringAs expected room value = .ok text) :
    text.toList.length < bound := by
  unfold Reader.stringAs at read
  split at read
  case h_1 inside =>
    cases short with
    | scalar short =>
      unfold readInside at read
      split at read
      case h_1 letters unquoted =>
        obtain rfl := Except.ok.inj read
        have := length_of_unquote? unquoted
        simp only [Scalar.source, List.length_cons, List.length_append] at short
        rw [String.toList_ofList]
        omega
      case h_2 => cases read
  case h_2 => cases read

/-- Members are read alike if their texts are. -/
theorem readEmbedded_eq (agree : AgreeBelow bound readText readText') (room : Nat)
    {members : List (List Char × Outline)} (short : ∀ member ∈ members, member.2.Short bound) :
    readEmbedded readText room members = readEmbedded readText' room members := by
  match members with
  | [] => rfl
  | (name, value) :: rest =>
    simp only [readEmbedded]
    cases read : Reader.stringAs "raw value" room value with
    | error fault => rfl
    | ok text =>
      have fits := length_of_stringAs (short _ List.mem_cons_self) read
      simp only [bind, Except.bind, agree _ fits]

/-- Items are read alike if each of them is. -/
theorem toValuesWith_eq {room : Nat} {items : List Outline}
    (same : ∀ item ∈ items, item.toValueWith readText room = item.toValueWith readText' room) :
    toValuesWith readText room items = toValuesWith readText' room items := by
  induction items with
  | nil => rfl
  | cons item rest ih =>
    obtain ⟨first, others⟩ := List.forall_mem_cons.mp same
    rw [toValuesWith, toValuesWith, first, ih others]

/-- Members are read alike if the value of each of them is. -/
theorem toMembersWith_eq {room : Nat} {members : List (List Char × Outline)}
    (same : ∀ member ∈ members,
      member.2.toValueWith readText room = member.2.toValueWith readText' room) :
    toMembersWith readText room members = toMembersWith readText' room members := by
  induction members with
  | nil => rfl
  | cons member rest ih =>
    obtain ⟨first, others⟩ := List.forall_mem_cons.mp same
    obtain ⟨name, value⟩ := member
    rw [toMembersWith, toMembersWith, first, ih others]

/-- A short value is read alike by readers that agree on all short texts. -/
theorem Outline.Short.toValueWith_eq (agree : AgreeBelow bound readText readText')
    {value : Outline} (short : value.Short bound) (room : Nat) :
    value.toValueWith readText room = value.toValueWith readText' room := by
  induction short generalizing room with
  | scalar short => rfl
  | array short ih =>
    cases room with
    | zero => rfl
    | succ room =>
      rw [toValueWith, toValueWith, toValuesWith_eq fun item listed => ih item listed room]
  | object short ih =>
    cases room with
    | zero => rfl
    | succ room =>
      rw [toValueWith, toValueWith, readEmbedded_eq agree room short,
        toMembersWith_eq fun member listed => ih member listed room]
  | broken => rfl

/-- Two ways to read embedded texts that agree on those shorter than a text read it alike. -/
theorem run_toValueWith_eq {text : List Char} (agree : AgreeBelow text.length readText readText') :
    Reader.run (fun room outline => outline.toValueWith readText room) text =
      Reader.run (fun room outline => outline.toValueWith readText' room) text := by
  simp only [Reader.run]
  rw [(Document.short_ofText text).toValueWith_eq agree]

/-- The length of a text bounds how many are embedded in it one inside the other. -/
theorem Value.parseWithin_eq {fuel : Nat} {text : List Char} (enough : text.length < fuel) :
    Value.parseWithin fuel text = Value.parse text := by
  -- Both sides read the texts embedded in this one with fuel for their length,
  -- and those are shorter.
  induction fuel using Nat.strongRecOn generalizing text with
  | ind fuel ih =>
    obtain ⟨fuel, rfl⟩ := Nat.exists_eq_add_one_of_ne_zero (Nat.ne_zero_of_lt enough)
    refine run_toValueWith_eq fun inner shorter => ?_
    rw [ih fuel (Nat.lt_succ_self fuel) (by omega), ih text.length (by omega) shorter]

/-- Embedded texts are read like the text around them. -/
theorem Value.parse_eq (text : List Char) : Value.parse text = Reader.value.run text :=
  run_toValueWith_eq fun _ shorter => Value.parseWithin_eq shorter

end Switchboard.Json
