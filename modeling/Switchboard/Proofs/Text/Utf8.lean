import Mathlib.Data.List.Forall2
import Switchboard.Proofs.Success
import Switchboard.Text.Utf8

/-!
# `Switchboard.Proofs.Text.Utf8`: what is read as UTF-8

The bytes of a character are a lead byte and one byte in each of the spans that it announces, and
the other way round (`encode_of_lead`, `exists_lead`). So a byte string is read as a text exactly if
it is what the text is written as (`decode_eq_ok_iff`).
-/

set_option autoImplicit false

namespace Switchboard.Text.Utf8

open String (utf8EncodeChar)

/-! ### One character -/

/-- A byte is in a span if it is between its ends. -/
theorem Span.holds_iff {span : Span} {b : UInt8} :
    span.holds b ↔ span.low.toNat ≤ b.toNat ∧ b.toNat ≤ span.high.toNat := by
  simp [holds, UInt8.le_iff_toNat_le]

/-- A continuation byte is from 0x80 to 0xBF. -/
theorem Span.holds_continuation_iff {b : UInt8} :
    Span.continuation.holds b ↔ 0x80 ≤ b.toNat ∧ b.toNat ≤ 0xBF := holds_iff

/-- One byte in each of some spans. -/
abbrev Fits (due : List Span) (tail : List UInt8) : Prop :=
  List.Forall₂ (fun span b => span.holds b) due tail

/-- A code point with the bits of the bytes behind the first. -/
def complete (code : Nat) (tail : List UInt8) : Nat :=
  tail.foldl (fun code b => code * 0x40 + b.toNat % 0x40) code

/-- What a first byte announces, by its number. -/
theorem lead?_eq (b : UInt8) : lead? b =
    if b.toNat < 0x80 then some ([], b.toNat)
    else if 0xC2 ≤ b.toNat ∧ b.toNat ≤ 0xDF then some ([.continuation], b.toNat % 0x20)
    else if 0xE0 ≤ b.toNat ∧ b.toNat ≤ 0xEF then
      some ([⟨if b.toNat = 0xE0 then 0xA0 else 0x80, if b.toNat = 0xED then 0x9F else 0xBF⟩,
        .continuation], b.toNat % 0x10)
    else if 0xF0 ≤ b.toNat ∧ b.toNat ≤ 0xF4 then
      some ([⟨if b.toNat = 0xF0 then 0x90 else 0x80, if b.toNat = 0xF4 then 0x8F else 0xBF⟩,
        .continuation, .continuation], b.toNat % 0x08)
    else none := by
  simp only [lead?, UInt8.lt_iff_toNat_lt, UInt8.le_iff_toNat_le, ← UInt8.toNat_inj,
    Bool.and_eq_true, decide_eq_true_eq, UInt8.reduceToNat, Span.continuation]
  grind

section

variable {b : UInt8}

/-- A byte below 0x80 is a character. -/
theorem lead?_one (range : b.toNat < 0x80) : lead? b = some ([], b.toNat) := by
  rw [lead?_eq, if_pos range]

/-- A byte from 0xC2 to 0xDF leads two bytes. -/
theorem lead?_two (range : 0xC2 ≤ b.toNat ∧ b.toNat ≤ 0xDF) :
    lead? b = some ([.continuation], b.toNat % 0x20) := by
  rw [lead?_eq, if_neg (by omega), if_pos range]

/-- A byte from 0xE0 to 0xEF leads three bytes, the second one in a span of its own. -/
theorem lead?_three (range : 0xE0 ≤ b.toNat ∧ b.toNat ≤ 0xEF) :
    lead? b = some ([⟨if b.toNat = 0xE0 then 0xA0 else 0x80,
      if b.toNat = 0xED then 0x9F else 0xBF⟩, .continuation], b.toNat % 0x10) := by
  rw [lead?_eq, if_neg (by omega), if_neg (by omega), if_pos range]

/-- A byte from 0xF0 to 0xF4 leads four bytes, the second one in a span of its own. -/
theorem lead?_four (range : 0xF0 ≤ b.toNat ∧ b.toNat ≤ 0xF4) :
    lead? b = some ([⟨if b.toNat = 0xF0 then 0x90 else 0x80,
      if b.toNat = 0xF4 then 0x8F else 0xBF⟩, .continuation, .continuation], b.toNat % 0x08) := by
  rw [lead?_eq, if_neg (by omega), if_neg (by omega), if_neg (by omega), if_pos range]

end

/-- How a code point is written, by its size. -/
theorem encode_ofNat {n : Nat} (valid : n.isValidChar) : utf8EncodeChar (Char.ofNat n) =
    if n ≤ 0x7F then [.ofNat n]
    else if n ≤ 0x7FF then [.ofNat (n / 0x40 % 0x20 + 0xC0), .ofNat (n % 0x40 + 0x80)]
    else if n ≤ 0xFFFF then
      [.ofNat (n / 0x1000 % 0x10 + 0xE0), .ofNat (n / 0x40 % 0x40 + 0x80),
        .ofNat (n % 0x40 + 0x80)]
    else
      [.ofNat (n / 0x40000 % 0x08 + 0xF0), .ofNat (n / 0x1000 % 0x40 + 0x80),
        .ofNat (n / 0x40 % 0x40 + 0x80), .ofNat (n % 0x40 + 0x80)] := by
  rw [Char.ofNat, dif_pos valid]
  rfl

/-- A byte is given back by its number. -/
theorem ofNat_eq {n : Nat} {b : UInt8} (same : n = b.toNat) : UInt8.ofNat n = b := by
  rw [same, UInt8.ofNat_toNat]

section

variable {a b c d : UInt8}

/-- One byte is the encoding of the character it stands for. -/
theorem encode_one (first : a.toNat < 0x80) : utf8EncodeChar (Char.ofNat a.toNat) = [a] := by
  rw [encode_ofNat (.inl (by omega)), if_pos (by omega), ofNat_eq rfl]

/-- Two bytes in their spans are the encoding of the character they stand for. -/
theorem encode_two (first : 0xC2 ≤ a.toNat ∧ a.toNat ≤ 0xDF)
    (second : 0x80 ≤ b.toNat ∧ b.toNat ≤ 0xBF) :
    utf8EncodeChar (Char.ofNat (a.toNat % 0x20 * 0x40 + b.toNat % 0x40)) = [a, b] := by
  rw [encode_ofNat (.inl (by omega)), if_neg (by omega), if_pos (by omega)]
  simp only [List.cons.injEq, and_true]
  exact ⟨ofNat_eq (by omega), ofNat_eq (by omega)⟩

/-- Three bytes in their spans are the encoding of the character they stand for. -/
theorem encode_three (first : 0xE0 ≤ a.toNat ∧ a.toNat ≤ 0xEF)
    (second : (if a.toNat = 0xE0 then 0xA0 else 0x80) ≤ b.toNat ∧
      b.toNat ≤ if a.toNat = 0xED then 0x9F else 0xBF)
    (third : 0x80 ≤ c.toNat ∧ c.toNat ≤ 0xBF) :
    utf8EncodeChar (Char.ofNat
      ((a.toNat % 0x10 * 0x40 + b.toNat % 0x40) * 0x40 + c.toNat % 0x40)) = [a, b, c] := by
  -- The narrower spans of the second byte shut out overlong forms and surrogates.
  have long : 0x7FF < (a.toNat % 0x10 * 0x40 + b.toNat % 0x40) * 0x40 + c.toNat % 0x40 := by
    grind
  have valid : ((a.toNat % 0x10 * 0x40 + b.toNat % 0x40) * 0x40 + c.toNat % 0x40).isValidChar := by
    unfold Nat.isValidChar
    grind
  rw [encode_ofNat valid, if_neg (by omega), if_neg (by omega), if_pos (by omega)]
  simp only [List.cons.injEq, and_true]
  have range : 0x80 ≤ b.toNat ∧ b.toNat ≤ 0xBF := by grind
  exact ⟨ofNat_eq (by omega), ofNat_eq (by omega), ofNat_eq (by omega)⟩

/-- Four bytes in their spans are the encoding of the character they stand for. -/
theorem encode_four (first : 0xF0 ≤ a.toNat ∧ a.toNat ≤ 0xF4)
    (second : (if a.toNat = 0xF0 then 0x90 else 0x80) ≤ b.toNat ∧
      b.toNat ≤ if a.toNat = 0xF4 then 0x8F else 0xBF)
    (third : 0x80 ≤ c.toNat ∧ c.toNat ≤ 0xBF) (fourth : 0x80 ≤ d.toNat ∧ d.toNat ≤ 0xBF) :
    utf8EncodeChar (Char.ofNat
      (((a.toNat % 0x08 * 0x40 + b.toNat % 0x40) * 0x40 + c.toNat % 0x40) * 0x40 +
        d.toNat % 0x40)) = [a, b, c, d] := by
  -- Here they shut out overlong forms and what lies beyond the last plane.
  have bounds : 0xFFFF < ((a.toNat % 0x08 * 0x40 + b.toNat % 0x40) * 0x40 + c.toNat % 0x40) * 0x40 +
      d.toNat % 0x40 ∧ ((a.toNat % 0x08 * 0x40 + b.toNat % 0x40) * 0x40 + c.toNat % 0x40) * 0x40 +
      d.toNat % 0x40 < 0x110000 := by
    grind
  rw [encode_ofNat (.inr (by omega)), if_neg (by omega), if_neg (by omega), if_neg (by omega)]
  simp only [List.cons.injEq, and_true]
  have range : 0x80 ≤ b.toNat ∧ b.toNat ≤ 0xBF := by grind
  exact ⟨ofNat_eq (by omega), ofNat_eq (by omega), ofNat_eq (by omega), ofNat_eq (by omega)⟩

end

/-- A lead byte and bytes that fit behind it are how a character is written. -/
theorem encode_of_lead {b : UInt8} {due : List Span} {code : Nat} {tail : List UInt8}
    (lead : lead? b = some (due, code)) (fits : Fits due tail) :
    utf8EncodeChar (Char.ofNat (complete code tail)) = b :: tail := by
  -- The lead byte says how many bytes are due, and those that fit are just as many.
  rw [lead?_eq] at lead
  split at lead
  case isTrue first =>
    obtain ⟨rfl, rfl⟩ := Prod.mk.inj (Option.some.inj lead)
    cases fits
    exact encode_one first
  split at lead
  case isTrue first =>
    obtain ⟨rfl, rfl⟩ := Prod.mk.inj (Option.some.inj lead)
    obtain _ | ⟨second, _ | _⟩ := fits
    exact encode_two first (Span.holds_iff.mp second)
  split at lead
  case isTrue first =>
    obtain ⟨rfl, rfl⟩ := Prod.mk.inj (Option.some.inj lead)
    obtain _ | ⟨second, _ | ⟨third, _ | _⟩⟩ := fits
    rw [Span.holds_iff, apply_ite UInt8.toNat, apply_ite UInt8.toNat] at second
    exact encode_three first second (Span.holds_iff.mp third)
  split at lead
  case isTrue first =>
    obtain ⟨rfl, rfl⟩ := Prod.mk.inj (Option.some.inj lead)
    obtain _ | ⟨second, _ | ⟨third, _ | ⟨fourth, _ | _⟩⟩⟩ := fits
    rw [Span.holds_iff, apply_ite UInt8.toNat, apply_ite UInt8.toNat] at second
    exact encode_four first second (Span.holds_iff.mp third) (Span.holds_iff.mp fourth)
  case isFalse => cases lead

/-- A small number is given back by its byte. -/
theorem toNat_ofNat {n : Nat} (small : n < 0x100) : (UInt8.ofNat n).toNat = n :=
  UInt8.toNat_ofNat_of_lt' small

/-- A number in the span of continuation bytes is one. -/
theorem holds_ofNat {n : Nat} (range : 0x80 ≤ n ∧ n ≤ 0xBF) :
    Span.continuation.holds (.ofNat n) := by
  rw [Span.holds_continuation_iff, toNat_ofNat (by omega)]
  exact range

/-- A character is written as a lead byte and bytes that fit behind it. -/
theorem exists_lead (c : Char) : ∃ b due code tail, utf8EncodeChar c = b :: tail ∧
    lead? b = some (due, code) ∧ Fits due tail ∧ complete code tail = c.toNat := by
  have valid : c.toNat < 0xD800 ∨ 0xDFFF < c.toNat ∧ c.toNat < 0x110000 := c.valid
  have written := encode_ofNat (n := c.toNat) valid
  rw [Char.ofNat_toNat] at written
  -- One case for each length, which the number of the character decides.
  split at written
  case isTrue one =>
    have first := toNat_ofNat (n := c.toNat) (by omega)
    refine ⟨_, _, _, _, written, lead?_one (by omega), .nil, first⟩
  split at written
  case isTrue two =>
    have first := toNat_ofNat (n := c.toNat / 0x40 % 0x20 + 0xC0) (by omega)
    refine ⟨_, _, _, _, written, lead?_two (by omega), .cons (holds_ofNat (by omega)) .nil, ?_⟩
    simp only [complete, List.foldl]
    rw [first, toNat_ofNat (by omega)]
    omega
  split at written
  case isTrue three =>
    have first := toNat_ofNat (n := c.toNat / 0x1000 % 0x10 + 0xE0) (by omega)
    refine ⟨_, _, _, _, written, lead?_three (by omega),
      .cons ?_ (.cons (holds_ofNat (by omega)) .nil), ?_⟩
    · rw [Span.holds_iff, apply_ite UInt8.toNat, apply_ite UInt8.toNat, first,
        toNat_ofNat (by omega)]
      grind
    · simp only [complete, List.foldl]
      rw [first, toNat_ofNat (by omega), toNat_ofNat (by omega)]
      omega
  case isFalse four =>
    have first := toNat_ofNat (n := c.toNat / 0x40000 % 0x08 + 0xF0) (by omega)
    refine ⟨_, _, _, _, written, lead?_four (by omega),
      .cons ?_ (.cons (holds_ofNat (by omega)) (.cons (holds_ofNat (by omega)) .nil)), ?_⟩
    · rw [Span.holds_iff, apply_ite UInt8.toNat, apply_ite UInt8.toNat, first,
        toNat_ofNat (by omega)]
      grind
    · simp only [complete, List.foldl]
      rw [first, toNat_ofNat (by omega), toNat_ofNat (by omega), toNat_ofNat (by omega)]
      omega

/-- Only a control character is written with the byte of one. -/
theorem visible_of_mem_encode {c : Char} (visible : 0x20 ≤ c.toNat) {b : UInt8}
    (member : b ∈ utf8EncodeChar c) : 0x20 ≤ b := by
  have valid : c.toNat < 0xD800 ∨ 0xDFFF < c.toNat ∧ c.toNat < 0x110000 := c.valid
  have written := encode_ofNat (n := c.toNat) valid
  rw [Char.ofNat_toNat] at written
  have high {n : Nat} (range : 0x20 ≤ n ∧ n < 0x100) : 0x20 ≤ UInt8.ofNat n := by
    rw [UInt8.le_iff_toNat_le, toNat_ofNat range.2]
    exact range.1
  rw [written] at member
  split at member
  · obtain rfl := List.mem_singleton.mp member
    exact high (by omega)
  · have big : ∃ n, b = UInt8.ofNat n ∧ 0x80 ≤ n ∧ n < 0x100 := by
      repeat' split at member
      all_goals
        simp only [List.mem_cons, List.not_mem_nil, or_false] at member
        grind
    obtain ⟨n, rfl, range⟩ := big
    exact high (by omega)

/-! ### Texts -/

/-- Inside a character, bytes that fit are read to its end. -/
theorem decodeFrom_append {due : List Span} {tail : List UInt8} (fits : Fits due tail)
    (inside : due ≠ []) (index seen code : Nat) (rest : List UInt8) :
    ∃ next, decodeFrom index seen due code (tail ++ rest) =
      (Char.ofNat (complete code tail) :: ·) <$> decodeFrom next 0 [] 0 rest := by
  induction fits generalizing seen code with
  | nil => exact absurd rfl inside
  | @cons span b due tail holds fits ih =>
    rw [List.cons_append, decodeFrom, if_pos holds]
    -- The last byte that is due ends the character.
    cases fits with
    | nil => exact ⟨_, rfl⟩
    | cons second others => exact ih (List.cons_ne_nil _ _) _ _

/-- The encoding of a character is decoded as the character. -/
theorem decodeFrom_encode (c : Char) (index : Nat) (rest : List UInt8) :
    ∃ next, decodeFrom index 0 [] 0 (utf8EncodeChar c ++ rest) =
      (c :: ·) <$> decodeFrom next 0 [] 0 rest := by
  obtain ⟨b, due, code, tail, written, lead, fits, whole⟩ := exists_lead c
  rw [written, List.cons_append, decodeFrom, lead]
  have same : Char.ofNat (complete code tail) = c := by rw [whole, Char.ofNat_toNat]
  cases fits with
  | nil =>
    rw [← same]
    exact ⟨_, rfl⟩
  | cons second others =>
    rw [← same]
    exact decodeFrom_append (.cons second others) (List.cons_ne_nil _ _) _ _ _ _

/-- The encoding of a text is decoded as the text. -/
theorem decodeFrom_flatMap (text : List Char) (index : Nat) :
    decodeFrom index 0 [] 0 (text.flatMap utf8EncodeChar) = .ok text := by
  induction text generalizing index with
  | nil => rfl
  | cons c text ih =>
    obtain ⟨next, read⟩ := decodeFrom_encode c index (text.flatMap utf8EncodeChar)
    rw [List.flatMap_cons, read, ih]
    rfl

/-- Bytes that are read already, in front of those that are due: none between characters, and else
the first ones of a character, whichever bytes follow that fit. -/
def Begins (front : List UInt8) (code : Nat) : List Span → Prop
  | [] => front = []
  | due => ∀ tail, Fits due tail →
      utf8EncodeChar (Char.ofNat (complete code tail)) = front ++ tail

/-- One more byte of a character. -/
theorem Begins.concat {front : List UInt8} {code : Nat} {span : Span} {due : List Span} {b : UInt8}
    (begins : Begins front code (span :: due)) (holds : span.holds b) (tail : List UInt8)
    (fits : Fits due tail) :
    utf8EncodeChar (Char.ofNat (complete (code * 0x40 + b.toNat % 0x40) tail)) =
      front ++ [b] ++ tail := by
  rw [List.append_assoc]
  exact begins (b :: tail) (.cons holds fits)

/-- A text that is read is written as the bytes from which it was read. -/
theorem flatMap_of_decodeFrom {index seen code : Nat} {due : List Span} {bytes : List UInt8}
    {text : List Char} (front : List UInt8) (begins : Begins front code due)
    (read : decodeFrom index seen due code bytes = .ok text) :
    text.flatMap utf8EncodeChar = front ++ bytes := by
  -- `front` grows byte by byte until its character is complete, and is empty again behind it.
  fun_induction decodeFrom index seen due code bytes generalizing front text
  case case1 due _ between =>
    obtain rfl := List.isEmpty_iff.mp between
    obtain rfl := Except.ok.inj read
    rw [show front = [] from begins]
    rfl
  case case4 code b rest code' lead ih =>
    obtain ⟨others, after, rfl⟩ := map_eq_ok read
    rw [show front = [] from begins, List.flatMap_cons, ih [] rfl after]
    exact congrArg (· ++ rest) (encode_of_lead lead .nil)
  case case5 code b rest due code' inside lead ih =>
    have ends (tail) (fits : Fits due tail) := encode_of_lead lead fits
    rw [show front = [] from begins]
    cases due with
    | nil => exact absurd rfl inside
    | cons span due => exact ih [b] ends read
  case case6 seen code b rest span due holds code' last ih =>
    obtain rfl := List.isEmpty_iff.mp last
    obtain ⟨others, after, rfl⟩ := map_eq_ok read
    have ends : utf8EncodeChar (Char.ofNat code') = front ++ [b] ++ [] :=
      begins.concat holds [] .nil
    rw [List.flatMap_cons, ih [] rfl after, ends]
    simp
  case case7 seen code b rest span due holds code' more ih =>
    have ends (tail) := begins.concat holds tail
    cases due with
    | nil => exact absurd rfl more
    | cons second due =>
      rw [ih (front ++ [b]) ends read]
      simp
  all_goals cases read

/-! ### Strings -/

/-- The bytes from an index on are listed behind those before it. -/
theorem toList_loop_eq (bytes : ByteArray) (i : Nat) (front : List UInt8) :
    ByteArray.toList.loop bytes i front = front.reverse ++ bytes.data.toList.drop i := by
  fun_induction ByteArray.toList.loop bytes i front with
  | case1 i front more ih =>
    have inside : i < bytes.data.toList.length := by simpa using more
    rw [ih, List.drop_eq_getElem_cons inside]
    simp [ByteArray.get!, more]
  | case2 i front done =>
    rw [List.drop_eq_nil_of_le (by simpa using Nat.le_of_not_lt done)]
    simp

/-- The bytes of a text are the encodings of its characters one after another. -/
theorem toList_toUTF8 (text : String) :
    text.toUTF8.toList = text.toList.flatMap utf8EncodeChar := by
  show ByteArray.toList.loop text.toByteArray 0 [] = _
  rw [toList_loop_eq, ← String.utf8Encode_toList, List.utf8Encode, List.toList_data_toByteArray]
  rfl

/-- A byte string is read as a text exactly if the text is written so. -/
theorem decode_eq_ok_iff {bytes : List UInt8} {text : List Char} :
    decode bytes = .ok text ↔ (String.ofList text).toUTF8.toList = bytes := by
  rw [toList_toUTF8, String.toList_ofList]
  constructor
  · intro read
    have between : Begins [] 0 [] := rfl
    exact flatMap_of_decodeFrom [] between read
  · rintro rfl
    exact decodeFrom_flatMap text 0

end Switchboard.Text.Utf8
