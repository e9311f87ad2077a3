import Switchboard.Proofs.Config.Catalogue
import Switchboard.Proofs.Text.Utf8

/-!
# `Switchboard.Proofs.Scope`: the grammar of scopes

`Scope.parse` counts the bytes of a part and looks at them one by one. `Scope.Composed` is the
grammar that is meant, in characters: a namespace, a colon and a reference, each a run of characters
of its class. The two agree because the classes hold none but ASCII characters, so that a text of
the right bytes is a text of as many characters (`isWord_iff`). Since no namespace has a colon in
it, a text is composed in one way at most (`Composed.unique`), and `parses_by_grammar` puts the
acceptance, the refusals and the parts of an accepted scope together.
-/

set_option autoImplicit false

namespace Switchboard.Scope

open String (utf8EncodeChar)

/-! ### The grammar -/

/-- A run of characters of a class, so many at least and so many at most. -/
structure Repeats (admits : Char → Prop) (least most : Nat) (text : String) : Prop where
  least : least ≤ text.length
  most : text.length ≤ most
  all : ∀ c ∈ text.toList, admits c

/-- A character out of `[-a-z0-9]`. -/
def NamespaceChar (c : Char) : Prop := c = '-' ∨ 'a' ≤ c ∧ c ≤ 'z' ∨ '0' ≤ c ∧ c ≤ '9'

/-- A character out of `[-_a-zA-Z0-9]`. -/
def ReferenceChar (c : Char) : Prop :=
  c = '-' ∨ c = '_' ∨ 'a' ≤ c ∧ c ≤ 'z' ∨ 'A' ≤ c ∧ c ≤ 'Z' ∨ '0' ≤ c ∧ c ≤ '9'

/-- A text that matches `[-a-z0-9]{3,8}`. -/
def Namespace (text : String) : Prop := Repeats NamespaceChar 3 8 text

/-- A text that matches `[-_a-zA-Z0-9]{1,32}`. -/
def Reference (text : String) : Prop := Repeats ReferenceChar 1 32 text

/-- A text that is composed of a namespace, a colon and what may follow this namespace. -/
structure Composed (raw head tail : String) : Prop where
  text : raw = head ++ ":" ++ tail
  first : Namespace head
  second : if head = wallet then Namespace tail else Reference tail

/-! ### Bytes and characters -/

/-- The check of a character in a namespace is the rule. -/
theorem isNamespaceChar_iff {c : Char} : isNamespaceChar c ↔ NamespaceChar c := by
  unfold isNamespaceChar NamespaceChar Char.isLower Char.isDigit
  simp only [Bool.or_eq_true, Bool.and_eq_true, decide_eq_true_eq, beq_iff_eq, Char.le_def]
  grind

/-- The check of a character in a reference is the rule. -/
theorem isReferenceChar_iff {c : Char} : isReferenceChar c ↔ ReferenceChar c := by
  unfold isReferenceChar ReferenceChar Char.isAlphanum Char.isAlpha Char.isUpper Char.isLower
    Char.isDigit
  simp only [Bool.or_eq_true, Bool.and_eq_true, decide_eq_true_eq, beq_iff_eq, Char.le_def]
  grind

/-- The characters of a namespace are ASCII. -/
theorem NamespaceChar.ascii {c : Char} (admitted : NamespaceChar c) : c.toNat < 0x80 := by
  rcases admitted with rfl | ⟨-, high⟩ | ⟨-, high⟩
  · decide
  all_goals exact Nat.lt_of_le_of_lt (Char.le_def.mp high) (by decide)

/-- The characters of a reference are ASCII. -/
theorem ReferenceChar.ascii {c : Char} (admitted : ReferenceChar c) : c.toNat < 0x80 := by
  rcases admitted with rfl | rfl | ⟨-, high⟩ | ⟨-, high⟩ | ⟨-, high⟩
  · decide
  · decide
  all_goals exact Nat.lt_of_le_of_lt (Char.le_def.mp high) (by decide)

section
variable {c : Char} {admits : Char → Bool}

/-- An ASCII character is written as the one byte of its code. -/
theorem encode_of_ascii (ascii : c.toNat < 0x80) : utf8EncodeChar c = [.ofNat c.toNat] := by
  have written := Text.Utf8.encode_ofNat (n := c.toNat) c.valid
  rwa [Char.ofNat_toNat, if_pos (by omega)] at written

/-- An ASCII character is one byte. -/
theorem ofUInt8_ofNat (ascii : c.toNat < 0x80) : Char.ofUInt8 (.ofNat c.toNat) = c := by
  apply Char.ext
  apply UInt32.toNat_inj.mp
  show (UInt8.ofNat c.toNat).toUInt32.toNat = c.toNat
  rw [UInt8.toNat_toUInt32, Text.Utf8.toNat_ofNat (by omega)]

/-- A character has an admitted byte only if it is an ASCII character. -/
theorem ascii_of_encode (ascii : ∀ c, admits c → c.toNat < 0x80)
    (all : ∀ byte ∈ utf8EncodeChar c, admits (.ofUInt8 byte)) : c.toNat < 0x80 := by
  -- The first byte says how many follow, and an admitted one says that none do.
  obtain ⟨b, due, code, tail, written, lead, fits, whole⟩ := Text.Utf8.exists_lead c
  have first : admits (.ofUInt8 b) := all b (by simp [written])
  have small : b.toNat < 0x80 := ascii _ first
  rw [Text.Utf8.lead?_one small] at lead
  obtain ⟨rfl, rfl⟩ := Prod.mk.inj (Option.some.inj lead)
  cases fits
  exact whole ▸ small

/-- The bytes of a character are admitted exactly if the character is. -/
theorem encode_admitted_iff (ascii : ∀ c, admits c → c.toNat < 0x80) :
    (∀ byte ∈ utf8EncodeChar c, admits (.ofUInt8 byte)) ↔ admits c := by
  constructor
  · intro all
    have small := ascii_of_encode ascii all
    simpa [encode_of_ascii small, ofUInt8_ofNat small] using all
  · intro admitted
    have small := ascii c admitted
    simpa [encode_of_ascii small, ofUInt8_ofNat small] using admitted

/-- Admitted characters are as many as their bytes. -/
theorem length_flatMap_encode {part : List Char} (ascii : ∀ c ∈ part, c.toNat < 0x80) :
    (part.flatMap utf8EncodeChar).length = part.length := by
  induction part with
  | nil => rfl
  | cons c rest ih =>
    obtain ⟨small, others⟩ := List.forall_mem_cons.mp ascii
    rw [List.flatMap_cons, encode_of_ascii small, List.length_append, ih others, List.length_cons]
    exact Nat.add_comm 1 rest.length

/-- Bytes of a class without other than ASCII characters are counted and admitted as the characters
that they spell. -/
theorem isWord_iff (ascii : ∀ c, admits c → c.toNat < 0x80) {least most : Nat}
    {part : List Char} :
    isWord least most admits part ↔
      Repeats (fun c => admits c) least most (String.ofList part) := by
  have admitted : (∀ byte ∈ part.flatMap utf8EncodeChar, admits (.ofUInt8 byte)) ↔
      ∀ c ∈ part, admits c := by
    simp only [List.forall_mem_flatMap, encode_admitted_iff ascii]
  simp only [isWord, Bool.and_eq_true, decide_eq_true_eq, List.all_eq_true, admitted]
  -- Only for admitted characters is the number of bytes the number of characters.
  constructor
  · rintro ⟨⟨low, high⟩, all⟩
    rw [length_flatMap_encode fun c member => ascii c (all c member)] at low high
    exact ⟨by simpa using low, by simpa using high, by simpa using all⟩
  · rintro ⟨low, high, all⟩
    simp only [String.length_ofList, String.toList_ofList] at low high all
    rw [length_flatMap_encode fun c member => ascii c (all c member)]
    exact ⟨⟨low, high⟩, all⟩

end

/-- The check of a namespace is the rule. -/
theorem isNamespace_iff {part : List Char} :
    isNamespace part ↔ Namespace (String.ofList part) := by
  have ascii (c : Char) (admitted : isNamespaceChar c) : c.toNat < 0x80 :=
    (isNamespaceChar_iff.mp admitted).ascii
  simp only [isNamespace, isWord_iff ascii, isNamespaceChar_iff]
  rfl

/-- The check of a reference is the rule. -/
theorem isReference_iff {part : List Char} :
    isReference part ↔ Reference (String.ofList part) := by
  have ascii (c : Char) (admitted : isReferenceChar c) : c.toNat < 0x80 :=
    (isReferenceChar_iff.mp admitted).ascii
  simp only [isReference, isWord_iff ascii, isReferenceChar_iff]
  rfl

/-! ### Composed texts -/

/-- No namespace has a colon in it. -/
theorem Namespace.free {text : String} (named : Namespace text) : ':' ∉ text.toList := by
  intro member
  have admitted := named.all ':' member
  revert admitted
  unfold NamespaceChar
  decide

variable {raw head tail : String}

/-- The parts of a composed text surround its first colon. -/
theorem Composed.halves (composed : Composed raw head tail) :
    halves? raw.toList = some (head.toList, tail.toList) := by
  refine halves?_eq_some_iff.mpr ⟨?_, composed.first.free⟩
  rw [composed.text]
  simp

/-- A text is composed in one way at most. -/
theorem Composed.unique {head' tail' : String} (composed : Composed raw head tail)
    (again : Composed raw head' tail') : head' = head ∧ tail' = tail := by
  have same := again.halves.symm.trans composed.halves
  obtain ⟨heads, tails⟩ := Prod.mk.inj (Option.some.inj same)
  exact ⟨String.toList_inj.mp heads, String.toList_inj.mp tails⟩

/-- The bare wallet is not composed. -/
theorem not_composed_wallet : ¬Composed wallet head tail := by
  intro composed
  have halves := composed.halves
  rw [halves?_eq_none_iff.mpr (by decide)] at halves
  cases halves

/-! ### Reading -/

/-- A composed text is read as the scope with this text. -/
theorem parse_of_composed (composed : Composed raw head tail) : parse raw = .ok ⟨raw⟩ := by
  have composite : raw ≠ wallet := by
    rintro rfl
    exact not_composed_wallet composed
  have first : isNamespace head.toList := isNamespace_iff.mpr (by simpa using composed.first)
  have second := composed.second
  unfold parse
  rw [if_neg composite, composed.halves]
  simp only [first, Bool.not_true, Bool.false_eq_true, if_false, String.toList_inj]
  by_cases bare : head = wallet
  · rw [if_pos bare] at second
    rw [if_pos bare, if_pos (isNamespace_iff.mpr (by simpa using second))]
  · rw [if_neg bare] at second
    rw [if_neg bare, if_pos (isReference_iff.mpr (by simpa using second))]

/-- A text that is read as a scope is the bare wallet or composed. -/
theorem exists_composed {scope : Scope} (read : parse raw = .ok scope) :
    raw = wallet ∨ ∃ head tail, Composed raw head tail := by
  unfold parse at read
  split at read
  case isTrue bare => exact .inl bare
  case isFalse =>
    split at read
    case h_1 => cases read
    case h_2 head tail found =>
      obtain ⟨same, -⟩ := halves?_eq_some_iff.mp found
      have text : raw = String.ofList head ++ ":" ++ String.ofList tail := by
        rw [← String.toList_inj, same]
        simp
      have bare : head = wallet.toList ↔ String.ofList head = wallet := by
        rw [← String.toList_inj, String.toList_ofList]
      -- Every check that fails ends in a defect.
      split at read
      case isTrue => cases read
      case isFalse first =>
        have first : Namespace (String.ofList head) := isNamespace_iff.mp (by simpa using first)
        refine .inr ⟨_, _, text, first, ?_⟩
        split at read
        case isTrue local_ =>
          rw [if_pos (bare.mp local_)]
          split at read
          case isTrue second => exact isNamespace_iff.mp second
          case isFalse => cases read
        case isFalse foreign =>
          rw [if_neg fun same => foreign (bare.mpr same)]
          split at read
          case isTrue second => exact isReference_iff.mp second
          case isFalse => cases read

/-- A text is read as a scope exactly if it is the bare wallet or composed by the grammar, and every
other text is an invalid scope. A scope that was read has its own text, and the parts in which
alone this text is composed; the bare wallet has no parts. -/
theorem parses_by_grammar (raw : String) :
    ((∃ scope, parseOrFail raw = .ok scope) ↔
      raw = wallet ∨ ∃ head tail, Composed raw head tail) ∧
    (∀ failure, parseOrFail raw = .error failure →
      ∃ defect : Defect, failure = .invalidScope (raw ++ " (" ++ defect.message ++ ")")) ∧
    ∀ scope, parseOrFail raw = .ok scope → scope.text = raw ∧
      (raw = wallet ∧ scope.namespace? = none ∧ scope.reference? = none ∨
        ∃ head tail, Composed raw head tail ∧
          scope.namespace? = some head ∧ scope.reference? = some tail ∧
          ∀ head' tail', Composed raw head' tail' → head' = head ∧ tail' = tail) := by
  refine ⟨⟨?_, ?_⟩, ?_, ?_⟩
  · rintro ⟨scope, read⟩
    exact exists_composed (mapError_eq_ok read)
  · rintro (rfl | ⟨head, tail, composed⟩)
    · exact ⟨⟨wallet⟩, by rw [parseOrFail, parse, if_pos rfl]; rfl⟩
    · exact ⟨⟨raw⟩, by rw [parseOrFail, parse_of_composed composed]; rfl⟩
  · intro failure refused
    unfold parseOrFail at refused
    cases parsed : parse raw with
    | ok scope =>
      rw [parsed] at refused
      cases refused
    | error defect =>
      rw [parsed] at refused
      exact ⟨defect, (Except.error.inj refused).symm⟩
  · intro scope read
    obtain rfl := Config.parseOrFail_eq_ok read
    refine ⟨rfl, ?_⟩
    -- The accessors cut the text where the grammar does, and it can be cut in one way only.
    rcases exists_composed (mapError_eq_ok read) with rfl | ⟨head, tail, composed⟩
    · exact .inl ⟨rfl, rfl, rfl⟩
    · refine .inr ⟨head, tail, composed, ?_, ?_, fun _ _ => composed.unique⟩
      · simp [namespace?, composed.halves]
      · simp [reference?, composed.halves]

/-- A namespace of the wallet is read. Three characters of two bytes each are refused in front of a
colon, although both numbers are between the bounds. -/
theorem parses_by_grammar_wallets :
    (∃ head tail, Composed "wallet:eip-155" head tail ∧
      (⟨"wallet:eip-155"⟩ : Scope).namespace? = some head ∧
      (⟨"wallet:eip-155"⟩ : Scope).reference? = some tail) ∧
    ∃ defect : Defect, parseOrFail "äöü:1" =
      .error (.invalidScope ("äöü:1" ++ " (" ++ defect.message ++ ")")) := by
  have read : parseOrFail "wallet:eip-155" = .ok ⟨"wallet:eip-155"⟩ := by decide
  have refused : parseOrFail "äöü:1" = .error (.invalidScope "äöü:1 (bad namespace)") := by decide
  constructor
  · obtain ⟨-, ⟨bare, -⟩ | ⟨head, tail, composed, first, second, -⟩⟩ :=
      (parses_by_grammar _).2.2 _ read
    · exact absurd bare (by decide)
    · exact ⟨head, tail, composed, first, second⟩
  · obtain ⟨defect, same⟩ := (parses_by_grammar _).2.1 _ refused
    exact ⟨defect, same ▸ refused⟩

end Switchboard.Scope
