import Switchboard.Json.Number
import Switchboard.Proofs.Json.Lexing

/-!
# `Switchboard.Proofs.Json.Numeral`: numbers are written as numbers

Integers and doubles are laid out by digits, points and exponents. `Numeral` is the form that the
grammar asks of a number without its sign, and every layout has it (`numeral_write`). A number is
therefore cut off where it was meant to end, whatever mark follows it (`cutToken?_number_text`).
-/

set_option autoImplicit false

namespace Switchboard.Json

open Numeric

/-- One or more digits. -/
structure Digits (digits : List Char) : Prop where
  nonempty : digits ≠ []
  all : ∀ c ∈ digits, c.isDigit

/-- The parts of a number without its sign. -/
structure Numeral (whole fraction exponent : List Char) : Prop where
  digits : Digits whole
  /-- A zero in front stands alone. -/
  lead : whole = ['0'] ∨ whole.head? ≠ some '0'
  fraction : fraction = [] ∨ ∃ digits, fraction = '.' :: digits ∧ Digits digits
  exponent : exponent = [] ∨ ∃ mark sign digits, exponent = mark :: (sign ++ digits) ∧
    (mark = 'e' ∨ mark = 'E') ∧ (sign = [] ∨ sign = ['+'] ∨ sign = ['-']) ∧ Digits digits

/-! ### Cutting a numeral off -/

section
variable {whole fraction exponent rest : List Char}

/-- Digits are cut off before a rest that starts with none. -/
theorem cutDigits?_of_digits {digits : List Char} (all : Digits digits)
    (ends : ∀ c, rest.head? = some c → c.isDigit = false) :
    cutDigits? (digits ++ rest) = some (digits, rest) :=
  cutDigits?_append_eq_iff.mpr ⟨all.nonempty, all.all, ends⟩

/-- Digits without a leading zero are a whole part. -/
theorem cutWhole?_of_digits (all : Digits whole) (lead : whole = ['0'] ∨ whole.head? ≠ some '0')
    (ends : ∀ c, rest.head? = some c → c.isDigit = false) :
    cutWhole? (whole ++ rest) = some (whole, rest) := by
  rcases lead with rfl | lead
  · cases rest with
    | nil => rfl
    | cons c more => simp [cutWhole?, ends c rfl]
  · obtain ⟨c, more, rfl⟩ := List.exists_cons_of_ne_nil all.nonempty
    have plain : cutWhole? (c :: (more ++ rest)) = cutDigits? (c :: (more ++ rest)) := by
      unfold cutWhole?
      split
      · simp_all
      · rfl
    exact plain.trans (cutDigits?_of_digits all ends)

/-- The fraction of a numeral is cut off. -/
theorem cutFraction?_of_numeral (numeral : Numeral whole fraction exponent)
    (ends : ∀ c, rest.head? = some c → c.isDigit = false ∧ c ≠ '.') :
    cutFraction? (fraction ++ rest) = some (fraction, rest) := by
  rcases numeral.fraction with rfl | ⟨digits, rfl, all⟩
  · cases rest with
    | nil => rfl
    | cons c more =>
      have point := (ends c rfl).2
      simp [cutFraction?, point]
  · have cut := cutDigits?_of_digits all fun c first => (ends c first).1
    simp [cutFraction?, cut]

/-- The exponent of a numeral is cut off. -/
theorem cutExponent?_of_numeral (numeral : Numeral whole fraction exponent)
    (ends : EndsNumber rest) : cutExponent? (exponent ++ rest) = some (exponent, rest) := by
  rcases numeral.exponent with rfl | ⟨mark, sign, digits, rfl, marked, signed, all⟩
  · cases rest with
    | nil => rfl
    | cons c more =>
      obtain ⟨-, -, small, capital⟩ := ends c rfl
      simp [cutExponent?, small, capital]
  · have cut := cutDigits?_of_digits all fun c first => (ends c first).1
    rcases signed with rfl | rfl | rfl
    · -- Without a sign a digit follows the mark, and no digit is a sign.
      obtain ⟨c, more, rfl⟩ := List.exists_cons_of_ne_nil all.nonempty
      have digit := all.all c List.mem_cons_self
      have unsigned : ¬(c = '+' ∨ c = '-') := by
        rintro (rfl | rfl) <;> exact absurd digit (by decide)
      simp only [List.cons_append] at cut
      simp [cutExponent?, marked, unsigned, cut]
    · simp [cutExponent?, marked, cut]
    · simp [cutExponent?, marked, cut]

/-- A numeral is cut off before everything that does not go on with it. -/
theorem cutUnsigned?_of_numeral (numeral : Numeral whole fraction exponent)
    (ends : EndsNumber rest) :
    cutUnsigned? (whole ++ fraction ++ exponent ++ rest) =
      some (whole ++ fraction ++ exponent, rest) := by
  -- Each part starts with a mark that ends the part before it.
  have exponent_ends : ∀ c, (exponent ++ rest).head? = some c → c.isDigit = false ∧ c ≠ '.' := by
    intro c first
    rcases numeral.exponent with rfl | ⟨mark, sign, digits, rfl, marked, -⟩
    · exact ⟨(ends c first).1, (ends c first).2.1⟩
    · obtain rfl : mark = c := Option.some.inj first
      rcases marked with rfl | rfl <;> decide
  have fraction_ends :
      ∀ c, (fraction ++ (exponent ++ rest)).head? = some c → c.isDigit = false := by
    intro c first
    rcases numeral.fraction with rfl | ⟨digits, rfl, -⟩
    · exact (exponent_ends c first).1
    · obtain rfl : '.' = c := Option.some.inj first
      decide
  have whole_cut := cutWhole?_of_digits numeral.digits numeral.lead fraction_ends
  have fraction_cut := cutFraction?_of_numeral numeral exponent_ends
  have exponent_cut := cutExponent?_of_numeral numeral ends
  simp only [cutUnsigned?, List.append_assoc, whole_cut, fraction_cut, exponent_cut,
    Option.bind_eq_bind, Option.bind_some]

/-- The characters of a numeral. -/
theorem Numeral.char_cases (numeral : Numeral whole fraction exponent) {c : Char}
    (member : c ∈ whole ++ fraction ++ exponent) :
    c.isDigit ∨ c = '.' ∨ c = 'e' ∨ c = 'E' ∨ c = '+' ∨ c = '-' := by
  rcases List.mem_append.mp member with front | member
  · rcases List.mem_append.mp front with member | member
    · exact Or.inl (numeral.digits.all c member)
    · rcases numeral.fraction with rfl | ⟨digits, rfl, all⟩
      · exact absurd member List.not_mem_nil
      · rcases List.mem_cons.mp member with rfl | member
        · exact Or.inr (Or.inl rfl)
        · exact Or.inl (all.all c member)
  · rcases numeral.exponent with rfl | ⟨mark, sign, digits, rfl, marked, signed, all⟩
    · exact absurd member List.not_mem_nil
    · rcases List.mem_cons.mp member with rfl | member
      · rcases marked with rfl | rfl <;> simp
      · rcases List.mem_append.mp member with member | member
        · rcases signed with rfl | rfl | rfl <;> simp_all
        · exact Or.inl (all.all c member)

end

/-! ### Layouts -/

/-- A number is written in digits. -/
theorem digits_decimalDigits (n : Nat) : Digits (decimalDigits n) :=
  ⟨Nat.toDigits_ne_nil, fun _ member => Nat.isDigit_of_mem_toDigits (by decide) (by decide) member⟩

/-- Only the digits of zero start with a zero. -/
theorem head?_decimalDigits {n : Nat} (positive : n ≠ 0) : (decimalDigits n).head? ≠ some '0' := by
  induction n using Nat.strongRecOn with
  | ind n ih =>
    unfold decimalDigits
    rw [Nat.toDigits_eq_if (by decide)]
    split
    · have nonzero : ∀ d < 10, d ≠ 0 → d.digitChar ≠ '0' := by decide
      simpa using nonzero n ‹_› positive
    · have shorter := ih (n / 10) (by omega) (by omega)
      obtain ⟨c, more, digits⟩ := List.exists_cons_of_ne_nil (Nat.toDigits_ne_nil (n := n / 10))
      unfold decimalDigits at shorter
      rw [digits] at shorter ⊢
      exact shorter

/-- A number is written without a leading zero. -/
theorem lead_decimalDigits (n : Nat) :
    decimalDigits n = ['0'] ∨ (decimalDigits n).head? ≠ some '0' := by
  by_cases zero : n = 0
  · subst zero
    exact Or.inl rfl
  · exact Or.inr (head?_decimalDigits zero)

/-- The digits of an integer need no point and no exponent. -/
theorem numeral_decimalDigits (n : Nat) : Numeral (decimalDigits n) [] [] :=
  ⟨digits_decimalDigits n, lead_decimalDigits n, Or.inl rfl, Or.inl rfl⟩

/-- Zeros may stand before digits. -/
theorem Digits.replicate_append {digits : List Char} (all : Digits digits) (n : Nat) :
    Digits (List.replicate n '0' ++ digits) where
  nonempty := List.append_ne_nil_of_right_ne_nil _ all.nonempty
  all c member := by
    rcases List.mem_append.mp member with zero | member
    · rw [(List.mem_replicate.mp zero).2]
      rfl
    · exact all.all c member

/-- Digits with a point among them are a numeral, unless a zero in front is followed by others. -/
theorem numeral_withPoint {digits : List Char} (all : Digits digits) {whole : Int}
    (lead : digits.head? ≠ some '0' ∨ (digits = ['0'] ∧ whole = 1)) :
    ∃ front back, withPoint digits whole = front ++ back ∧ Numeral front back [] := by
  unfold withPoint
  by_cases below : whole ≤ 0
  · rw [if_pos below]
    refine ⟨['0'], '.' :: (List.replicate (-whole).toNat '0' ++ digits), by simp, ?_⟩
    exact ⟨⟨by simp, List.forall_mem_singleton.mpr rfl⟩, Or.inl rfl,
      Or.inr ⟨_, rfl, all.replicate_append _⟩, Or.inl rfl⟩
  · rw [if_neg below]
    simp only []
    generalize tail_eq : (if (digits.drop whole.toNat).isEmpty then ['0']
      else digits.drop whole.toNat) = tail
    have tail_digits : Digits tail := by
      rw [← tail_eq]
      split
      · exact ⟨by simp, List.forall_mem_singleton.mpr rfl⟩
      · rename_i some_left
        exact ⟨by simpa using some_left, fun c member => all.all c (List.mem_of_mem_drop member)⟩
    -- In front of the point stands at least the first digit.
    obtain ⟨c, more, rfl⟩ := List.exists_cons_of_ne_nil all.nonempty
    obtain ⟨n, size⟩ : ∃ n, whole.toNat = n + 1 := ⟨whole.toNat - 1, by omega⟩
    refine ⟨_, '.' :: tail, by rw [List.append_assoc]; rfl, ?_, ?_,
      Or.inr ⟨tail, rfl, tail_digits⟩, Or.inl rfl⟩
    · refine ⟨by simp [size], fun d member => ?_⟩
      rcases List.mem_append.mp member with taken | zero
      · exact all.all d (List.mem_of_mem_take taken)
      · rw [(List.mem_replicate.mp zero).2]
        rfl
    · rcases lead with nonzero | ⟨zero, rfl⟩
      · right
        simpa [size] using nonzero
      · left
        cases zero
        rfl

/-- The scientific form is a numeral if its digits are. -/
theorem numeral_scientific {digits : List Char} (all : Digits digits) (e : Int) :
    ∃ whole fraction exponent, Number.layout.scientific digits e = whole ++ fraction ++ exponent ∧
      Numeral whole fraction exponent := by
  obtain ⟨c, more, rfl⟩ := List.exists_cons_of_ne_nil all.nonempty
  have first : Digits [c] := ⟨by simp, by simpa using all.all c List.mem_cons_self⟩
  have lead : [c] = ['0'] ∨ [c].head? ≠ some '0' := by
    by_cases zero : c = '0'
    · exact Or.inl (by rw [zero])
    · exact Or.inr (by simpa using zero)
  have mark : ∃ sign, (if e < 0 then Number.layout.negativeMark else Number.layout.positiveMark) =
      ['e', sign] ∧ (sign = '+' ∨ sign = '-') := by
    split
    · exact ⟨'-', rfl, Or.inr rfl⟩
    · exact ⟨'+', rfl, Or.inl rfl⟩
  obtain ⟨sign, marked, signed⟩ := mark
  unfold Layout.scientific
  rw [marked]
  have exponent : ∃ mark sign' digits,
      'e' :: sign :: decimalDigits e.natAbs = mark :: (sign' ++ digits) ∧
      (mark = 'e' ∨ mark = 'E') ∧ (sign' = [] ∨ sign' = ['+'] ∨ sign' = ['-']) ∧ Digits digits :=
    ⟨'e', [sign], _, rfl, .inl rfl, by simpa using signed, digits_decimalDigits e.natAbs⟩
  -- With one digit there is no point, and with more it stands behind the first.
  cases more with
  | nil =>
    exact ⟨[c], [], 'e' :: sign :: decimalDigits e.natAbs, by simp,
      ⟨first, lead, Or.inl rfl, Or.inr exponent⟩⟩
  | cons d more =>
    have others : Digits (d :: more) :=
      ⟨by simp, fun x member => all.all x (List.mem_cons_of_mem _ member)⟩
    exact ⟨[c], '.' :: d :: more, 'e' :: sign :: decimalDigits e.natAbs, by simp,
      ⟨first, lead, Or.inr ⟨_, rfl, others⟩, Or.inr exponent⟩⟩

/-- Every decimal is laid out as a numeral. -/
theorem numeral_write (x : Decimal) :
    ∃ whole fraction exponent, Number.layout.write x = whole ++ fraction ++ exponent ∧
      Numeral whole fraction exponent := by
  unfold Layout.write
  dsimp only
  generalize place : (if x.digits = 0 then (0 : Int)
    else x.exponent + (decimalDigits x.digits).length - 1) = e
  split
  · have lead : (decimalDigits x.digits).head? ≠ some '0' ∨
        (decimalDigits x.digits = ['0'] ∧ e + 1 = 1) := by
      by_cases zero : x.digits = 0
      · rw [if_pos zero] at place
        exact Or.inr ⟨by rw [zero]; rfl, by rw [← place]; rfl⟩
      · exact Or.inl (head?_decimalDigits zero)
    obtain ⟨whole, fraction, written, numeral⟩ :=
      numeral_withPoint (digits_decimalDigits x.digits) lead
    exact ⟨whole, fraction, [], by rw [written, List.append_nil], numeral⟩
  · exact numeral_scientific (digits_decimalDigits x.digits) e

/-! ### Numbers -/

/-- A number is a numeral, with a sign in front if it is negative. -/
theorem numeral_text (number : Number) :
    ∃ whole fraction exponent, Numeral whole fraction exponent ∧
      (number.text = whole ++ fraction ++ exponent ∨
        number.text = '-' :: (whole ++ fraction ++ exponent)) := by
  cases number with
  | integer value inRange =>
    refine ⟨_, [], [], numeral_decimalDigits value.natAbs, ?_⟩
    simp only [Number.text, Number.integerText, List.append_nil]
    split
    · exact Or.inr rfl
    · exact Or.inl rfl
  | float value =>
    obtain ⟨whole, fraction, exponent, written, numeral⟩ := numeral_write value.shortest
    refine ⟨whole, fraction, exponent, numeral, ?_⟩
    simp only [Number.text, Layout.writeDouble, written]
    split
    · exact Or.inr rfl
    · exact Or.inl rfl

/-- A numeral is cut off as a number, with a minus sign in front or without. -/
theorem cutNumber?_of_numeral {whole fraction exponent rest : List Char}
    (numeral : Numeral whole fraction exponent) {sign : List Char}
    (signed : sign = [] ∨ sign = ['-']) (ends : EndsNumber rest) :
    cutNumber? (sign ++ (whole ++ fraction ++ exponent) ++ rest) =
      some (sign ++ (whole ++ fraction ++ exponent), rest) := by
  have cut := cutUnsigned?_of_numeral numeral ends
  rcases signed with rfl | rfl
  · -- A digit comes first, so that there is no sign to take off.
    obtain ⟨c, more, rfl⟩ := List.exists_cons_of_ne_nil numeral.digits.nonempty
    have digit := numeral.digits.all c List.mem_cons_self
    have unsigned : c ≠ '-' := by
      rintro rfl
      exact absurd digit (by decide)
    simp only [List.nil_append, List.cons_append] at cut ⊢
    unfold cutNumber?
    split
    · rename_i sign
      exact absurd (List.cons.inj sign).1 unsigned
    · exact cut
  · show (cutUnsigned? (whole ++ fraction ++ exponent ++ rest)).map _ = _
    rw [cut]
    rfl

/-- A numeral with or without a sign is one token. -/
theorem cutToken?_of_numeral {whole fraction exponent rest : List Char}
    (numeral : Numeral whole fraction exponent) {sign : List Char}
    (signed : sign = [] ∨ sign = ['-']) (ends : EndsNumber rest) :
    cutToken? (sign ++ (whole ++ fraction ++ exponent) ++ rest) =
      some (.scalar (.number (sign ++ (whole ++ fraction ++ exponent))), rest) := by
  have cut := cutNumber?_of_numeral numeral signed ends
  obtain ⟨c, more, same, start⟩ := cutNumber?_head cut
  rw [same] at cut ⊢
  rw [List.cons_append, cutToken?_number start, ← List.cons_append, cut]
  rfl

/-- The text of a number is one token. -/
theorem cutToken?_number_text (number : Number) {rest : List Char} (ends : EndsNumber rest) :
    cutToken? (number.text ++ rest) = some (.scalar (.number number.text), rest) := by
  obtain ⟨whole, fraction, exponent, numeral, same | same⟩ := numeral_text number
  · rw [same]
    exact cutToken?_of_numeral numeral (.inl rfl) ends
  · rw [same]
    exact cutToken?_of_numeral numeral (.inr rfl) ends

/-- A number is written without control characters. -/
theorem visible_of_mem_number {number : Number} {c : Char} (member : c ∈ number.text) :
    0x20 ≤ c.toNat := by
  have visible (plain : c.isDigit ∨ c = '.' ∨ c = 'e' ∨ c = 'E' ∨ c = '+' ∨ c = '-') :
      0x20 ≤ c.toNat := by
    rcases plain with digit | rfl | rfl | rfl | rfl | rfl
    · have low := (Char.isDigit_iff_toNat.mp digit).1
      exact Nat.le_trans (by decide) low
    all_goals decide
  obtain ⟨whole, fraction, exponent, numeral, same | same⟩ := numeral_text number
  · rw [same] at member
    exact visible (numeral.char_cases member)
  · rw [same] at member
    rcases List.mem_cons.mp member with rfl | member
    · decide
    · exact visible (numeral.char_cases member)

end Switchboard.Json
