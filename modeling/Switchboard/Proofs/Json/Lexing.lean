import Mathlib.Data.List.TakeWhile
import Switchboard.Json.Lexeme

/-!
# `Switchboard.Proofs.Json.Lexing`: a run of lexemes cut once more

`Inside` is what may stand between the quotes of a string, and it is what is cut off there. How far
any other token reaches depends on no more than the character behind it, so that a token that was
cut off before some rest is cut off as well before every rest that starts alike or with a mark
(`cutToken?_of_standsFor`). A stretch of the lexemes of a text is therefore what its own text is cut
into (`lex_sourceText`), also in front of what may follow it elsewhere (`Separable.of_infix`).
-/

set_option autoImplicit false

namespace Switchboard.Json

/-! ### Strings -/

/-- What may stand between the quotes of a string. -/
inductive Inside : List Char → Prop
  | nil : Inside []
  | plain {c : Char} {rest : List Char} (unquote : c ≠ '"') (unescape : c ≠ '\\')
      (visible : 0x20 ≤ c.toNat) (inside : Inside rest) : Inside (c :: rest)
  | short {c : Char} {rest : List Char} (escape : isShortEscape c) (inside : Inside rest) :
      Inside ('\\' :: c :: rest)
  | unicode {a b c d : Char} {rest : List Char} (hex : ∀ digit ∈ [a, b, c, d], isHexDigit digit)
      (inside : Inside rest) : Inside ('\\' :: 'u' :: a :: b :: c :: d :: rest)

/-- A string ends at its closing quote, whatever follows. -/
theorem cutString?_of_inside {inside : List Char} (inner : Inside inside) (rest : List Char) :
    cutString? (inside ++ '"' :: rest) = some (inside, rest) := by
  induction inner with
  | nil => rfl
  | @plain c text unquote unescape visible inner ih =>
    have control : ¬c.toNat < 0x20 := by omega
    rw [List.cons_append]
    unfold cutString?
    split <;> simp_all
  | @short c text escape inner ih =>
    -- `u` is no short escape, so this one is not taken for four digits.
    have : c ≠ 'u' := by rintro rfl; simp [isShortEscape] at escape
    simp [cutString?, escape, ih, this]
  | unicode hex inner ih =>
    simp only [List.forall_mem_cons, List.not_mem_nil, false_implies, implies_true, and_true] at hex
    simp [cutString?, hex, ih]

/-- What is cut off up to a closing quote may stand there. -/
theorem inside_of_cutString? {text inside after : List Char}
    (cut : cutString? text = some (inside, after)) : Inside inside := by
  -- The cases are those of the cutter: the closing quote, the escapes of either form and plain
  -- characters.
  fun_induction cutString? text generalizing inside after with
  | case1 => cases cut
  | case2 =>
    cases cut
    exact .nil
  | case3 a b c d rest hex ih =>
    obtain ⟨⟨inner, after⟩, cut, same⟩ := Option.map_eq_some_iff.mp cut
    cases same
    exact .unicode (by simpa [Bool.and_assoc] using hex) (ih cut)
  | case4 => cases cut
  | case5 c rest _ short ih =>
    obtain ⟨⟨inner, after⟩, cut, same⟩ := Option.map_eq_some_iff.mp cut
    cases same
    exact .short short (ih cut)
  | case6 => cases cut
  | case7 => cases cut
  | case8 c rest quote _ _ plain ih =>
    obtain ⟨⟨inner, after⟩, cut, same⟩ := Option.map_eq_some_iff.mp cut
    cases same
    simp only [Bool.or_eq_true, decide_eq_true_eq, not_or, Nat.not_lt] at plain
    exact .plain quote plain.1 plain.2 (ih cut)

/-! ### Tokens before another rest -/

/-- What does not go on with a number. -/
def EndsNumber (rest : List Char) : Prop :=
  ∀ c, rest.head? = some c → c.isDigit = false ∧ c ≠ '.' ∧ c ≠ 'e' ∧ c ≠ 'E'

/-- The end of the text ends a number. -/
theorem endsNumber_nil : EndsNumber [] := by
  intro c first
  cases first

/-- Whether a rest may stand where another one stood: it starts alike or goes on with no number. -/
def StandsFor (rest' rest : List Char) : Prop := rest'.head? = rest.head? ∨ EndsNumber rest'

/-- Whether what is cut off does not change when the rest behind it is replaced. -/
def CutsLocally (cut? : List Char → Option (List Char × List Char)) : Prop :=
  ∀ {front rest rest' : List Char}, cut? (front ++ rest) = some (front, rest) →
    StandsFor rest' rest → cut? (front ++ rest') = some (front, rest')

variable {rest rest' : List Char}

/-- The first character behind a number is the same, or neither goes on with the number. -/
theorem StandsFor.head (stands : StandsFor rest' rest) {c : Char} (first : rest'.head? = some c) :
    rest.head? = some c ∨ c.isDigit = false ∧ c ≠ '.' ∧ c ≠ 'e' ∧ c ≠ 'E' := by
  rcases stands with same | ends
  · exact .inl (same ▸ first)
  · exact .inr (ends c first)

/-- Behind a common front there is no difference to be seen. -/
theorem StandsFor.append (stands : StandsFor rest' rest) (front : List Char) :
    StandsFor (front ++ rest') (front ++ rest) := by
  cases front with
  | nil => exact stands
  | cons c front => exact .inl rfl

/-- The characters in front are those taken if they pass and the next one does not. -/
theorem takeWhile_append_eq_iff {p : Char → Bool} {front : List Char} :
    (front ++ rest).takeWhile p = front ↔
      (∀ c ∈ front, p c) ∧ ∀ c, rest.head? = some c → p c = false := by
  induction front with
  | nil => cases rest <;> simp [List.takeWhile_cons]
  | cons c front ih => by_cases holds : p c <;> simp [holds, ih]

/-- Once the characters in front are dropped, the rest is left. -/
theorem dropWhile_of_takeWhile {p : Char → Bool} {front : List Char}
    (taken : (front ++ rest).takeWhile p = front) : (front ++ rest).dropWhile p = rest := by
  have whole := List.takeWhile_append_dropWhile (p := p) (l := front ++ rest)
  rw [taken] at whole
  exact List.append_cancel_left whole

/-- Digits are cut off up to the first character that is none. -/
theorem cutDigits?_append_eq_iff {digits : List Char} :
    cutDigits? (digits ++ rest) = some (digits, rest) ↔
      digits ≠ [] ∧ (∀ c ∈ digits, c.isDigit) ∧ ∀ c, rest.head? = some c → c.isDigit = false := by
  rw [← takeWhile_append_eq_iff]
  unfold cutDigits?
  constructor
  · intro cut
    split at cut
    case h_1 => cases cut
    case h_2 nonempty =>
      obtain ⟨taken, -⟩ := Prod.mk.inj (Option.some.inj cut)
      exact ⟨fun none => nonempty (taken.trans none), taken⟩
  · rintro ⟨nonempty, taken⟩
    rw [taken, dropWhile_of_takeWhile taken]
    cases digits with
    | nil => exact absurd rfl nonempty
    | cons => rfl

/-- At least one digit is cut off. -/
theorem cutDigits?_ne_nil {text digits after : List Char}
    (cut : cutDigits? text = some (digits, after)) : digits ≠ [] := by
  rw [cutDigits?_append cut] at cut
  exact (cutDigits?_append_eq_iff.mp cut).1

/-- Which digits are cut off does not depend on the rest behind them. -/
theorem cutDigits?_local : CutsLocally cutDigits? := by
  intro digits rest rest' cut stands
  obtain ⟨nonempty, inside, ends⟩ := cutDigits?_append_eq_iff.mp cut
  refine cutDigits?_append_eq_iff.mpr ⟨nonempty, inside, ?_⟩
  intro c first
  rcases stands.head first with same | other
  · exact ends c same
  · exact other.1

/-- A number starts with a digit. -/
theorem cutWhole?_head {text whole after : List Char}
    (cut : cutWhole? text = some (whole, after)) :
    ∃ c digits, whole = c :: digits ∧ c.isDigit := by
  unfold cutWhole? at cut
  split at cut
  · split at cut
    · cases cut
    · cases cut
      exact ⟨'0', [], rfl, rfl⟩
  · rw [cutDigits?_append cut] at cut
    obtain ⟨nonempty, inside, -⟩ := cutDigits?_append_eq_iff.mp cut
    obtain ⟨c, digits, rfl⟩ := List.exists_cons_of_ne_nil nonempty
    exact ⟨c, digits, rfl, inside c List.mem_cons_self⟩

/-- The whole part of a number does not depend on the rest behind it. -/
theorem cutWhole?_local : CutsLocally cutWhole? := by
  intro whole rest rest' cut stands
  obtain ⟨c, digits, rfl, -⟩ := cutWhole?_head cut
  -- Behind a zero the next character is looked at alone, behind other digits the run goes on.
  by_cases zero : c = '0'
  · subst zero
    simp only [List.cons_append, cutWhole?, Option.ite_none_left_eq_some, Option.some.injEq,
      Prod.mk.injEq, List.cons.injEq, true_and] at cut ⊢
    obtain ⟨ends, rfl, -⟩ := cut
    refine ⟨fun digit => ?_, rfl, rfl⟩
    cases rest' with
    | nil => cases digit
    | cons c more =>
      rcases stands.head rfl with same | other
      · exact ends (by rwa [List.nil_append, same])
      · simp [other.1] at digit
  · have plain (text : List Char) : cutWhole? (c :: text) = cutDigits? (c :: text) := by
      unfold cutWhole?
      split
      · simp_all
      · rfl
    rw [List.cons_append, plain, ← List.cons_append] at cut ⊢
    exact cutDigits?_local cut stands

/-- The fraction of a number does not depend on the rest behind it. -/
theorem cutFraction?_local : CutsLocally cutFraction? := by
  intro fraction rest rest' cut stands
  cases fraction with
  | nil =>
    -- No fraction means no point, and the other rest has none either.
    cases rest' with
    | nil => rfl
    | cons c more =>
      by_cases point : c = '.'
      · rcases stands.head rfl with same | other
        · obtain ⟨rest, rfl⟩ := List.head?_eq_some_iff.mp same
          subst point
          simp [cutFraction?] at cut
        · exact absurd point other.2.1
      · simp [cutFraction?, point]
  | cons c digits =>
    by_cases point : c = '.'
    · subst point
      obtain ⟨⟨front, after⟩, cut, same⟩ := Option.map_eq_some_iff.mp cut
      cases same
      simp [cutFraction?, cutDigits?_local cut stands]
    · simp [cutFraction?, point] at cut

/-- The exponent of a number does not depend on the rest behind it. -/
theorem cutExponent?_local : CutsLocally cutExponent? := by
  intro exponent rest rest' cut stands
  cases exponent with
  | nil =>
    -- As with the fraction: no exponent means no mark.
    cases rest' with
    | nil => rfl
    | cons c more =>
      by_cases mark : c = 'e' ∨ c = 'E'
      · rcases stands.head rfl with same | other
        · obtain ⟨rest, rfl⟩ := List.head?_eq_some_iff.mp same
          simp only [cutExponent?, List.nil_append] at cut
          grind [Option.map_eq_some_iff]
        · rcases mark with small | capital
          · exact absurd small other.2.2.1
          · exact absurd capital other.2.2.2
      · simp_all [cutExponent?]
  | cons c exponent =>
    simp only [cutExponent?, List.cons_append] at cut ⊢
    split at cut
    case isFalse => simp at cut
    case isTrue mark =>
      rw [if_pos mark]
      cases exponent with
      | nil => grind [Option.map_eq_some_iff, cutDigits?_ne_nil]
      | cons sign digits =>
        simp only [List.cons_append] at cut ⊢
        split at cut
        case isTrue signed =>
          obtain ⟨⟨front, after⟩, cut, same⟩ := Option.map_eq_some_iff.mp cut
          cases same
          rw [if_pos signed, cutDigits?_local cut stands]
          rfl
        case isFalse unsigned =>
          obtain ⟨⟨front, after⟩, cut, same⟩ := Option.map_eq_some_iff.mp cut
          cases same
          rw [if_neg unsigned, ← List.cons_append, cutDigits?_local cut stands]
          rfl

/-- A number without its sign does not depend on the rest behind it. -/
theorem cutUnsigned?_local : CutsLocally cutUnsigned? := by
  intro written rest rest' cut stands
  simp only [cutUnsigned?, Option.bind_eq_bind, Option.bind_eq_some_iff, Option.some.injEq,
    Prod.mk.injEq, Prod.exists] at cut
  obtain ⟨whole, _, first, fraction, _, second, exponent, after, third, rfl, same⟩ := cut
  subst same
  obtain rfl := cutExponent?_append third
  obtain rfl := cutFraction?_append second
  rw [cutWhole?_append first, ← List.append_assoc fraction] at first
  have first := cutWhole?_local first (stands.append (fraction ++ exponent))
  have second := cutFraction?_local second (stands.append exponent)
  have third := cutExponent?_local third stands
  simp only [List.append_assoc] at first
  simp [cutUnsigned?, first, second, third]

/-- A number starts with a sign or a digit. -/
theorem cutNumber?_head {text written after : List Char}
    (cut : cutNumber? text = some (written, after)) :
    ∃ c more, written = c :: more ∧ (c = '-' ∨ c.isDigit) := by
  unfold cutNumber? at cut
  split at cut
  · obtain ⟨⟨digits, after⟩, -, same⟩ := Option.map_eq_some_iff.mp cut
    cases same
    exact ⟨'-', digits, rfl, .inl rfl⟩
  · simp only [cutUnsigned?, Option.bind_eq_bind, Option.bind_eq_some_iff, Option.some.injEq,
      Prod.mk.injEq, Prod.exists] at cut
    obtain ⟨whole, _, first, fraction, _, -, exponent, _, -, rfl, -⟩ := cut
    obtain ⟨c, digits, rfl, digit⟩ := cutWhole?_head first
    exact ⟨c, digits ++ fraction ++ exponent, by simp, .inr digit⟩

/-- A number does not depend on the rest behind it. -/
theorem cutNumber?_local : CutsLocally cutNumber? := by
  intro written rest rest' cut stands
  obtain ⟨c, digits, rfl, -⟩ := cutNumber?_head cut
  by_cases sign : c = '-'
  · subst sign
    obtain ⟨⟨front, after⟩, cut, same⟩ := Option.map_eq_some_iff.mp cut
    cases same
    simp [cutNumber?, cutUnsigned?_local cut stands]
  · have plain (text : List Char) : cutNumber? (c :: text) = cutUnsigned? (c :: text) := by
      unfold cutNumber?
      split
      · simp_all
      · rfl
    rw [List.cons_append, plain, ← List.cons_append] at cut ⊢
    exact cutUnsigned?_local cut stands

/-- A sign or a digit starts a number. -/
theorem cutToken?_number {c : Char} (start : c = '-' ∨ c.isDigit) (text : List Char) :
    cutToken? (c :: text) =
      (cutNumber? (c :: text)).map fun (written, after) => (.scalar (.number written), after) := by
  unfold cutToken?
  split
  case h_11 => rfl
  all_goals
    rename_i same
    cases same
    simp [Char.isDigit] at start

/-- A token that is a number was cut off as a number. -/
theorem cutNumber?_of_cutToken? {text written after : List Char}
    (cut : cutToken? text = some (.scalar (.number written), after)) :
    cutNumber? text = some (written, after) := by
  unfold cutToken? at cut
  split at cut
  case h_11 =>
    obtain ⟨_, number, same⟩ := Option.map_eq_some_iff.mp cut
    cases same
    exact number
  all_goals simp at cut

/-- A token has at least one character. -/
theorem source_ne_nil {token : Token} {text after : List Char}
    (cut : cutToken? text = some (token, after)) : token.source ≠ [] := by
  match token with
  | .openArray | .closeArray | .openObject | .closeObject | .comma | .colon
  | .scalar .null | .scalar (.bool true) | .scalar (.bool false)
  | .scalar (.string inside) => exact List.cons_ne_nil _ _
  | .scalar (.number written) =>
    obtain ⟨c, digits, rfl, -⟩ := cutNumber?_head (cutNumber?_of_cutToken? cut)
    exact List.cons_ne_nil c digits

/-- A token that was cut off before some rest is cut off before one that may stand for it. -/
theorem cutToken?_of_standsFor {token : Token}
    (cut : cutToken? (token.source ++ rest) = some (token, rest)) (stands : StandsFor rest' rest) :
    cutToken? (token.source ++ rest') = some (token, rest') := by
  match token with
  | .openArray | .closeArray | .openObject | .closeObject | .comma | .colon
  | .scalar .null | .scalar (.bool true) | .scalar (.bool false) => rfl
  | .scalar (.string inside) =>
    have quoted (after : List Char) : (Token.scalar (.string inside)).source ++ after =
        '"' :: (inside ++ '"' :: after) := by
      simp [Token.source, Scalar.source]
    rw [quoted] at cut ⊢
    obtain ⟨⟨front, after⟩, cut, same⟩ := Option.map_eq_some_iff.mp cut
    cases same
    simp [cutToken?, cutString?_of_inside (inside_of_cutString? cut)]
  | .scalar (.number written) =>
    -- Only a number could go on into the rest, and the new rest goes on with none or starts alike.
    have number := cutNumber?_of_cutToken? cut
    obtain ⟨c, digits, rfl, start⟩ := cutNumber?_head number
    have again : cutNumber? (c :: (digits ++ rest')) = some (c :: digits, rest') :=
      cutNumber?_local number stands
    change cutToken? (c :: (digits ++ rest')) = _
    rw [cutToken?_number start, again]
    rfl

/-! ### Runs of lexemes -/

/-- A blank starts no token. -/
theorem cutToken?_of_isGap {c : Char} (gap : isGap c) (text : List Char) :
    cutToken? (c :: text) = none := by
  simp only [isGap, Bool.or_eq_true, beq_iff_eq] at gap
  rcases gap with ((rfl | rfl) | rfl) | rfl <;> rfl

/-- A run of lexemes that a text in front of some rest is cut into. -/
def Separable : List Lexeme → List Char → Prop
  | [], _ => True
  | ⟨gap, token⟩ :: run, rest =>
    gap.all isGap ∧
      cutToken? (token.source ++ (run.flatMap Lexeme.source ++ rest)) =
        some (token, run.flatMap Lexeme.source ++ rest) ∧
      Separable run rest

/-- A run is cut off as well before another rest that may stand there. -/
theorem Separable.replace {run : List Lexeme} (cut : Separable run rest)
    (stands : StandsFor rest' rest) : Separable run rest' := by
  induction run with
  | nil => trivial
  | cons lexeme run ih =>
    obtain ⟨blank, first, others⟩ := cut
    exact ⟨blank, cutToken?_of_standsFor first (stands.append _), ih others⟩

/-- The end of a run is cut off as a run. -/
theorem Separable.of_append {before run : List Lexeme} (cut : Separable (before ++ run) rest) :
    Separable run rest := by
  induction before with
  | nil => exact cut
  | cons lexeme before ih => exact ih cut.2.2

/-- The front of a run is cut off before the rest of the run. -/
theorem Separable.front {run behind : List Lexeme} (cut : Separable (run ++ behind) rest) :
    Separable run (behind.flatMap Lexeme.source ++ rest) := by
  induction run with
  | nil => trivial
  | cons lexeme run ih =>
    obtain ⟨blank, first, others⟩ := cut
    refine ⟨blank, ?_, ih others⟩
    simpa using first

/-- A stretch of a run is separable wherever it stands alone or in front of a mark. -/
theorem Separable.of_infix {stretch run : List Lexeme} (cut : Separable run rest)
    (inside : stretch <:+: run) (ends : EndsNumber rest') : Separable stretch rest' := by
  obtain ⟨before, behind, rfl⟩ := inside
  rw [List.append_assoc] at cut
  exact cut.of_append.front.replace (.inr ends)

/-- The lexemes of a text can be cut off it again. -/
theorem separable_lexWithin (fuel : Nat) (text : List Char) :
    ∃ rest, text = (lexWithin fuel text).lexemes.flatMap Lexeme.source ++ rest ∧
      Separable (lexWithin fuel text).lexemes rest := by
  fun_induction lexWithin fuel text with
  | case1 text => exact ⟨text, rfl, trivial⟩
  | case2 fuel text blank => exact ⟨text, rfl, trivial⟩
  | case3 fuel text => exact ⟨text, rfl, trivial⟩
  | case4 fuel text token rest lexing _ cut ih =>
    obtain ⟨behind, same, separable⟩ := ih
    have whole := List.takeWhile_append_dropWhile (p := isGap) (l := text)
    rw [cutToken?_append cut] at whole cut
    rw [same] at cut
    refine ⟨behind, ?_, List.all_takeWhile, cut, separable⟩
    calc text
        = text.takeWhile isGap ++ (token.source ++ rest) := whole.symm
      _ = text.takeWhile isGap ++ (token.source ++ (lexing.lexemes.flatMap Lexeme.source ++
            behind)) := congrArg (fun rest => _ ++ (_ ++ rest)) same
      _ = _ := by simp [Lexeme.source]

/-- No token of a text is longer than the text. -/
theorem length_token_le {text : List Char} {lexeme : Lexeme}
    (listed : lexeme ∈ (lex text).lexemes) : lexeme.token.source.length ≤ text.length := by
  obtain ⟨rest, same, -⟩ := separable_lexWithin (text.length + 1) text
  have inside : lexeme.source.Sublist ((lex text).lexemes.flatMap Lexeme.source) :=
    List.sublist_flatten_of_mem (List.mem_map_of_mem listed)
  calc lexeme.token.source.length
      ≤ lexeme.source.length := by simp [Lexeme.source]
    _ ≤ ((lex text).lexemes.flatMap Lexeme.source).length := inside.length_le
    _ ≤ ((lex text).lexemes.flatMap Lexeme.source ++ rest).length := by simp
    _ = text.length := congrArg List.length same.symm

/-- A run with blanks behind it is cut into its lexemes. -/
theorem lexWithin_of_separable {run : List Lexeme} {blanks : List Char}
    (cut : Separable run blanks) (behind : blanks.all isGap) {fuel : Nat}
    (enough : run.length < fuel) :
    lexWithin fuel (run.flatMap Lexeme.source ++ blanks) = ⟨run, true⟩ := by
  induction run generalizing fuel with
  | nil =>
    obtain ⟨fuel, rfl⟩ := Nat.exists_eq_add_one_of_ne_zero (Nat.ne_zero_of_lt enough)
    have dropped : blanks.dropWhile isGap = [] :=
      List.dropWhile_eq_nil_iff.mpr (List.all_eq_true.mp behind)
    simp [lexWithin, dropped]
  | cons lexeme run ih =>
    obtain ⟨fuel, rfl⟩ := Nat.exists_eq_add_one_of_ne_zero (Nat.ne_zero_of_lt enough)
    obtain ⟨gap, token⟩ := lexeme
    obtain ⟨blank, first, others⟩ := cut
    -- The blanks end where the token starts, since no token starts with a blank.
    have taken : (gap ++ (token.source ++ (run.flatMap Lexeme.source ++ blanks))).takeWhile isGap =
        gap := by
      refine takeWhile_append_eq_iff.mpr ⟨List.all_eq_true.mp blank, fun c start => ?_⟩
      obtain ⟨more, same⟩ := List.head?_eq_some_iff.mp start
      rw [same] at first
      refine Bool.eq_false_iff.mpr fun isBlank => ?_
      rw [cutToken?_of_isGap isBlank] at first
      cases first
    have dropped := dropWhile_of_takeWhile taken
    have whole : (⟨gap, token⟩ :: run).flatMap Lexeme.source ++ blanks =
        gap ++ (token.source ++ (run.flatMap Lexeme.source ++ blanks)) := by
      simp [Lexeme.source]
    rw [whole, lexWithin, dropped]
    split
    · rename_i nothing
      rw [nothing] at first
      cases first
    · simp only [first, taken, ih others (Nat.lt_of_succ_lt_succ enough)]

/-- A lexeme without the blanks before it. -/
def Lexeme.bare (lexeme : Lexeme) : Lexeme := { lexeme with gap := [] }

/-- A run has no more lexemes than characters. -/
theorem Separable.length_le {run : List Lexeme} (cut : Separable run rest) :
    run.length ≤ (run.flatMap Lexeme.source).length := by
  induction run with
  | nil => exact Nat.le_refl 0
  | cons lexeme run ih =>
    obtain ⟨-, first, others⟩ := cut
    have := List.length_pos_iff.mpr (source_ne_nil first)
    have := ih others
    simp only [List.flatMap_cons, Lexeme.source, List.length_append, List.length_cons]
    omega

/-- The text of a stretch of the lexemes of some text is cut into this stretch. Only the blanks
before the first lexeme are no part of it. -/
theorem lex_sourceText {text : List Char} {first : Lexeme} {run : List Lexeme}
    (inside : first :: run <:+: (lex text).lexemes) :
    lex (sourceText (first :: run)) = ⟨first.bare :: run, true⟩ := by
  obtain ⟨rest, -, separable⟩ := separable_lexWithin (text.length + 1) text
  obtain ⟨-, head, others⟩ := separable.of_infix inside endsNumber_nil
  have bare : Separable (first.bare :: run) [] := ⟨rfl, head, others⟩
  have lexed := lexWithin_of_separable bare rfl (Nat.lt_succ_of_le bare.length_le)
  rwa [List.append_nil] at lexed

end Switchboard.Json
