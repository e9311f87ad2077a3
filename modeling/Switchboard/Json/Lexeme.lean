/-!
# `Switchboard.Json.Lexeme`: the words of a JSON text

A JSON text is first cut into lexemes: marks, the words `null`, `true` and `false`, numbers and
strings, each with the blanks before it. Numbers and strings are kept as they are written, so that
`sourceText` gives back what was read. A string may hold any escape of the right shape; whether it
stands for a text is decided when its content is asked for. Cutting stops at the first character
that starts no lexeme.

Nothing is lost on the way: a token and the rest behind it make up the text (`cutToken?_append`),
and so do the lexemes of a complete text and the blanks at its end (`lexWithin_append`).
-/

set_option autoImplicit false

namespace Switchboard.Json

/-- A lexeme that is a whole value. Numbers and the insides of strings are kept as written. -/
inductive Scalar
  | null
  | bool (value : Bool)
  | number (written : List Char)
  | string (inside : List Char)
deriving DecidableEq, Repr

/-- A lexeme without the blanks before it. -/
inductive Token
  | scalar (value : Scalar)
  | openArray
  | closeArray
  | openObject
  | closeObject
  | comma
  | colon
deriving DecidableEq, Repr

/-- A token and the blanks that precede it. -/
structure Lexeme where
  gap : List Char
  token : Token
deriving DecidableEq, Repr

/-- The words of a text up to its end or up to its first character that starts none. -/
structure Lexing where
  lexemes : List Lexeme
  /-- Whether only blanks follow the last lexeme. -/
  complete : Bool
deriving DecidableEq, Repr

/-- A scalar as it was written. -/
def Scalar.source : Scalar → List Char
  | .null => ['n', 'u', 'l', 'l']
  | .bool true => ['t', 'r', 'u', 'e']
  | .bool false => ['f', 'a', 'l', 's', 'e']
  | .number written => written
  | .string inside => '"' :: (inside ++ ['"'])

/-- A token as it was written. -/
def Token.source : Token → List Char
  | .scalar value => value.source
  | .openArray => ['[']
  | .closeArray => [']']
  | .openObject => ['\x7b']
  | .closeObject => ['\x7d']
  | .comma => [',']
  | .colon => [':']

/-- A lexeme as it was written. -/
def Lexeme.source (lexeme : Lexeme) : List Char := lexeme.gap ++ lexeme.token.source

/-- A run of lexemes as it was written, without the blanks before the first one. -/
def sourceText : List Lexeme → List Char
  | [] => []
  | first :: rest => first.token.source ++ rest.flatMap Lexeme.source

/-- The four characters that may stand between lexemes. -/
def isGap (c : Char) : Bool := c == ' ' || c == '\t' || c == '\n' || c == '\r'

/-- Whether a character is a digit in base sixteen. -/
def isHexDigit (c : Char) : Bool :=
  c.isDigit || ('a' ≤ c && c ≤ 'f') || ('A' ≤ c && c ≤ 'F')

/-- The characters that may follow a backslash alone. -/
def isShortEscape (c : Char) : Bool :=
  c == '"' || c == '\\' || c == '/' || c == 'b' || c == 'f' || c == 'n' || c == 'r' || c == 't'

/-- Splits the rest of a string behind its opening quote into its inside, as written, and what
follows the closing quote. Control characters have to be escaped, and an escape is one of the short
ones or `u` and four hexadecimal digits. -/
def cutString? : List Char → Option (List Char × List Char)
  | [] => none
  | '"' :: rest => some ([], rest)
  | '\\' :: 'u' :: a :: b :: c :: d :: rest =>
    if isHexDigit a && isHexDigit b && isHexDigit c && isHexDigit d then
      (cutString? rest).map fun (inside, after) =>
        ('\\' :: 'u' :: a :: b :: c :: d :: inside, after)
    else none
  | '\\' :: c :: rest =>
    if isShortEscape c then
      (cutString? rest).map fun (inside, after) => ('\\' :: c :: inside, after)
    else none
  | c :: rest =>
    if c = '\\' || c.toNat < 0x20 then none
    else (cutString? rest).map fun (inside, after) => (c :: inside, after)

/-- A string, its closing quote and the rest make up the text. -/
theorem cutString?_append {text inside after : List Char}
    (h : cutString? text = some (inside, after)) : text = inside ++ '"' :: after := by
  fun_induction cutString? text generalizing inside after with
    grind [Option.map_eq_some_iff]

/-- Splits off one or more digits. -/
def cutDigits? (text : List Char) : Option (List Char × List Char) :=
  match text.takeWhile Char.isDigit with
  | [] => none
  | digits => some (digits, text.dropWhile Char.isDigit)

/-- Digits and the rest make up the text. -/
theorem cutDigits?_append {text digits after : List Char}
    (h : cutDigits? text = some (digits, after)) : text = digits ++ after := by
  have := List.takeWhile_append_dropWhile (p := Char.isDigit) (l := text)
  grind [cutDigits?]

/-- Splits off the integral part of a number: a zero that no digit follows, or digits that start
with another one. -/
def cutWhole? : List Char → Option (List Char × List Char)
  | '0' :: rest => if (rest.head?.map Char.isDigit).getD false then none else some (['0'], rest)
  | text => cutDigits? text

/-- The whole part of a number and the rest make up the text. -/
theorem cutWhole?_append {text whole after : List Char}
    (h : cutWhole? text = some (whole, after)) : text = whole ++ after := by
  unfold cutWhole? at h
  split at h <;> grind [cutDigits?_append]

/-- Splits off the fraction, if there is one: a point needs a digit behind it. -/
def cutFraction? : List Char → Option (List Char × List Char)
  | '.' :: rest => (cutDigits? rest).map fun (digits, after) => ('.' :: digits, after)
  | text => some ([], text)

/-- The fraction of a number and the rest make up the text. -/
theorem cutFraction?_append {text fraction after : List Char}
    (h : cutFraction? text = some (fraction, after)) : text = fraction ++ after := by
  unfold cutFraction? at h
  split at h <;> grind [cutDigits?_append, Option.map_eq_some_iff]

/-- Splits off the exponent, if there is one: its mark needs a digit behind it or behind a sign. -/
def cutExponent? : List Char → Option (List Char × List Char)
  | mark :: rest =>
    if mark = 'e' || mark = 'E' then
      match rest with
      | sign :: digits =>
        if sign = '+' || sign = '-' then
          (cutDigits? digits).map fun (digits, after) => (mark :: sign :: digits, after)
        else (cutDigits? rest).map fun (digits, after) => (mark :: digits, after)
      | [] => none
    else some ([], mark :: rest)
  | [] => some ([], [])

/-- The exponent of a number and the rest make up the text. -/
theorem cutExponent?_append {text exponent after : List Char}
    (h : cutExponent? text = some (exponent, after)) : text = exponent ++ after := by
  unfold cutExponent? at h
  repeat' split at h
  all_goals grind [cutDigits?_append, Option.map_eq_some_iff]

/-- Splits off a number without its sign. -/
def cutUnsigned? (text : List Char) : Option (List Char × List Char) := do
  let (whole, text) ← cutWhole? text
  let (fraction, text) ← cutFraction? text
  let (exponent, text) ← cutExponent? text
  some (whole ++ fraction ++ exponent, text)

/-- A number without its sign and the rest make up the text. -/
theorem cutUnsigned?_append {text written after : List Char}
    (h : cutUnsigned? text = some (written, after)) : text = written ++ after := by
  simp only [cutUnsigned?, Option.bind_eq_bind, Option.bind_eq_some_iff] at h
  grind [cutWhole?_append, cutFraction?_append, cutExponent?_append]

/-- Splits off a number. -/
def cutNumber? : List Char → Option (List Char × List Char)
  | '-' :: rest => (cutUnsigned? rest).map fun (written, after) => ('-' :: written, after)
  | text => cutUnsigned? text

/-- A number and the rest make up the text. -/
theorem cutNumber?_append {text written after : List Char}
    (h : cutNumber? text = some (written, after)) : text = written ++ after := by
  unfold cutNumber? at h
  split at h <;> grind [cutUnsigned?_append, Option.map_eq_some_iff]

/-- Splits off the first token of a text that does not start with a blank. -/
def cutToken? : List Char → Option (Token × List Char)
  | '[' :: rest => some (.openArray, rest)
  | ']' :: rest => some (.closeArray, rest)
  | '\x7b' :: rest => some (.openObject, rest)
  | '\x7d' :: rest => some (.closeObject, rest)
  | ',' :: rest => some (.comma, rest)
  | ':' :: rest => some (.colon, rest)
  | 'n' :: 'u' :: 'l' :: 'l' :: rest => some (.scalar .null, rest)
  | 't' :: 'r' :: 'u' :: 'e' :: rest => some (.scalar (.bool true), rest)
  | 'f' :: 'a' :: 'l' :: 's' :: 'e' :: rest => some (.scalar (.bool false), rest)
  | '"' :: rest => (cutString? rest).map fun (inside, after) => (.scalar (.string inside), after)
  | text => (cutNumber? text).map fun (written, after) => (.scalar (.number written), after)

/-- A token and the rest make up the text that it was cut from. -/
theorem cutToken?_append {text rest : List Char} {token : Token}
    (h : cutToken? text = some (token, rest)) : text = token.source ++ rest := by
  unfold cutToken? at h
  split at h
  case h_10 =>
    obtain ⟨⟨inside, after⟩, cut, same⟩ := Option.map_eq_some_iff.mp h
    cases same
    simp [Token.source, Scalar.source, cutString?_append cut]
  case h_11 =>
    obtain ⟨⟨written, after⟩, cut, same⟩ := Option.map_eq_some_iff.mp h
    cases same
    exact cutNumber?_append cut
  all_goals cases h; rfl

/-- Cuts a text into lexemes, at most `fuel` of them. -/
def lexWithin : (fuel : Nat) → List Char → Lexing
  | 0, _ => ⟨[], false⟩
  | fuel + 1, text =>
    match text.dropWhile isGap with
    | [] => ⟨[], true⟩
    | trimmed =>
      match cutToken? trimmed with
      | none => ⟨[], false⟩
      | some (token, rest) =>
        let lexing := lexWithin fuel rest
        ⟨⟨text.takeWhile isGap, token⟩ :: lexing.lexemes, lexing.complete⟩

/-- Cutting a complete text loses only the blanks behind its last lexeme. -/
theorem lexWithin_append {fuel : Nat} {text : List Char} (h : (lexWithin fuel text).complete) :
    ∃ blanks : List Char, blanks.all isGap ∧
      text = (lexWithin fuel text).lexemes.flatMap Lexeme.source ++ blanks := by
  fun_induction lexWithin fuel text with
  | case1 => simp at h
  | case2 fuel text blank =>
    have whole := List.takeWhile_append_dropWhile (p := isGap) (l := text)
    rw [blank, List.append_nil] at whole
    exact ⟨text, whole ▸ List.all_takeWhile, by simp⟩
  | case3 => simp at h
  | case4 fuel text token rest lexing _ cut ih =>
    obtain ⟨blanks, gaps, same⟩ := ih h
    refine ⟨blanks, gaps, ?_⟩
    have whole := List.takeWhile_append_dropWhile (p := isGap) (l := text)
    rw [cutToken?_append cut] at whole
    grind [Lexeme.source]

/-- Cuts a text into lexemes. There are no more of them than characters. -/
def lex (text : List Char) : Lexing := lexWithin (text.length + 1) text

end Switchboard.Json
