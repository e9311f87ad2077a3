/-!
# `Switchboard.Json.Quoted`: texts as JSON strings

`quote` writes a text between double quotes. Only the quote, the backslash and the control
characters are escaped, the common ones of them by a letter. `unquote?` reads the inside of a
string as it is written; it fails where an escape names half of a surrogate pair without the other.

Reading gives back every text that was quoted (`unquote?_quoteInside`), and what was quoted holds no
control character (`visible_of_mem_quote`).
-/

set_option autoImplicit false

namespace Switchboard.Json

/-- A hexadecimal digit, lower case. -/
def hexDigit (n : Nat) : Char :=
  if n < 10 then Char.ofNat ('0'.toNat + n) else Char.ofNat ('a'.toNat + (n - 10))

/-- How a string spells one character. -/
def quoteChar (c : Char) : List Char :=
  if c = '"' then ['\\', '"']
  else if c = '\\' then ['\\', '\\']
  else if c = '\x08' then ['\\', 'b']
  else if c = '\t' then ['\\', 't']
  else if c = '\n' then ['\\', 'n']
  else if c = '\x0c' then ['\\', 'f']
  else if c = '\r' then ['\\', 'r']
  else if c.toNat < 0x20 then
    ['\\', 'u', '0', '0', hexDigit (c.toNat / 16), hexDigit (c.toNat % 16)]
  else [c]

/-- The inside of the string that spells a text. -/
def quoteInside (text : List Char) : List Char := text.flatMap quoteChar

/-- The string that spells a text. -/
def quote (text : List Char) : List Char := '"' :: (quoteInside text ++ ['"'])

/-- The value of a hexadecimal digit. -/
def hexValue (c : Char) : Nat :=
  if c.isDigit then c.toNat - '0'.toNat
  else if 'a' ≤ c && c ≤ 'f' then c.toNat - 'a'.toNat + 10
  else c.toNat - 'A'.toNat + 10

/-- The number that four hexadecimal digits spell. -/
def hexUnit (a b c d : Char) : Nat :=
  ((hexValue a * 16 + hexValue b) * 16 + hexValue c) * 16 + hexValue d

/-- The character that a short escape stands for. -/
def shortEscape (c : Char) : Char :=
  if c = 'b' then '\x08'
  else if c = 'f' then '\x0c'
  else if c = 'n' then '\n'
  else if c = 'r' then '\r'
  else if c = 't' then '\t'
  else c

/-- Whether a unit is the first of a surrogate pair. -/
def isHighSurrogate (n : Nat) : Bool := 0xD800 ≤ n && n ≤ 0xDBFF

/-- Whether a unit is the second of a surrogate pair. -/
def isLowSurrogate (n : Nat) : Bool := 0xDC00 ≤ n && n ≤ 0xDFFF

/-- The character beyond the first plane that a surrogate pair names. -/
def pairedChar (high low : Nat) : Char :=
  Char.ofNat (0x10000 + (high - 0xD800) * 0x400 + (low - 0xDC00))

/-- The text that the inside of a string stands for. A high surrogate has to be followed by a low
one, and a low one may not stand alone. -/
def unquote? : List Char → Option (List Char)
  | [] => some []
  | '\\' :: 'u' :: a :: b :: c :: d :: rest =>
    let unit := hexUnit a b c d
    if isLowSurrogate unit then none
    else if isHighSurrogate unit then
      match rest with
      | '\\' :: 'u' :: a' :: b' :: c' :: d' :: rest =>
        let unit' := hexUnit a' b' c' d'
        if isLowSurrogate unit' then (unquote? rest).map (pairedChar unit unit' :: ·) else none
      | _ => none
    else (unquote? rest).map (Char.ofNat unit :: ·)
  | '\\' :: c :: rest => (unquote? rest).map (shortEscape c :: ·)
  | c :: rest => (unquote? rest).map (c :: ·)

/-- The hexadecimal digit of a small number has this value. -/
theorem hexValue_hexDigit : ∀ n < 16, hexValue (hexDigit n) = n := by decide

/-- Four hexadecimal digits give back a control character. -/
theorem hexUnit_control {c : Char} (h : c.toNat < 0x20) :
    hexUnit '0' '0' (hexDigit (c.toNat / 16)) (hexDigit (c.toNat % 16)) = c.toNat := by
  have zero : hexValue '0' = 0 := by decide
  rw [hexUnit, zero, hexValue_hexDigit _ (by omega), hexValue_hexDigit _ (by omega)]
  omega

/-- A character that was quoted is read back. -/
theorem unquote?_quoteChar (c : Char) (rest : List Char) :
    unquote? (quoteChar c ++ rest) = (unquote? rest).map (c :: ·) := by
  unfold quoteChar
  repeat' split
  all_goals try (subst_vars; simp [unquote?, shortEscape]; done)
  · rename_i h
    have low : isLowSurrogate c.toNat = false := by simp [isLowSurrogate]; omega
    have high : isHighSurrogate c.toNat = false := by simp [isHighSurrogate]; omega
    conv => lhs; unfold unquote?
    simp [hexUnit_control h, low, high]
  · simp_all [unquote?]

/-- Reading the inside of a string gives back the text that was quoted. -/
theorem unquote?_quoteInside (text : List Char) : unquote? (quoteInside text) = some text := by
  induction text with
  | nil => rfl
  | cons c rest ih => simp_all [quoteInside, unquote?_quoteChar]

/-- No control character is left in a quoted text. -/
theorem visible_of_mem_quote {text : List Char} {c : Char} (h : c ∈ quote text) :
    0x20 ≤ c.toNat := by
  simp only [quote, quoteInside, List.mem_cons, List.mem_append, List.mem_flatMap,
    List.not_mem_nil, or_false] at h
  rcases h with rfl | ⟨d, _, h⟩ | rfl
  · decide
  · unfold quoteChar at h
    repeat' split at h
    all_goals try (simp at h; rcases h with rfl | rfl <;> decide)
    · simp at h
      have visible : ∀ n < 16, 0x20 ≤ (hexDigit n).toNat := by decide
      rcases h with rfl | rfl | rfl | rfl | rfl
      · decide
      · decide
      · decide
      · exact visible _ (by omega)
      · exact visible _ (by omega)
    · grind
  · decide

end Switchboard.Json
