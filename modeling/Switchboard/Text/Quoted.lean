import Switchboard.Text.Numeral

/-!
# Quoted text

A text between double quotes, as the host's array literals carry it. Inside, a quote and a
backslash are escaped, the control characters with a short name use it, every other character
below a blank is written by its number in four hexadecimal digits, and all else stands for itself.
Main statement: reading a quoted text gives back the text and what follows the closing quote
(`unquote?_quote_append`).
-/

namespace Switchboard.Text.Quoted

/-- How one character is written between the quotes. -/
def escape (c : Char) : List Char :=
  if c = '"' then ['\\', '"']
  else if c = '\\' then ['\\', '\\']
  else if c = '\x08' then ['\\', 'b']
  else if c = '\x0c' then ['\\', 'f']
  else if c = '\n' then ['\\', 'n']
  else if c = '\r' then ['\\', 'r']
  else if c = '\t' then ['\\', 't']
  else if c.toNat < 0x20 then
    ['\\', 'u', '0', '0', hexDigit (c.toNat / 16), hexDigit (c.toNat % 16)]
  else [c]

/-- A text between quotes. -/
def quoteChars (cs : List Char) : List Char :=
  '"' :: (cs.flatMap escape ++ ['"'])

/-- A text between quotes. -/
def quote (s : String) : String :=
  .ofList (quoteChars s.toList)

/-- The character that a one-letter escape stands for. -/
def shortEscape? : Char → Option Char
  | '"' => some '"'
  | '\\' => some '\\'
  | '/' => some '/'
  | 'b' => some '\x08'
  | 'f' => some '\x0c'
  | 'n' => some '\n'
  | 'r' => some '\r'
  | 't' => some '\t'
  | _ => none

/-- Reads what follows the opening quote: the text and what stands after the closing quote.
An escape by number is read as one code point; a number that is no character is refused, and so
is a raw character below a blank. -/
def body? : List Char → Option (List Char × List Char)
  | [] => none
  | c :: rest =>
    if c = '"' then some ([], rest)
    else if c = '\\' then
      match rest with
      | 'u' :: x :: y :: z :: w :: rest =>
        match (digits? 16 [x, y, z, w]).filter (·.isValidChar) with
        | some n => (body? rest).map fun p => (.ofNat n :: p.1, p.2)
        | none => none
      | e :: rest =>
        match shortEscape? e with
        | some d => (body? rest).map fun p => (d :: p.1, p.2)
        | none => none
      | [] => none
    else if c.toNat < 0x20 then none
    else (body? rest).map fun p => (c :: p.1, p.2)

/-- Reads a quoted text at the front: the text and what follows it. -/
def unquote? : List Char → Option (List Char × List Char)
  | '"' :: rest => body? rest
  | _ => none

/-! ## A quoted text reads back -/

theorem digits?_control : ∀ code < 0x20,
    digits? 16 ['0', '0', hexDigit (code / 16), hexDigit (code % 16)] = some code := by
  decide

/-- One written character is read back as that character. -/
theorem body?_escape_append (c : Char) (rest : List Char) :
    body? (escape c ++ rest) = (body? rest).map fun p => (c :: p.1, p.2) := by
  unfold escape
  split
  · next h => subst h; rfl
  split
  · next h => subst h; rfl
  split
  · next h => subst h; rfl
  split
  · next h => subst h; rfl
  split
  · next h => subst h; rfl
  split
  · next h => subst h; rfl
  split
  · next h => subst h; rfl
  split
  · next h =>
    have hv : c.toNat.isValidChar := c.valid
    simp [body?, digits?_control c.toNat h, Option.filter, hv, Char.ofNat_toNat]
  · next hq hb _ _ _ _ _ h =>
    rw [List.singleton_append, body?.eq_def]
    simp [hq, hb, h]

theorem body?_flatMap_escape (cs rest : List Char) :
    body? (cs.flatMap escape ++ '"' :: rest) = some (cs, rest) := by
  induction cs with
  | nil => simp [body?.eq_def]
  | cons c cs ih => simp [List.flatMap_cons, body?_escape_append, ih]

theorem unquote?_quote_append (cs rest : List Char) :
    unquote? (quoteChars cs ++ rest) = some (cs, rest) := by
  simp [quoteChars, unquote?, body?_flatMap_escape]

end Switchboard.Text.Quoted
