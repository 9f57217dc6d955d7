import Switchboard.Text.Numeral
import Switchboard.Toml.Value

/-!
# TOML numbers, dates and truth values

The values that are written without quotes or brackets. Each is one word of letters, digits and
the signs `_ + - . :`; only a date may be followed by one blank and a time of day.
-/

namespace Switchboard.Toml

open Text

/-- Reads a run of digits in which single underscores stand between digits only; the digits come
without the underscores. -/
def digitRun (base : Nat) (cs : List Char) : Option (List Char) :=
  match cs with
  | [] => none
  | c :: cs => if isDigitOf base c then (more cs).map (c :: ·) else none
where
  /-- Reads what follows a digit. -/
  more : List Char → Option (List Char)
    | [] => some []
    | '_' :: c :: cs => if isDigitOf base c then (more cs).map (c :: ·) else none
    | c :: cs => if isDigitOf base c then (more cs).map (c :: ·) else none

/-- Splits off a sign; `true` for minus. -/
def splitSign : List Char → Bool × List Char
  | '-' :: cs => (true, cs)
  | '+' :: cs => (false, cs)
  | cs => (false, cs)

/-- Reads the digits of a decimal whole number, which has no leading zeros. -/
def wholeDigits (cs : List Char) : Option (List Char) :=
  match digitRun 10 cs with
  | some ['0'] => some ['0']
  | some ('0' :: _) => none
  | r => r

/-- A number as an integer value, if it fits a signed word of 64 bits. -/
def integerValue (n : Int) : Option Value :=
  if -(Text.signedBound : Int) ≤ n ∧ n < Text.signedBound then some (.integer n) else none

/-- Reads a whole number: decimal with a sign, or with a base in front and without one. -/
def integer? (cs : List Char) : Option Value :=
  match cs with
  | '0' :: 'x' :: ds => (digitRun 16 ds).bind fun ds => integerValue (digitsValue 16 ds)
  | '0' :: 'o' :: ds => (digitRun 8 ds).bind fun ds => integerValue (digitsValue 8 ds)
  | '0' :: 'b' :: ds => (digitRun 2 ds).bind fun ds => integerValue (digitsValue 2 ds)
  | cs =>
    let (negative, ds) := splitSign cs
    (wholeDigits ds).bind fun ds =>
      integerValue (if negative then -(digitsValue 10 ds : Int) else digitsValue 10 ds)

/-- Whether `m · 10 ^ e` is too large for a float of 64 bits: it rounds to infinity from half a
step above the largest one. The count of digits decides all but the nearest cases. -/
def overflows (m : Nat) (e : Int) : Bool :=
  if m = 0 then false
  else
    let magnitude : Int := (toString m).length + e
    if magnitude < 309 then false
    else if 309 < magnitude then true
    else
      let bound := Nat.pow 2 1024 - Nat.pow 2 970
      if 0 ≤ e then bound ≤ m * Nat.pow 10 e.toNat else bound * Nat.pow 10 (-e).toNat ≤ m

/-- Whether a text is a float: a whole part followed by a fraction, an exponent or both. A positive
number that rounds to infinity is none. -/
def isDecimalFloat (cs : List Char) : Bool :=
  let (negative, cs) := splitSign cs
  let isExponentMark c := c == 'e' || c == 'E'
  let mantissa := cs.takeWhile (!isExponentMark ·)
  let exponentPart := cs.dropWhile (!isExponentMark ·)
  let whole := mantissa.takeWhile (· != '.')
  let fractionPart := mantissa.dropWhile (· != '.')
  let fraction? := match fractionPart with
    | [] => some []
    | _ :: ds => digitRun 10 ds
  let exponent? : Option Int := match exponentPart with
    | [] => some 0
    | _ :: ds =>
      let (negative, ds) := splitSign ds
      (digitRun 10 ds).map fun ds =>
        if negative then -(digitsValue 10 ds : Int) else digitsValue 10 ds
  if fractionPart.isEmpty && exponentPart.isEmpty then false
  else
    match wholeDigits whole, fraction?, exponent? with
    | some ws, some fs, some e =>
      negative || !overflows (digitsValue 10 (ws ++ fs)) (e - fs.length)
    | _, _, _ => false

/-- Reads a float, one of the names for infinity and for no number included. -/
def float? (cs : List Char) : Option Value :=
  let unsigned := (splitSign cs).2
  if unsigned = ['i', 'n', 'f'] ∨ unsigned = ['n', 'a', 'n'] ∨ isDecimalFloat cs then
    some (.float (.ofList cs))
  else none

/-- Reads a number of exactly `width` digits between `low` and `high` at the front. -/
def field? (width low high : Nat) (cs : List Char) : Option (Nat × List Char) :=
  if (cs.take width).length = width then
    ((digits? 10 (cs.take width)).filter fun n => low ≤ n && n ≤ high).map fun n =>
      (n, cs.drop width)
  else none

/-- Drops an expected character. -/
def expect (c : Char) : List Char → Option (List Char)
  | d :: cs => if d = c then some cs else none
  | [] => none

/-- Number of days of a month. -/
def daysIn (year month : Nat) : Nat :=
  if month = 2 then
    if year % 4 = 0 ∧ (year % 100 ≠ 0 ∨ year % 400 = 0) then 29 else 28
  else if month ∈ [4, 6, 9, 11] then 30
  else 31

/-- Drops a date at the front. -/
def dropDate? (cs : List Char) : Option (List Char) := do
  let (year, cs) ← field? 4 0 9999 cs
  let cs ← expect '-' cs
  let (month, cs) ← field? 2 1 12 cs
  let cs ← expect '-' cs
  let (day, cs) ← field? 2 1 31 cs
  if day ≤ daysIn year month then some cs else none

/-- Drops a time of day at the front. -/
def dropTime? (cs : List Char) : Option (List Char) := do
  let (_, cs) ← field? 2 0 23 cs
  let cs ← expect ':' cs
  let (_, cs) ← field? 2 0 59 cs
  let cs ← expect ':' cs
  let (_, cs) ← field? 2 0 60 cs
  match cs with
  | '.' :: c :: cs => if c.isDigit then some (cs.dropWhile Char.isDigit) else none
  | '.' :: [] => none
  | cs => some cs

/-- Whether a text is the distance of a time zone from universal time, or empty. -/
def isOffset (cs : List Char) : Bool :=
  match cs with
  | [] => true
  | ['Z'] => true
  | ['z'] => true
  | sign :: cs =>
    (sign == '+' || sign == '-') &&
      (do
        let (_, cs) ← field? 2 0 23 cs
        let cs ← expect ':' cs
        let (_, cs) ← field? 2 0 59 cs
        if cs.isEmpty then some () else none).isSome

/-- Whether a text is a time of day with or without the distance of a time zone. -/
def isZonedTime (cs : List Char) : Bool :=
  match dropTime? cs with
  | some rest => isOffset rest
  | none => false

/-- Whether a text is a date, a date and a time of day, or a time of day without a zone. -/
def isDatetime (cs : List Char) : Bool :=
  match dropDate? cs with
  | some [] => true
  | some (c :: rest) => (c == 'T' || c == 't') && isZonedTime rest
  | none => dropTime? cs == some []

/-- Whether a character may occur in a word. -/
def isWordChar (c : Char) : Bool :=
  c.isAlphanum || c ∈ ['_', '+', '-', '.', ':']

/-- Reads a word as a value. -/
def word? (cs : List Char) : Option Value :=
  if cs = ['t', 'r', 'u', 'e'] then some (.boolean true)
  else if cs = ['f', 'a', 'l', 's', 'e'] then some (.boolean false)
  else if isDatetime cs then some (.datetime (.ofList cs))
  else (integer? cs).or (float? cs)

/-- Reads an unquoted value at the front. A blank and a time of day after a date belong to it. -/
def scalar? (cs : List Char) : Option (Value × List Char) :=
  let word := cs.takeWhile isWordChar
  let rest := cs.dropWhile isWordChar
  let time := (rest.drop 1).takeWhile isWordChar
  if dropDate? word = some [] ∧ rest.head? = some ' ' ∧ isZonedTime time then
    some (.datetime (.ofList (word ++ ' ' :: time)), (rest.drop 1).dropWhile isWordChar)
  else (word? word).map fun v => (v, rest)

end Switchboard.Toml
