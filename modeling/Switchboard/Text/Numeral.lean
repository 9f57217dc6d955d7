/-!
# Numerals

Whole numbers written in decimal digits. An unsigned numeral may start with `+`, a signed one with
`+` or `-`; at least one ASCII digit follows and nothing else, and leading zeros do not count.
A numeral whose value lies outside the asked bounds is no numeral.

Numerals to base 16 are written with as many digits as asked for. Two digits are one byte of the
number (`hexNumeral_add_two`), and are read back as that byte (`numeral?_hexNumeral`).
-/

namespace Switchboard.Text

/-- The value of an ASCII digit or letter as a digit: `0` to `9`, then `a` or `A` for ten, and so
on; 36 for any other character. -/
def digitValue (c : Char) : Nat :=
  if c.isDigit then c.toNat - '0'.toNat
  else if c.isLower then c.toNat - 'a'.toNat + 10
  else if c.isUpper then c.toNat - 'A'.toNat + 10
  else 36

/-- Whether a character is a digit of the given base. -/
def isDigitOf (base : Nat) (c : Char) : Bool :=
  digitValue c < base

/-- The value of a run of digits, most significant first. -/
def digitsValue (base : Nat) (ds : List Char) : Nat :=
  ds.foldl (fun n d => base * n + digitValue d) 0

/-- Reads a run of at least one digit and nothing else. -/
def digits? (base : Nat) (ds : List Char) : Option Nat :=
  if ds ≠ [] ∧ ds.all (isDigitOf base) then some (digitsValue base ds) else none

/-- Drops one leading plus sign. -/
def dropPlus : List Char → List Char
  | '+' :: cs => cs
  | cs => cs

/-- Reads an unsigned numeral to a base, below `bound`. -/
def numeral? (base bound : Nat) (cs : List Char) : Option Nat :=
  (digits? base (dropPlus cs)).filter (· < bound)

/-- Reads an unsigned decimal numeral below `bound`. -/
def unsigned? (bound : Nat) (s : String) : Option Nat :=
  numeral? 10 bound s.toList

/-- The number of values of a 64-bit word. -/
def wordBound : Nat := UInt64.size

/-- The number of values of a 64-bit signed word that are not negative. -/
def signedBound : Nat := 0x8000000000000000

/-- Reads an unsigned numeral that fits a 64-bit word. -/
def word? (s : String) : Option UInt64 :=
  (unsigned? wordBound s).map .ofNat

/-- Reads a signed decimal numeral that fits a 64-bit signed word. -/
def signedWord? (s : String) : Option Int :=
  match s.toList with
  | '-' :: cs => (digits? 10 cs).filter (· ≤ signedBound) |>.map fun n => -(n : Int)
  | cs => (numeral? 10 signedBound cs).map fun n => (n : Int)

/-- The digit character of a value below 16, letters in lower case. -/
def hexDigit (n : Nat) : Char :=
  if n < 10 then .ofNat ('0'.toNat + n) else .ofNat ('a'.toNat + (n - 10))

/-- The digits of a number to base 16, letters in lower case, with zeros in front up to a width. -/
def hexNumeral (width n : Nat) : List Char :=
  List.leftpad width '0' (Nat.toDigits 16 n)

/-- The two hexadecimal digits of a byte. -/
def hexByte (b : UInt8) : String :=
  .ofList (hexNumeral 2 b.toNat)

/-! ## Numerals to base 16 -/

/-- The last digit comes off the end; the zeros in front are as many as before. -/
theorem hexNumeral_succ {width : Nat} (hwidth : 0 < width) (n : Nat) :
    hexNumeral (width + 1) n = hexNumeral width (n / 16) ++ [Nat.digitChar (n % 16)] := by
  unfold hexNumeral List.leftpad
  rw [Nat.toDigits_eq_if (by decide)]
  split
  · next hn =>
    -- a zero stands in front of a single digit
    obtain ⟨width, rfl⟩ : ∃ k, width = k + 1 := ⟨width - 1, by omega⟩
    have hzero : n / 16 = 0 := Nat.div_eq_of_lt hn
    rw [hzero, Nat.mod_eq_of_lt hn, Nat.toDigits_of_lt_base (by decide)]
    simp [List.replicate_succ', Nat.digitChar]
  · rw [List.length_append, List.append_assoc]
    simp

/-- Two digits are one byte of the number. -/
theorem hexNumeral_add_two {width : Nat} (hwidth : 0 < width) (n : Nat) :
    hexNumeral (width + 2) n = hexNumeral width (n / 256) ++ hexNumeral 2 (n % 256) := by
  have hone (d : Nat) (hd : d < 16) : hexNumeral 1 d = [Nat.digitChar d] := by
    simp [hexNumeral, List.leftpad, Nat.toDigits_of_lt_base hd]
  have hhigh : n % 256 / 16 = n / 16 % 16 := by omega
  have hlow : n % 256 % 16 = n % 16 := by omega
  rw [hexNumeral_succ (Nat.succ_pos width), hexNumeral_succ hwidth, Nat.div_div_eq_div_mul,
    hexNumeral_succ (by decide), hhigh, hlow, hone _ (Nat.mod_lt _ (by decide)), List.append_assoc]

/-- The digits of a byte are read back. -/
theorem numeral?_hexNumeral : ∀ n < 256, numeral? 16 256 (hexNumeral 2 n) = some n := by
  decide +kernel

end Switchboard.Text
