/-!
# CRC-32

The reflected 32-bit cyclic redundancy check with polynomial `0xEDB88320`, all ones at the start
and complemented at the end.
-/

namespace Switchboard.Crc32

/-- The generator polynomial, bits reversed. -/
def polynomial : UInt32 := 0xEDB88320

/-- Takes one bit out of the remainder. -/
def shift (r : UInt32) : UInt32 :=
  if r &&& 1 = 1 then (r >>> 1) ^^^ polynomial else r >>> 1

/-- Takes `n` bits out of the remainder. -/
def shifts : Nat → UInt32 → UInt32
  | 0, r => r
  | n + 1, r => shifts n (shift r)

/-- Feeds one byte to the remainder. -/
def absorb (r : UInt32) (b : UInt8) : UInt32 :=
  shifts 8 (r ^^^ b.toUInt32)

/-- The check value of a byte string. -/
def ofBytes (bs : List UInt8) : UInt32 :=
  ~~~(bs.foldl absorb 0xFFFFFFFF)

/-- The bytes of a word, least significant first. -/
def littleEndian (w : UInt32) : List UInt8 :=
  [w.toUInt8, (w >>> 8).toUInt8, (w >>> 16).toUInt8, (w >>> 24).toUInt8]

/-- Four bytes are those of a word just when they are its digits to base 256, lowest first. -/
theorem littleEndian_eq_iff {w : UInt32} {c₀ c₁ c₂ c₃ : UInt8} :
    littleEndian w = [c₀, c₁, c₂, c₃] ↔
      w.toNat = c₀.toNat + 256 * (c₁.toNat + 256 * (c₂.toNat + 256 * c₃.toNat)) := by
  have hw := w.toNat_lt
  have h₀ := c₀.toNat_lt
  have h₁ := c₁.toNat_lt
  have h₂ := c₂.toNat_lt
  have h₃ := c₃.toNat_lt
  have hbyte (n : UInt32) : n.toUInt8.toNat = n.toNat % 256 := UInt32.toNat_toUInt8 n
  have hshift₁ : (w >>> 8).toNat = w.toNat / 2 ^ 8 := by
    simp [UInt32.toNat_shiftRight, Nat.shiftRight_eq_div_pow]
  have hshift₂ : (w >>> 16).toNat = w.toNat / 2 ^ 16 := by
    simp [UInt32.toNat_shiftRight, Nat.shiftRight_eq_div_pow]
  have hshift₃ : (w >>> 24).toNat = w.toNat / 2 ^ 24 := by
    simp [UInt32.toNat_shiftRight, Nat.shiftRight_eq_div_pow]
  simp only [littleEndian, List.cons.injEq, and_true, ← UInt8.toNat_inj, hbyte, hshift₁,
    hshift₂, hshift₃]
  omega

/-- The value published for checking implementations. -/
example : ofBytes [0x31, 0x32, 0x33, 0x34, 0x35, 0x36, 0x37, 0x38, 0x39] = 0xCBF43926 := by
  decide +kernel

end Switchboard.Crc32
