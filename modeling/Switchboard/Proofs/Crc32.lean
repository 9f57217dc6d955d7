import Mathlib.Algebra.Group.Nat.Defs
import Mathlib.Logic.Function.Basic
import Switchboard.Crc32

/-!
# Bursts and the CRC-32

Taking a bit out of the remainder is linear in exclusive or (`shift_xor`) and loses nothing
(`shift_injective`). So two remainders that differ stay different as long as the same bytes are fed
to both, and what is left to show is that a burst makes them differ:

* **`toNat_of_shifts_lt`**: when eight bits are taken out and less than 24 are left, the eight were
  zero.
* **`xor_lt_of_foldl_eq`**: two remainders that a few bytes make equal differ in no more bits than
  these bytes have. Induction on the bytes, from the last one back to the first.
* **`eq_of_foldl_eq`**: four bytes can be told from what they make of a remainder.
* **`eq_of_ofBytes_eq`**: hence byte strings with the same CRC-32 do not differ within four
  consecutive bytes only.
-/

namespace Switchboard.Crc32

variable {r r' : UInt32} {bs bs' : List UInt8}

/-! ## One bit -/

theorem shift_toBitVec (r : UInt32) :
    (shift r).toBitVec =
      if r.toBitVec.getLsbD 0 then (r.toBitVec >>> 1) ^^^ polynomial.toBitVec
      else r.toBitVec >>> 1 := by
  have hlow : r &&& 1 = 1 ↔ r.toBitVec.getLsbD 0 = true := by
    rw [← UInt32.toBitVec_inj, UInt32.toBitVec_and]
    show r.toBitVec &&& 1#32 = 1#32 ↔ _
    rw [BitVec.and_one_eq_setWidth_ofBool_getLsbD]
    cases r.toBitVec.getLsbD 0 <;> decide
  unfold shift
  simp only [hlow]
  split <;> simp

theorem shift_xor (a b : UInt32) : shift (a ^^^ b) = shift a ^^^ shift b := by
  have hcancel (u v p : BitVec 32) : u ^^^ p ^^^ (v ^^^ p) = u ^^^ v := by
    rw [BitVec.xor_comm v p, ← BitVec.xor_assoc, BitVec.xor_assoc u p p, BitVec.xor_self,
      BitVec.xor_zero]
  rw [← UInt32.toBitVec_inj]
  simp only [shift_toBitVec, UInt32.toBitVec_xor, BitVec.getLsbD_xor,
    BitVec.ushiftRight_xor_distrib]
  generalize polynomial.toBitVec = p
  -- the polynomial comes in once for each of the two low bits that is set
  cases a.toBitVec.getLsbD 0 <;> cases b.toBitVec.getLsbD 0
  · simp
  · simp [BitVec.xor_assoc]
  · simp [BitVec.xor_comm]
    ac_rfl
  · simp [hcancel]

theorem eq_zero_of_shift_eq_zero (h : shift r = 0) : r = 0 := by
  rw [← UInt32.toBitVec_inj, shift_toBitVec] at h
  rw [← UInt32.toBitVec_inj]
  split at h
  · -- the polynomial has its highest bit set, and there is nothing to cancel it
    have hhigh := congrArg (·.getLsbD 31) h
    simp [polynomial] at hhigh
  · next hlow =>
    apply BitVec.eq_of_getLsbD_eq
    intro i hi
    cases i with
    | zero => simpa using hlow
    | succ i =>
      have hbit := congrArg (·.getLsbD i) h
      simpa [Nat.add_comm] using hbit

theorem shift_injective : Function.Injective shift := by
  intro a b h
  have hzero : shift (a ^^^ b) = 0 := by
    rw [shift_xor, h, UInt32.xor_self]
  exact UInt32.xor_eq_zero_iff.1 (eq_zero_of_shift_eq_zero hzero)

theorem toNat_shift_of_even (h : 2 ∣ r.toNat) : (shift r).toNat = r.toNat / 2 := by
  have hlow : r &&& 1 ≠ 1 := by
    intro hone
    have hodd := congrArg UInt32.toNat hone
    rw [UInt32.toNat_and] at hodd
    simp [Nat.and_one_is_mod] at hodd
    omega
  rw [shift, if_neg hlow, UInt32.toNat_shiftRight]
  simp [Nat.shiftRight_eq_div_pow]

/-! ## Several bits -/

theorem shifts_xor (n : Nat) (a b : UInt32) : shifts n (a ^^^ b) = shifts n a ^^^ shifts n b := by
  induction n generalizing a b with
  | zero => rfl
  | succ n ih => rw [shifts, shift_xor, ih, shifts, shifts]

theorem shifts_injective (n : Nat) : Function.Injective (shifts n) := by
  induction n with
  | zero => exact fun _ _ h => h
  | succ n ih => exact fun _ _ h => shift_injective (ih h)

theorem toNat_shifts_of_dvd {n : Nat} (h : 2 ^ n ∣ r.toNat) :
    (shifts n r).toNat = r.toNat / 2 ^ n := by
  induction n generalizing r with
  | zero => rw [shifts, Nat.pow_zero, Nat.div_one]
  | succ n ih =>
    have heven : 2 ∣ r.toNat := Nat.dvd_trans (Nat.dvd_mul_left 2 (2 ^ n)) h
    have hhalf : (shift r).toNat = r.toNat / 2 := toNat_shift_of_even heven
    have hrest : 2 ^ n ∣ (shift r).toNat := by
      rw [hhalf]
      exact (Nat.dvd_div_iff_mul_dvd heven).2 (by rwa [Nat.mul_comm])
    rw [shifts, ih hrest, hhalf, Nat.div_div_eq_div_mul, Nat.pow_succ, Nat.mul_comm]

theorem toNat_of_shifts_lt (h : (shifts 8 r).toNat < 2 ^ 24) :
    r.toNat = 2 ^ 8 * (shifts 8 r).toNat := by
  -- what is left, with eight zeros below it, leaves the same, so it is what there was
  have hleft : (shifts 8 r <<< 8).toNat = 2 ^ 8 * (shifts 8 r).toNat := by
    rw [UInt32.toNat_shiftLeft, show UInt32.toNat 8 % 32 = 8 from rfl, Nat.shiftLeft_eq,
      Nat.mod_eq_of_lt (by omega), Nat.mul_comm]
  have hsame : shifts 8 (shifts 8 r <<< 8) = shifts 8 r := by
    rw [← UInt32.toNat_inj, toNat_shifts_of_dvd ⟨_, hleft⟩, hleft]
    exact Nat.mul_div_cancel_left _ (by decide)
  rw [← shifts_injective 8 hsame, hleft, shifts_injective 8 hsame]

/-! ## Bytes -/

theorem absorb_xor_absorb (r r' : UInt32) (b b' : UInt8) :
    absorb r b ^^^ absorb r' b' = shifts 8 (r ^^^ r' ^^^ (b ^^^ b').toUInt32) := by
  rw [absorb, absorb, ← shifts_xor, UInt8.toUInt32_xor]
  congr 1
  ac_rfl

theorem absorb_injective (b : UInt8) : Function.Injective (absorb · b) := by
  intro r r' h
  exact (UInt32.xor_left_inj _).1 (shifts_injective 8 h)

/-- The same bytes keep different remainders different. -/
theorem foldl_absorb_injective (bs : List UInt8) : Function.Injective (bs.foldl absorb ·) := by
  induction bs with
  | nil => exact fun _ _ h => h
  | cons b bs ih => exact fun _ _ h => absorb_injective b (ih h)

theorem xor_lt_of_foldl_eq (hlen : bs.length = bs'.length) (hshort : bs.length ≤ 3)
    (h : bs.foldl absorb r = bs'.foldl absorb r') :
    (r ^^^ r').toNat < 2 ^ (8 * bs.length) := by
  induction bs generalizing bs' r r' with
  | nil =>
    obtain rfl := List.length_eq_zero_iff.1 hlen.symm
    rw [show r = r' from h, UInt32.xor_self]
    decide
  | cons b bs ih =>
    obtain ⟨b', bs', rfl⟩ := List.exists_cons_of_length_eq_add_one hlen.symm
    simp only [List.length_cons] at hlen hshort ⊢
    have hrest := ih (Nat.succ.inj hlen) (by omega) h
    rw [absorb_xor_absorb] at hrest
    have hbound : 2 ^ (8 * bs.length) ≤ 2 ^ 24 := Nat.pow_le_pow_right (by decide) (by omega)
    have hout := toNat_of_shifts_lt (Nat.lt_of_lt_of_le hrest hbound)
    -- one byte back: eight more bits, and among them those in which the two bytes differ
    have hsum : (r ^^^ r' ^^^ (b ^^^ b').toUInt32).toNat < 2 ^ (8 * (bs.length + 1)) := by
      rw [hout, show 8 * (bs.length + 1) = 8 + 8 * bs.length by omega, Nat.pow_add]
      exact Nat.mul_lt_mul_of_pos_left hrest (by decide)
    have hbyte : (b ^^^ b').toUInt32.toNat < 2 ^ (8 * (bs.length + 1)) := by
      rw [UInt8.toNat_toUInt32]
      exact Nat.lt_of_lt_of_le (b ^^^ b').toNat_lt (Nat.pow_le_pow_right (by decide) (by omega))
    have hback : r ^^^ r' = r ^^^ r' ^^^ (b ^^^ b').toUInt32 ^^^ (b ^^^ b').toUInt32 := by
      rw [UInt32.xor_assoc (r ^^^ r'), UInt32.xor_self, UInt32.xor_zero]
    rw [hback, UInt32.toNat_xor]
    exact Nat.xor_lt_two_pow hsum hbyte

theorem eq_of_foldl_eq (hlen : bs.length = bs'.length) (hshort : bs.length ≤ 4)
    (h : bs.foldl absorb r = bs'.foldl absorb r) : bs = bs' := by
  induction bs generalizing bs' r with
  | nil => exact (List.length_eq_zero_iff.1 hlen.symm).symm
  | cons b bs ih =>
    obtain ⟨b', bs', rfl⟩ := List.exists_cons_of_length_eq_add_one hlen.symm
    simp only [List.length_cons, Nat.add_right_cancel_iff] at hlen hshort
    have hrest := xor_lt_of_foldl_eq hlen (by omega) h
    have hbound : 2 ^ (8 * bs.length) ≤ 2 ^ 24 := Nat.pow_le_pow_right (by decide) (by omega)
    rw [absorb_xor_absorb, UInt32.xor_self, UInt32.zero_xor] at hrest
    have hout := toNat_of_shifts_lt (Nat.lt_of_lt_of_le hrest hbound)
    -- a multiple of 256 that fits a byte
    have hsmall := (b ^^^ b').toNat_lt
    rw [UInt8.toNat_toUInt32] at hout
    have hzero : b ^^^ b' = 0 := by
      rw [← UInt8.toNat_inj]
      show (b ^^^ b').toNat = 0
      omega
    obtain rfl := UInt8.xor_eq_zero_iff.1 hzero
    rw [ih hlen (by omega) h]

/-- **The CRC-32 tells bursts of four bytes**, whatever stands around them. -/
theorem eq_of_ofBytes_eq {front back : List UInt8} (hlen : bs.length = bs'.length)
    (hshort : bs.length ≤ 4)
    (h : ofBytes (front ++ bs ++ back) = ofBytes (front ++ bs' ++ back)) : bs = bs' := by
  rw [ofBytes, ofBytes, UInt32.not_inj] at h
  simp only [List.foldl_append] at h
  exact eq_of_foldl_eq hlen hshort (foldl_absorb_injective back h)

end Switchboard.Crc32
