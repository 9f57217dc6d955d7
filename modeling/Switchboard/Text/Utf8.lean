/-!
# UTF-8

Reading bytes as text. The well-formed sequences are those of the Unicode standard's table of
well-formed byte ranges; where a sequence breaks off, the longest run of bytes that could still
have become a character counts as one broken piece. Strict reading refuses a broken piece
(`decode?`), lenient reading writes U+FFFD for it (`decodeLossy`). Main statement: the written
bytes of a text read back as that text, strictly and leniently (`decode?_encode`,
`decodeLossy_encode`).
-/

namespace Switchboard.Text.Utf8

/-- The bytes of a text. -/
def encode (s : String) : List UInt8 :=
  s.toList.flatMap String.utf8EncodeChar

/-- What the first byte of a character announces: how many bytes follow, the range of the first of
them, and the leading bits of the code point. -/
structure Lead where
  tails : Nat
  low : UInt8
  high : UInt8
  bits : Nat

/-- Reads the first byte of a character; `none` where no character starts with it. -/
def Lead.ofByte? (b : UInt8) : Option Lead :=
  if b < 0x80 then some ⟨0, 0x80, 0xBF, b.toNat⟩
  else if b < 0xC2 then none
  else if b < 0xE0 then some ⟨1, 0x80, 0xBF, b.toNat - 0xC0⟩
  else if b = 0xE0 then some ⟨2, 0xA0, 0xBF, 0⟩
  else if b = 0xED then some ⟨2, 0x80, 0x9F, 0xD⟩
  else if b < 0xF0 then some ⟨2, 0x80, 0xBF, b.toNat - 0xE0⟩
  else if b = 0xF0 then some ⟨3, 0x90, 0xBF, 0⟩
  else if b < 0xF4 then some ⟨3, 0x80, 0xBF, b.toNat - 0xF0⟩
  else if b = 0xF4 then some ⟨3, 0x80, 0x8F, 4⟩
  else none

/-- Reads `n` following bytes onto the code point `code`. The rest starts at the byte that breaks
the sequence, if one does. -/
def tail (n : Nat) (low high : UInt8) (code : Nat) (bs : List UInt8) :
    Option Nat × List UInt8 :=
  match n, bs with
  | 0, bs => (some code, bs)
  | _ + 1, [] => (none, [])
  | n + 1, b :: bs =>
    if low ≤ b ∧ b ≤ high then tail n 0x80 0xBF (code * 64 + (b.toNat - 0x80)) bs
    else (none, b :: bs)

theorem length_tail_le (n : Nat) (low high : UInt8) (code : Nat) (bs : List UInt8) :
    (tail n low high code bs).2.length ≤ bs.length := by
  induction n generalizing low high code bs with
  | zero => simp [tail]
  | succ n ih =>
    cases bs with
    | nil => simp [tail]
    | cons b bs =>
      unfold tail
      split
      · exact Nat.le_succ_of_le (ih ..)
      · simp

/-- Reads one piece, whose first byte is `b`: a character, or `none` for a broken piece. -/
def piece (b : UInt8) (bs : List UInt8) : Option Char × List UInt8 :=
  match Lead.ofByte? b with
  | none => (none, bs)
  | some l =>
    let r := tail l.tails l.low l.high l.bits bs
    (r.1.map Char.ofNat, r.2)

theorem length_piece_le (b : UInt8) (bs : List UInt8) : (piece b bs).2.length ≤ bs.length := by
  unfold piece
  split
  · simp
  · exact length_tail_le ..

/-- The pieces of a byte string, broken ones as `none`. -/
def pieces : List UInt8 → List (Option Char)
  | [] => []
  | b :: bs => (piece b bs).1 :: pieces (piece b bs).2
termination_by bs => bs.length
decreasing_by exact Nat.lt_succ_of_le (length_piece_le b bs)

/-- Reads bytes as text, refusing a broken piece. -/
def decode? (bs : List UInt8) : Option String :=
  ((pieces bs).mapM id).map .ofList

/-- Reads bytes as text, with U+FFFD for each broken piece. -/
def decodeLossy (bs : List UInt8) : String :=
  .ofList ((pieces bs).map fun p => p.getD '\uFFFD')

/-! ## Written bytes read back -/

/-- Reading the first byte, with the comparisons on numbers. -/
theorem Lead.ofByte?_ofNat {n : Nat} (h : n < 256) :
    Lead.ofByte? (.ofNat n) =
      if n < 0x80 then some ⟨0, 0x80, 0xBF, n⟩
      else if n < 0xC2 then none
      else if n < 0xE0 then some ⟨1, 0x80, 0xBF, n - 0xC0⟩
      else if n = 0xE0 then some ⟨2, 0xA0, 0xBF, 0⟩
      else if n = 0xED then some ⟨2, 0x80, 0x9F, 0xD⟩
      else if n < 0xF0 then some ⟨2, 0x80, 0xBF, n - 0xE0⟩
      else if n = 0xF0 then some ⟨3, 0x90, 0xBF, 0⟩
      else if n < 0xF4 then some ⟨3, 0x80, 0xBF, n - 0xF0⟩
      else if n = 0xF4 then some ⟨3, 0x80, 0x8F, 4⟩
      else none := by
  simp [Lead.ofByte?, UInt8.lt_iff_toNat_lt, ← UInt8.toNat_inj, Nat.mod_eq_of_lt h]

theorem tail_cons {n k code : Nat} {low high : UInt8} {bs : List UInt8} (hk : k < 64)
    (h : low.toNat ≤ k + 0x80 ∧ k + 0x80 ≤ high.toNat) :
    tail (n + 1) low high code (.ofNat (k + 0x80) :: bs) =
      tail n 0x80 0xBF (code * 64 + k) bs := by
  have hb : (UInt8.ofNat (k + 0x80)).toNat = k + 0x80 := by simp; omega
  rw [tail, if_pos (by simpa only [UInt8.le_iff_toNat_le, hb] using h), hb, Nat.add_sub_cancel]

theorem piece_of_lead {b : UInt8} {l : Lead} {bs rest : List UInt8} {code : Nat}
    (hl : Lead.ofByte? b = some l)
    (ht : tail l.tails l.low l.high l.bits bs = (some code, rest)) :
    piece b bs = (some (Char.ofNat code), rest) := by
  simp [piece, hl, ht]

/-- The first piece of a written character is that character. -/
theorem piece_encodeChar (c : Char) (bs : List UInt8) :
    ∃ b rest, String.utf8EncodeChar c = b :: rest ∧ piece b (rest ++ bs) = (some c, bs) := by
  have hc : c.val.toNat < 0xD800 ∨ 0xDFFF < c.val.toNat ∧ c.val.toNat < 0x110000 := by
    simpa [UInt32.isValidChar, Nat.isValidChar] using c.valid
  have hof : Char.ofNat c.val.toNat = c := Char.ofNat_toNat c
  unfold String.utf8EncodeChar
  simp only
  generalize c.val.toNat = v at *
  have tail_end {code : Nat} (h : code = v) :
      tail 0 0x80 0xBF code bs = (some v, bs) := by rw [h]; rfl
  rw [← hof]
  split
  · next h =>
    refine ⟨_, [], rfl, piece_of_lead (l := ⟨0, 0x80, 0xBF, v⟩) ?_ rfl⟩
    rw [Lead.ofByte?_ofNat (by omega), if_pos (by omega)]
  split
  · next h0 h =>
    refine ⟨_, [_], rfl, piece_of_lead (l := ⟨1, 0x80, 0xBF, v / 64⟩) ?_ ?_⟩
    · rw [Lead.ofByte?_ofNat (by omega), if_neg (by omega), if_neg (by omega), if_pos (by omega)]
      grind
    · exact (tail_cons (by omega) (by simp; omega)).trans (tail_end (by dsimp only; omega))
  split
  · next h0 h1 h =>
    have hlead : ∃ low high : UInt8,
        Lead.ofByte? (.ofNat (v / 4096 % 16 + 224)) = some ⟨2, low, high, v / 4096⟩ ∧
        low.toNat ≤ v / 64 % 64 + 0x80 ∧ v / 64 % 64 + 0x80 ≤ high.toNat := by
      rw [Lead.ofByte?_ofNat (by omega), if_neg (by omega), if_neg (by omega), if_neg (by omega)]
      split
      · exact ⟨0xA0, 0xBF, by grind, by simp; omega⟩
      split
      · exact ⟨0x80, 0x9F, by grind, by simp; omega⟩
      rw [if_pos (by omega)]
      exact ⟨0x80, 0xBF, by grind, by simp; omega⟩
    obtain ⟨low, high, hl, hr⟩ := hlead
    refine ⟨_, [_, _], rfl, piece_of_lead hl ?_⟩
    exact (tail_cons (by omega) hr).trans
      ((tail_cons (by omega) (by simp; omega)).trans (tail_end (by dsimp only; omega)))
  · next h0 h1 h =>
    have hlead : ∃ low high : UInt8,
        Lead.ofByte? (.ofNat (v / 262144 % 8 + 240)) = some ⟨3, low, high, v / 262144⟩ ∧
        low.toNat ≤ v / 4096 % 64 + 0x80 ∧ v / 4096 % 64 + 0x80 ≤ high.toNat := by
      rw [Lead.ofByte?_ofNat (by omega), if_neg (by omega), if_neg (by omega), if_neg (by omega),
        if_neg (by omega), if_neg (by omega), if_neg (by omega)]
      split
      · exact ⟨0x90, 0xBF, by grind, by simp; omega⟩
      split
      · exact ⟨0x80, 0xBF, by grind, by simp; omega⟩
      rw [if_pos (by omega)]
      exact ⟨0x80, 0x8F, by grind, by simp; omega⟩
    obtain ⟨low, high, hl, hr⟩ := hlead
    refine ⟨_, [_, _, _], rfl, piece_of_lead hl ?_⟩
    exact (tail_cons (by omega) hr).trans ((tail_cons (by omega) (by simp; omega)).trans
      ((tail_cons (by omega) (by simp; omega)).trans (tail_end (by dsimp only; omega))))

theorem pieces_encodeChar_append (c : Char) (bs : List UInt8) :
    pieces (String.utf8EncodeChar c ++ bs) = some c :: pieces bs := by
  obtain ⟨b, rest, h, hp⟩ := piece_encodeChar c bs
  rw [h, List.cons_append, pieces, hp]

theorem pieces_flatMap_encodeChar (cs : List Char) :
    pieces (cs.flatMap String.utf8EncodeChar) = cs.map some := by
  induction cs with
  | nil => simp [pieces]
  | cons c cs ih => rw [List.flatMap_cons, pieces_encodeChar_append, ih, List.map_cons]

/-- Strict reading undoes writing. -/
theorem decode?_encode (s : String) : decode? (encode s) = some s := by
  have h (cs : List Char) : (cs.map some).mapM (m := Option) id = some cs := by
    induction cs with
    | nil => rfl
    | cons c cs ih => simp [ih]
  rw [decode?, encode, pieces_flatMap_encodeChar, h, Option.map_some, String.ofList_toList]

/-- Lenient reading undoes writing. -/
theorem decodeLossy_encode (s : String) : decodeLossy (encode s) = s := by
  simp [decodeLossy, encode, pieces_flatMap_encodeChar, Function.comp_def]

/-- The number of bytes of a text is its size. -/
theorem length_encode (s : String) : (encode s).length = s.utf8ByteSize := by
  conv =>
    rhs
    rw [← String.ofList_toList (s := s), ← String.size_toByteArray, String.toByteArray_ofList]
  simp [encode, List.utf8Encode]

end Switchboard.Text.Utf8
