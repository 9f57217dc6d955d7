import Mathlib.Data.Nat.Find
import Switchboard.Command.Parser
import Switchboard.Proofs.Results.Store
import Switchboard.Text.Utf8

/-!
# Slices at character boundaries

Lines and stored texts lie in memory as bytes. They are indexed by byte and cut at byte offsets, and
a cut inside a character has no text on either side. This module reads a line and cuts a piece in
that way, with every index and every cut checked, and shows that no check ever fails:

* **`cutAt?`**: the two parts of a text at a byte offset. There are two exactly if the offset is a
  position of the text (`isSome_cutAt?_iff`).
* **`parseBytes?`**: reads a line by its first bytes. A colon in the second byte is preceded by a
  character of one byte, so the rest of the line starts at a boundary (`parseBytes?_eq`).
* **`chunkBoundary`**: steps back from the capacity to a boundary, or over one character if there is
  none. It ends where the pieces of stored texts end (`cutAt?_chunkBoundary`).
-/

namespace Switchboard.Text

variable {n capacity : Nat} {a b cs : List Char}

/-! ## Cutting at a byte -/

theorem utf8Length_eq_sum (cs : List Char) : utf8Length cs = (cs.map Char.utf8Size).sum := by
  induction cs with
  | nil => rfl
  | cons c cs ih => rw [utf8Length_cons, ih, List.map_cons, List.sum_cons]

theorem utf8Length_toList (s : String) : utf8Length s.toList = s.utf8ByteSize := by
  rw [← Utf8.length_encode, Utf8.encode, List.length_flatMap]
  simp only [utf8Length_eq_sum, String.length_utf8EncodeChar]

/-- A text of digits has one byte for each. -/
theorem utf8ByteSize_of_isDigit {s : String} (h : ∀ c ∈ s.toList, c.isDigit = true) :
    s.utf8ByteSize = s.length := by
  have hone (c : Char) (hc : c ∈ s.toList) : c.utf8Size = 1 := by
    have hdigit := h c hc
    simp only [Char.isDigit, Bool.and_eq_true, decide_eq_true_eq] at hdigit
    exact Char.utf8Size_eq_one_iff.2 (UInt32.le_trans hdigit.2 (by decide))
  rw [← utf8Length_toList, utf8Length_eq_sum, List.map_congr_left hone, List.map_const',
    List.sum_replicate_nat, String.length_toList, Nat.mul_one]

/-- A text can be cut at the positions that lie in it, and nowhere else. -/
theorem isSome_cutAt?_iff (s : String) :
    (cutAt? n s.toList).isSome ↔ (⟨n⟩ : String.Pos.Raw).IsValid s := by
  simp only [Option.isSome_iff_exists, Prod.exists, cutAt?_eq_some_iff,
    String.Pos.Raw.isValid_iff_exists_append]
  constructor
  · rintro ⟨a, b, happ, rfl⟩
    refine ⟨.ofList a, .ofList b, ?_, ?_⟩
    · rw [← String.ofList_append, happ, String.ofList_toList]
    · rw [← String.toList_ofList (l := a), utf8Length_toList, String.ofList_toList]
      rfl
  · rintro ⟨front, back, rfl, hn⟩
    refine ⟨front.toList, back.toList, String.toList_append.symm, ?_⟩
    rw [utf8Length_toList]
    exact (congrArg String.Pos.Raw.byteIdx hn).symm

/-! ## Reading a line by its bytes -/

/-- A character of one byte is that byte; any other has more, and none of them is ASCII. -/
theorem utf8EncodeChar_cases (c : Char) :
    (c.toNat < 0x80 ∧ String.utf8EncodeChar c = [UInt8.ofNat c.toNat]) ∨
      0x80 ≤ c.toNat ∧ ∃ first second rest, String.utf8EncodeChar c = first :: second :: rest ∧
        ∀ b ∈ first :: second :: rest, 0x80 ≤ b.toNat := by
  unfold String.utf8EncodeChar Char.toNat
  simp only
  generalize c.val.toNat = v
  have hbyte {n k : Nat} (hlow : 0x80 ≤ k) (hhigh : n + k < 0x100) :
      0x80 ≤ (UInt8.ofNat (n + k)).toNat := by
    simp only [UInt8.toNat_ofNat']
    omega
  split
  · exact Or.inl ⟨by omega, rfl⟩
  split
  · refine Or.inr ⟨by omega, _, _, _, rfl, ?_⟩
    simp only [List.mem_cons, List.not_mem_nil, or_false, forall_eq_or_imp, forall_eq]
    exact ⟨hbyte (by omega) (by omega), hbyte (by omega) (by omega)⟩
  split
  · refine Or.inr ⟨by omega, _, _, _, rfl, ?_⟩
    simp only [List.mem_cons, List.not_mem_nil, or_false, forall_eq_or_imp, forall_eq]
    exact ⟨hbyte (by omega) (by omega), hbyte (by omega) (by omega), hbyte (by omega) (by omega)⟩
  · refine Or.inr ⟨by omega, _, _, _, rfl, ?_⟩
    simp only [List.mem_cons, List.not_mem_nil, or_false, forall_eq_or_imp, forall_eq]
    exact ⟨hbyte (by omega) (by omega), hbyte (by omega) (by omega), hbyte (by omega) (by omega),
      hbyte (by omega) (by omega)⟩

/-- An ASCII byte belongs to no character but the one that it is. -/
theorem mem_utf8EncodeChar_iff {b : UInt8} (hb : b.toNat < 0x80) (c : Char) :
    b ∈ String.utf8EncodeChar c ↔ c.toNat = b.toNat := by
  rcases utf8EncodeChar_cases c with ⟨hc, hbytes⟩ | ⟨hc, first, second, rest, hbytes, hwide⟩
  · rw [hbytes, List.mem_singleton, ← UInt8.toNat_inj, UInt8.toNat_ofNat',
      Nat.mod_eq_of_lt (by omega)]
    exact eq_comm
  · rw [hbytes]
    constructor
    · intro hmem
      have := hwide b hmem
      omega
    · omega

/-- A colon is told by the first byte. -/
theorem exists_first_byte (c : Char) :
    ∃ first rest, String.utf8EncodeChar c = first :: rest ∧
      (first.toNat = ':'.toNat ↔ c = ':') := by
  rcases utf8EncodeChar_cases c with ⟨hc, hbytes⟩ | ⟨hc, first, second, rest, hbytes, hwide⟩
  · refine ⟨_, _, hbytes, ?_⟩
    rw [UInt8.toNat_ofNat', Nat.mod_eq_of_lt (by omega)]
    exact Char.toNat_inj
  · have hfirst := hwide first List.mem_cons_self
    refine ⟨_, _, hbytes, ⟨fun h => ?_, fun h => ?_⟩⟩
    · rw [h] at hfirst
      exact absurd hfirst (by decide)
    · rw [h] at hc
      exact absurd hc (by decide)

end Switchboard.Text

namespace Switchboard.Command

open Text

/-- The digits that a line can start with. -/
def digits : List Char :=
  ['0', '1', '2', '4', '5', '9']

/-- Reads a line by its bytes; nothing if it is indexed or cut where it cannot be. -/
def parseBytes? (line : String) : Option (Except CallFault Command) :=
  let bytes := Utf8.encode line
  if bytes.length < 3 then some (.error .invalidFormat)
  else
    bytes[1]?.bind fun colon =>
      if colon.toNat ≠ ':'.toNat then some (.error .invalidFormat)
      else
        bytes[0]?.bind fun first =>
          let digit := Char.ofNat first.toNat
          if digit ∉ digits then some (.error (.invalidOpcode digit))
          else (cutAt? 2 line.toList).map fun p => parseRest digit (.ofList p.2)

theorem parseRest_of_not_mem {digit : Char} (h : digit ∉ digits) (rest : String) :
    parseRest digit rest = .error (.invalidOpcode digit) := by
  simp only [digits, List.mem_cons, List.not_mem_nil, or_false, not_or] at h
  obtain ⟨h0, h1, h2, h4, h5, h9⟩ := h
  unfold parseRest
  split
  · exact absurd rfl h0
  · exact absurd rfl h1
  · exact absurd rfl h2
  · exact absurd rfl h4
  · exact absurd rfl h5
  · exact absurd rfl h9
  · rfl

/-- What the first two bytes say, when there is a third. -/
theorem parseBytes?_of_bytes {line : String} {first second : UInt8} {rest : List UInt8}
    (hbytes : Utf8.encode line = first :: second :: rest) (hrest : rest ≠ []) :
    parseBytes? line =
      if second.toNat ≠ ':'.toNat then some (.error .invalidFormat)
      else if Char.ofNat first.toNat ∉ digits then
        some (.error (.invalidOpcode (Char.ofNat first.toNat)))
      else (cutAt? 2 line.toList).map fun p =>
        parseRest (Char.ofNat first.toNat) (.ofList p.2) := by
  have hlong : ¬ (first :: second :: rest).length < 3 := by
    have := List.length_pos_iff.2 hrest
    simp only [List.length_cons]
    omega
  unfold parseBytes?
  dsimp only
  rw [hbytes, if_neg hlong]
  rfl

theorem parseBytes?_of_ne {line : String} {first second : UInt8} {rest : List UInt8}
    (hbytes : Utf8.encode line = first :: second :: rest) (hne : second.toNat ≠ ':'.toNat) :
    parseBytes? line = some (.error .invalidFormat) := by
  cases rest with
  | nil =>
    unfold parseBytes?
    rw [hbytes]
    rfl
  | cons third rest => rw [parseBytes?_of_bytes hbytes (List.cons_ne_nil _ _), if_pos hne]

theorem parseBytes?_of_short {line : String} (hshort : (Utf8.encode line).length < 3) :
    parseBytes? line = some (.error .invalidFormat) := by
  unfold parseBytes?
  dsimp only
  rw [if_pos hshort]

/-- A line of the right shape is cut behind its second byte, which is the colon. -/
theorem parseBytes?_of_shape {line : String} {c d : Char} {ds : List Char} (hc : c.toNat < 0x80)
    (hline : line.toList = c :: ':' :: d :: ds) :
    parseBytes? line = some (parseRest c (.ofList (d :: ds))) := by
  obtain ⟨-, hbytes⟩ | ⟨hc', -⟩ := utf8EncodeChar_cases c
  · obtain ⟨third, rest, hthird, -⟩ := exists_first_byte d
    have hcolon : String.utf8EncodeChar ':' = [58] := by decide +kernel
    have hencode : Utf8.encode line = UInt8.ofNat c.toNat :: 58 :: third ::
        (rest ++ ds.flatMap String.utf8EncodeChar) := by
      simp only [Utf8.encode, hline, List.flatMap_cons, hbytes, hcolon, hthird, List.cons_append,
        List.nil_append]
    have hdigit : Char.ofNat (UInt8.ofNat c.toNat).toNat = c := by
      rw [UInt8.toNat_ofNat', Nat.mod_eq_of_lt (by omega), Char.ofNat_toNat]
    have hcut : cutAt? 2 line.toList = some ([c, ':'], d :: ds) := by
      have hsize : c.utf8Size = 1 := by
        rw [← String.length_utf8EncodeChar, hbytes]
        rfl
      rw [cutAt?_eq_some_iff, hline]
      refine ⟨rfl, ?_⟩
      rw [utf8Length_cons, hsize]
      rfl
    rw [parseBytes?_of_bytes hencode (List.cons_ne_nil _ _), if_neg (by decide), hdigit, hcut]
    split
    · next hother => rw [parseRest_of_not_mem hother]
    · rfl
  · omega

/-- The second byte is inside a first character beyond ASCII. -/
theorem parseBytes?_of_wide {line : String} {c : Char} {cs : List Char} (hc : 0x80 ≤ c.toNat)
    (hline : line.toList = c :: cs) : parseBytes? line = some (.error .invalidFormat) := by
  obtain ⟨hc', -⟩ | ⟨-, first, second, rest, hbytes, hwide⟩ := utf8EncodeChar_cases c
  · omega
  · have hencode : Utf8.encode line =
        first :: second :: (rest ++ cs.flatMap String.utf8EncodeChar) := by
      rw [Utf8.encode, hline, List.flatMap_cons, hbytes]
      rfl
    have hsecond := hwide second (List.mem_cons_of_mem _ List.mem_cons_self)
    exact parseBytes?_of_ne hencode (by show second.toNat ≠ 58; omega)

/-- Any other line is too short, or has no colon in the second byte. -/
theorem parseBytes?_of_no_shape {line : String}
    (hshape : ∀ c d ds, line.toList = c :: ':' :: d :: ds → False) :
    parseBytes? line = some (.error .invalidFormat) := by
  have hencode : Utf8.encode line = line.toList.flatMap String.utf8EncodeChar := rfl
  cases hline : line.toList with
  | nil =>
    rw [hline] at hencode
    exact parseBytes?_of_short (by simp [hencode])
  | cons c cs =>
    rcases utf8EncodeChar_cases c with ⟨-, hbytes⟩ | ⟨hc, -⟩
    · rw [hline, List.flatMap_cons, hbytes] at hencode
      cases cs with
      | nil => exact parseBytes?_of_short (by simp [hencode])
      | cons d ds =>
        obtain ⟨second, rest, hsecond, hcolon⟩ := exists_first_byte d
        rw [List.flatMap_cons, hsecond] at hencode
        by_cases hd : d = ':'
        · subst hd
          cases ds with
          | nil =>
            cases hsecond
            exact parseBytes?_of_short (by simp [hencode])
          | cons e es => exact absurd hline (hshape c e es)
        · exact parseBytes?_of_ne hencode (mt hcolon.1 hd)
    · exact parseBytes?_of_wide hc hline

/-- **Reading a line by its bytes goes through**, and reads what the line says. -/
theorem parseBytes?_eq (line : String) : parseBytes? line = some (parse line) := by
  unfold parse
  split
  · next c d ds hline =>
    split
    · next hc => exact parseBytes?_of_shape hc hline
    · next hc => exact parseBytes?_of_wide (Nat.not_lt.1 hc) hline
  · next hshape => exact parseBytes?_of_no_shape hshape

end Switchboard.Command

namespace Switchboard

open Text

variable {capacity : Nat} {cs : List Char}

/-! ## Cutting a piece -/

/-- Where the next piece of a text ends: at the last boundary within the capacity, or behind the
first character if that alone is too large. -/
def chunkBoundary (capacity : Nat) (cs : List Char) : Nat :=
  if utf8Length cs ≤ capacity then utf8Length cs
  else
    match Nat.findGreatest (fun n => (cutAt? n cs).isSome) capacity with
    | 0 => (cs.head?.map Char.utf8Size).getD 0
    | n + 1 => n + 1

/-- The front fits, and the next character does not fit with it. -/
theorem utf8Length_splitBytes (capacity : Nat) (cs : List Char) :
    utf8Length (splitBytes capacity cs).1 ≤ capacity ∧
      ∀ c rest, (splitBytes capacity cs).2 = c :: rest →
        capacity < utf8Length (splitBytes capacity cs).1 + c.utf8Size := by
  induction cs generalizing capacity with
  | nil => exact ⟨Nat.zero_le _, nofun⟩
  | cons c cs ih =>
    rw [splitBytes]
    split
    · next hfits =>
      obtain ⟨hle, hnext⟩ := ih (capacity - c.utf8Size)
      refine ⟨?_, fun d rest hrest => ?_⟩
      · rw [utf8Length_cons]
        omega
      · have := hnext d rest hrest
        rw [utf8Length_cons]
        omega
    · next hlarge =>
      refine ⟨Nat.zero_le _, fun d rest hrest => ?_⟩
      cases hrest
      rw [utf8Length_nil]
      omega

/-- A piece fits, or it is a single character. -/
theorem utf8Length_splitPiece_le (capacity : Nat) (cs : List Char) :
    utf8Length (splitPiece capacity cs).1 ≤ max capacity 4 := by
  obtain ⟨hfits, -⟩ := utf8Length_splitBytes capacity cs
  unfold splitPiece
  split
  · next c rest heq =>
    have hchar := c.utf8Size_le_four
    rw [utf8Length_cons, utf8Length_nil]
    omega
  · exact Nat.le_trans hfits (Nat.le_max_left capacity 4)

/-- Stepping back from the capacity ends behind the characters that fit. -/
theorem findGreatest_boundary (capacity : Nat) (cs : List Char) :
    Nat.findGreatest (fun n => (cutAt? n cs).isSome) capacity =
      utf8Length (splitBytes capacity cs).1 := by
  obtain ⟨hfits, hnext⟩ := utf8Length_splitBytes capacity cs
  have happ := splitBytes_append capacity cs
  refine Nat.findGreatest_eq_iff.2 ⟨hfits, fun _ => ?_, fun n hlt hle hsome => ?_⟩
  · rw [cutAt?_eq_some_iff.2 ⟨happ, rfl⟩]
    rfl
  · -- a boundary behind these characters is behind the one that does not fit
    obtain ⟨⟨a, b⟩, hcut⟩ := Option.isSome_iff_exists.1 hsome
    obtain ⟨hab, hlen⟩ := cutAt?_eq_some_iff.1 hcut
    rcases List.append_eq_append_iff.1 (hab.trans happ.symm) with
      ⟨more, hfront, -⟩ | ⟨more, ha, hrest⟩
    · rw [hfront, utf8Length_append] at hlt
      omega
    · cases more with
      | nil =>
        rw [ha, List.append_nil] at hlen
        omega
      | cons c more =>
        have := hnext c (more ++ b) hrest
        rw [ha, utf8Length_append, utf8Length_cons] at hlen
        omega

/-- **The piece of a stored text ends at a boundary**, so cutting it off goes through. -/
theorem cutAt?_chunkBoundary (capacity : Nat) (cs : List Char) :
    cutAt? (chunkBoundary capacity cs) cs = some (splitPiece capacity cs) := by
  have hgreatest := findGreatest_boundary capacity cs
  obtain ⟨hfits, hnext⟩ := utf8Length_splitBytes capacity cs
  have happ := splitBytes_append capacity cs
  unfold chunkBoundary splitPiece
  generalize splitBytes capacity cs = r at hgreatest hfits hnext happ ⊢
  obtain ⟨front, rest⟩ := r
  dsimp only at hgreatest hfits hnext happ ⊢
  rw [hgreatest, cutAt?_eq_some_iff]
  subst happ
  cases front with
  | nil =>
    cases rest with
    | nil => exact ⟨rfl, rfl⟩
    | cons c rest =>
      -- not even the first character fits
      have hlarge : ¬ utf8Length ([] ++ c :: rest) ≤ capacity := by
        have := hnext c rest rfl
        rw [utf8Length_nil] at this
        rw [List.nil_append, utf8Length_cons]
        omega
      rw [if_neg hlarge]
      exact ⟨rfl, rfl⟩
  | cons c front =>
    have hpos := c.utf8Size_pos
    refine ⟨rfl, ?_⟩
    show utf8Length (c :: front) = _
    by_cases hall : utf8Length (c :: front ++ rest) ≤ capacity
    · rw [if_pos hall]
      -- all characters fit, and none is left over
      cases rest with
      | nil => rw [List.append_nil]
      | cons d rest =>
        have := hnext d rest rfl
        rw [utf8Length_append, utf8Length_cons d] at hall
        omega
    · rw [if_neg hall]
      cases hlen : utf8Length (c :: front) with
      | zero =>
        rw [utf8Length_cons] at hlen
        omega
      | succ n => rfl

end Switchboard
