import Switchboard.Crc32
import Switchboard.Text.Cut
import Switchboard.Text.Numeral
import Switchboard.Text.Utf8

/-!
# Datagrams of the admin console

Every datagram is a two-byte signature, a four-byte checksum, and a payload of marker, packet kind
and body. The checksum is the CRC-32 of the payload, written in eight digits to base 16 and read
back two digits at a time from the end. All the digits are there, and what is read back are the
bytes of the CRC-32, least significant first (`checksum?_eq`).
-/

namespace Switchboard.Admin

/-- The kind of a packet. -/
inductive PacketKind where
  | login
  | command
  | serverMessage
  deriving DecidableEq, Repr

/-- The byte of a packet kind. -/
def PacketKind.toByte : PacketKind → UInt8
  | login => 0
  | command => 1
  | serverMessage => 2

/-- The packet kind of a byte. -/
def PacketKind.ofByte? (b : UInt8) : Option PacketKind :=
  if b = 0 then some login
  else if b = 1 then some command
  else if b = 2 then some serverMessage
  else none

/-- The two bytes that every datagram starts with. -/
def signature : List UInt8 := [0x42, 0x45]

/-- The byte that every payload starts with. -/
def payloadMarker : UInt8 := 0xFF

/-- Bytes of signature, checksum, marker and kind together. -/
def headerLength : Nat := 8

/-- The longest datagram that the network carries. -/
def maxDatagram : Nat := 65507

/-- The byte that two digits of a numeral spell, from a place on. There is none when the numeral has
no two characters there; what spells no byte counts as zero. -/
def digitPair? (numeral : List Char) (place : Nat) : Option UInt8 :=
  (Text.slice? place (place + 2) numeral).map fun pair =>
    .ofNat ((Text.numeral? 16 256 pair).getD 0)

/-- The checksum of a payload: its CRC-32 in eight digits to base 16, read back two digits at a time
from the end. There is none if a digit is missing. -/
def checksum? (payload : List UInt8) : Option (List UInt8) :=
  [6, 4, 2, 0].mapM (digitPair? (Text.hexNumeral 8 (Crc32.ofBytes payload).toNat))

theorem utf8Length_hexNumeral (b : UInt8) : Text.utf8Length (Text.hexNumeral 2 b.toNat) = 2 := by
  have hall : ∀ n < 256, Text.utf8Length (Text.hexNumeral 2 n) = 2 := by decide +kernel
  exact hall _ b.toNat_lt

/-- The digits of a byte are found where they stand. -/
theorem digitPair?_append (front back : List Char) (b : UInt8) :
    digitPair? (front ++ (Text.hexNumeral 2 b.toNat ++ back)) (Text.utf8Length front) = some b := by
  have hslice := Text.slice?_append front (Text.hexNumeral 2 b.toNat) back
  rw [utf8Length_hexNumeral] at hslice
  rw [digitPair?, hslice, Option.map_some, Text.numeral?_hexNumeral _ b.toNat_lt, Option.getD_some,
    UInt8.ofNat_toNat]

/-- The digits of a word are those of its bytes one after the other, the most significant first. -/
theorem hexNumeral_of_littleEndian {w : UInt32} {c₀ c₁ c₂ c₃ : UInt8}
    (h : Crc32.littleEndian w = [c₀, c₁, c₂, c₃]) :
    Text.hexNumeral 8 w.toNat = Text.hexNumeral 2 c₃.toNat ++ (Text.hexNumeral 2 c₂.toNat ++
      (Text.hexNumeral 2 c₁.toNat ++ Text.hexNumeral 2 c₀.toNat)) := by
  have hword := Crc32.littleEndian_eq_iff.1 h
  have h₀ := c₀.toNat_lt
  have h₁ := c₁.toNat_lt
  have h₂ := c₂.toNat_lt
  -- two digits come off the end for each byte
  rw [Text.hexNumeral_add_two (by decide), Text.hexNumeral_add_two (by decide),
    Text.hexNumeral_add_two (by decide), List.append_assoc, List.append_assoc]
  congr <;> omega

/-- **No digit is missing, and the bytes are those of the CRC-32**, least significant first. -/
theorem checksum?_eq (payload : List UInt8) :
    checksum? payload = some (Crc32.littleEndian (Crc32.ofBytes payload)) := by
  unfold checksum?
  generalize Crc32.ofBytes payload = w
  obtain ⟨c₀, c₁, c₂, c₃, hbytes⟩ : ∃ c₀ c₁ c₂ c₃, Crc32.littleEndian w = [c₀, c₁, c₂, c₃] :=
    ⟨_, _, _, _, rfl⟩
  have hnumeral := hexNumeral_of_littleEndian hbytes
  have hpair₃ := digitPair?_append [] (Text.hexNumeral 2 c₂.toNat ++
    (Text.hexNumeral 2 c₁.toNat ++ Text.hexNumeral 2 c₀.toNat)) c₃
  have hpair₂ := digitPair?_append (Text.hexNumeral 2 c₃.toNat)
    (Text.hexNumeral 2 c₁.toNat ++ Text.hexNumeral 2 c₀.toNat) c₂
  have hpair₁ := digitPair?_append (Text.hexNumeral 2 c₃.toNat ++ Text.hexNumeral 2 c₂.toNat)
    (Text.hexNumeral 2 c₀.toNat) c₁
  have hpair₀ := digitPair?_append (Text.hexNumeral 2 c₃.toNat ++
    (Text.hexNumeral 2 c₂.toNat ++ Text.hexNumeral 2 c₁.toNat)) [] c₀
  simp only [List.nil_append, List.append_nil, List.append_assoc, Text.utf8Length_append,
    Text.utf8Length_nil, utf8Length_hexNumeral, ← hnumeral, Nat.reduceAdd]
    at hpair₃ hpair₂ hpair₁ hpair₀
  simp [List.mapM_cons, hbytes, hpair₃, hpair₂, hpair₁, hpair₀]

/-- The checksum of a payload. -/
def checksum (payload : List UInt8) : List UInt8 :=
  (checksum? payload).get (by rw [checksum?_eq]; rfl)

theorem checksum_eq (payload : List UInt8) :
    checksum payload = Crc32.littleEndian (Crc32.ofBytes payload) :=
  Option.get_of_eq_some _ (checksum?_eq payload)

/-- The datagram of a kind and a body. -/
def frame (kind : PacketKind) (body : List UInt8) : List UInt8 :=
  let payload := payloadMarker :: kind.toByte :: body
  signature ++ checksum payload ++ payload

/-! ## Fields by position -/

@[simp] theorem length_checksum (payload : List UInt8) : (checksum payload).length = 4 := by
  rw [checksum_eq]
  rfl

theorem ofByte?_toByte (kind : PacketKind) : PacketKind.ofByte? kind.toByte = some kind := by
  cases kind <;> rfl

theorem toByte_of_ofByte? {b : UInt8} {kind : PacketKind} (h : PacketKind.ofByte? b = some kind) :
    kind.toByte = b := by
  unfold PacketKind.ofByte? at h
  split at h
  · next hb => cases h; exact hb.symm
  split at h
  · next hb => cases h; exact hb.symm
  split at h
  · next hb => cases h; exact hb.symm
  · cases h

theorem length_frame (kind : PacketKind) (body : List UInt8) :
    (frame kind body).length = headerLength + body.length := by
  simp [frame, signature, headerLength]
  omega

end Switchboard.Admin
