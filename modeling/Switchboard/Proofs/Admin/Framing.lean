import Switchboard.Admin.Packet

/-!
# Datagrams read back

A framed body passes every test of the header, so reading the datagram is reading the body
(`decode_frame`). The other way round, a datagram that is read as a packet has passed all of them,
so it is a frame:

* **`eq_frame_iff`**: the bytes of a frame, one by one. The four bytes of the checksum, read back
  from a numeral to base 16, are the digits to base 256 of the CRC-32, the lowest first, and no
  other four bytes are.
* **`Conveys`**: what the body of a packet of some kind says, apart from how it is read.
* **`decode_exact`**: the datagrams that are read as packets are the frames whose bodies convey
  them, and every packet for the console is framed, no two in the same way.
-/

namespace Switchboard.Admin

variable {kind : PacketKind} {body datagram : List UInt8} {packet : ServerPacket}

/-! ## The bytes of a frame -/

theorem exists_checksum_eq (payload : List UInt8) :
    ∃ c₀ c₁ c₂ c₃, checksum payload = [c₀, c₁, c₂, c₃] :=
  ⟨_, _, _, _, checksum_eq payload⟩

theorem checksum_eq_iff {payload : List UInt8} {c₀ c₁ c₂ c₃ : UInt8} :
    checksum payload = [c₀, c₁, c₂, c₃] ↔ (Crc32.ofBytes payload).toNat =
      c₀.toNat + 256 * (c₁.toNat + 256 * (c₂.toNat + 256 * c₃.toNat)) := by
  rw [checksum_eq, Crc32.littleEndian_eq_iff]

theorem frame_eq_cons (kind : PacketKind) (body : List UInt8) {c₀ c₁ c₂ c₃ : UInt8}
    (hsum : checksum (payloadMarker :: kind.toByte :: body) = [c₀, c₁, c₂, c₃]) :
    frame kind body =
      0x42 :: 0x45 :: c₀ :: c₁ :: c₂ :: c₃ :: payloadMarker :: kind.toByte :: body := by
  simp only [frame, hsum]
  rfl

/-- **The bytes of a frame**: signature, CRC-32 of all that follows it, marker, kind and body. -/
theorem eq_frame_iff :
    datagram = frame kind body ↔ ∃ c₀ c₁ c₂ c₃ : UInt8,
      datagram = 0x42 :: 0x45 :: c₀ :: c₁ :: c₂ :: c₃ :: 0xFF :: kind.toByte :: body ∧
      (Crc32.ofBytes (0xFF :: kind.toByte :: body)).toNat =
        c₀.toNat + 256 * (c₁.toNat + 256 * (c₂.toNat + 256 * c₃.toNat)) := by
  constructor
  · rintro rfl
    obtain ⟨c₀, c₁, c₂, c₃, hsum⟩ := exists_checksum_eq (payloadMarker :: kind.toByte :: body)
    exact ⟨c₀, c₁, c₂, c₃, frame_eq_cons kind body hsum, checksum_eq_iff.1 hsum⟩
  · rintro ⟨c₀, c₁, c₂, c₃, rfl, hcrc⟩
    have hsum : checksum (payloadMarker :: kind.toByte :: body) = [c₀, c₁, c₂, c₃] :=
      checksum_eq_iff.2 hcrc
    exact (frame_eq_cons kind body hsum).symm

theorem drop_frame (kind : PacketKind) (body : List UInt8) :
    (frame kind body).drop headerLength = body := by
  obtain ⟨c₀, c₁, c₂, c₃, hsum⟩ := exists_checksum_eq (payloadMarker :: kind.toByte :: body)
  rw [frame_eq_cons kind body hsum]
  rfl

theorem getElem?_frame_kind (kind : PacketKind) (body : List UInt8) :
    (frame kind body)[7]? = some kind.toByte := by
  obtain ⟨c₀, c₁, c₂, c₃, hsum⟩ := exists_checksum_eq (payloadMarker :: kind.toByte :: body)
  rw [frame_eq_cons kind body hsum]
  rfl

theorem toByte_injective : Function.Injective PacketKind.toByte := by
  intro k k' h
  have hk := ofByte?_toByte k
  rw [h, ofByte?_toByte k'] at hk
  exact (Option.some.inj hk).symm

/-- A frame determines what was framed. -/
theorem frame_inj {kind' : PacketKind} {body' : List UInt8} :
    frame kind body = frame kind' body' ↔ kind = kind' ∧ body = body' := by
  constructor
  · intro h
    have hkind := getElem?_frame_kind kind body
    have hbody := drop_frame kind body
    rw [h, getElem?_frame_kind] at hkind
    rw [h, drop_frame] at hbody
    exact ⟨toByte_injective (Option.some.inj hkind).symm, hbody.symm⟩
  · rintro ⟨rfl, rfl⟩
    rfl

/-! ## Bodies -/

/-- What a body conveys. A command's answer with a zero byte in front and room for the header of a
part is a part; every other answer stands for itself. -/
inductive Conveys : PacketKind → List UInt8 → ServerPacket → Prop where
  | loginResponse (status : UInt8) (rest : List UInt8) :
      Conveys .login (status :: rest) (.loginResponse (status = 1))
  | serverMessage (sequence : UInt8) (message : List UInt8) :
      Conveys .serverMessage (sequence :: message) (.serverMessage sequence message)
  | part (sequence : UInt8) {total index : UInt8} (data : List UInt8) (hplace : index < total) :
      Conveys .command (sequence :: 0 :: total :: index :: data)
        (.commandResponse sequence (some ⟨total, index⟩) data)
  | plain (sequence : UInt8) {rest : List UInt8} (hplain : rest.length < 3 ∨ rest.head? ≠ some 0) :
      Conveys .command (sequence :: rest) (.commandResponse sequence none rest)

namespace ServerPacket

theorem readResponse_of_plain {sequence : UInt8} {rest : List UInt8}
    (hplain : rest.length < 3 ∨ rest.head? ≠ some 0) :
    readResponse sequence rest = .ok (.commandResponse sequence none rest) := by
  unfold readResponse
  split
  · next total index data =>
    -- three bytes, the first of them zero: this is what is excluded
    rcases hplain with hshort | hhead
    · simp only [List.length_cons] at hshort
      omega
    · exact absurd rfl hhead
  · rfl

theorem conveys_of_readResponse {sequence : UInt8} {rest : List UInt8}
    (h : readResponse sequence rest = .ok packet) : Conveys .command (sequence :: rest) packet := by
  unfold readResponse at h
  split at h
  · next total index data =>
    split at h
    · cases h
    · next hplace =>
      cases h
      exact .part sequence data (UInt8.not_le.1 fun hle => hplace (Or.inr hle))
  · next hnot =>
    cases h
    apply Conveys.plain
    by_cases hshort : rest.length < 3
    · exact Or.inl hshort
    · right
      intro hhead
      -- long enough and with a zero in front, so the header of a part is there
      match rest, hshort, hhead, hnot with
      | first :: total :: index :: data, _, hhead, hnot =>
        cases Option.some.inj hhead
        exact hnot total index data rfl
      | [], hshort, _, _ => simp at hshort
      | [_], hshort, _, _ => simp at hshort
      | [_, _], hshort, _, _ => simp at hshort

/-- **Reading a body finds out what it conveys.** -/
theorem readBody_eq_ok_iff : readBody kind body = .ok packet ↔ Conveys kind body packet := by
  constructor
  · intro h
    cases body with
    | nil => cases kind <;> cases h
    | cons first rest =>
      cases kind with
      | login =>
        cases h
        exact .loginResponse first rest
      | command => exact conveys_of_readResponse h
      | serverMessage =>
        cases h
        exact .serverMessage first rest
  · intro h
    cases h with
    | loginResponse status rest => rfl
    | serverMessage sequence message => rfl
    | @part sequence total index data hplace =>
      have hheader : ¬ (total = 0 ∨ total ≤ index) := by
        rintro (rfl | hle)
        · exact UInt8.not_lt_zero hplace
        · exact UInt8.not_le.2 hplace hle
      show readResponse sequence (0 :: total :: index :: data) = _
      rw [readResponse, if_neg hheader]
    | plain sequence hplain => exact readResponse_of_plain hplain

/-! ## Datagrams -/

theorem decode_frame (kind : PacketKind) (body : List UInt8) :
    decode (frame kind body) = readBody kind body := by
  obtain ⟨c₀, c₁, c₂, c₃, hsum⟩ := exists_checksum_eq (payloadMarker :: kind.toByte :: body)
  rw [frame_eq_cons kind body hsum, decode, if_neg (fun h => h rfl), if_neg (fun h => h rfl)]
  dsimp only
  rw [hsum, if_neg (fun h => h rfl), ofByte?_toByte]

/-- What is read as a packet is a frame: each test of the header that it passed fixes some of its
bytes. -/
theorem exists_frame_of_decode (h : decode datagram = .ok packet) :
    ∃ kind body, datagram = frame kind body ∧ readBody kind body = .ok packet := by
  unfold decode at h
  split at h
  · next s₀ s₁ c₀ c₁ c₂ c₃ marker byte body =>
    split at h
    · cases h
    · next hsignature =>
      split at h
      · cases h
      · next hmarker =>
        dsimp only at h
        split at h
        · cases h
        · next hsum =>
          split at h
          · next kind hkind =>
            obtain ⟨rfl, rfl⟩ : s₀ = 0x42 ∧ s₁ = 0x45 := by
              simpa [signature] using Decidable.not_not.1 hsignature
            obtain rfl : marker = payloadMarker := Decidable.not_not.1 hmarker
            obtain rfl : kind.toByte = byte := toByte_of_ofByte? hkind
            exact ⟨kind, body, (frame_eq_cons kind body (Decidable.not_not.1 hsum)).symm, h⟩
          · cases h
  · cases h

end ServerPacket

theorem encode_eq_frame (packet : ClientPacket) : ∃ kind body, packet.encode = frame kind body := by
  cases packet <;> exact ⟨_, _, rfl⟩

theorem encode_text_injective {s t : String} (h : Text.Utf8.encode s = Text.Utf8.encode t) :
    s = t := by
  rw [← Text.Utf8.decodeLossy_encode s, h, Text.Utf8.decodeLossy_encode]

theorem encode_injective : Function.Injective ClientPacket.encode := by
  intro p q h
  -- the kind tells the three forms apart, and then the body gives back the fields
  cases p with
  | login password =>
    cases q with
    | login password' => rw [encode_text_injective (frame_inj.1 h).2]
    | command sequence text => cases (frame_inj.1 h).1
    | acknowledge sequence => cases (frame_inj.1 h).1
  | command sequence text =>
    cases q with
    | login password => cases (frame_inj.1 h).1
    | command sequence' text' =>
      obtain ⟨rfl, htext⟩ := List.cons.inj (frame_inj.1 h).2
      rw [encode_text_injective htext]
    | acknowledge sequence' => cases (frame_inj.1 h).1
  | acknowledge sequence =>
    cases q with
    | login password => cases (frame_inj.1 h).1
    | command sequence' text => cases (frame_inj.1 h).1
    | acknowledge sequence' =>
      obtain ⟨rfl, -⟩ := List.cons.inj (frame_inj.1 h).2
      rfl

/-! ## The theorem -/

/-- **Exactly the frames are read.** A datagram is read as a packet just when it is the frame of a
body that conveys the packet; it is then the frame of its own eighth byte and of what follows it.
No digit is missing when a checksum is read back from its numeral, and it comes out as the bytes of
the CRC-32, least significant first. So a frame is the signature, the four digits to base 256 of the
CRC-32 of the payload, the lowest first, and the payload of marker, kind and body. Every packet for
the console is sent as a frame, and different packets as different ones. -/
theorem decode_exact :
    (∀ datagram packet, ServerPacket.decode datagram = .ok packet ↔
      ∃ kind body, datagram = frame kind body ∧ Conveys kind body packet) ∧
    (∀ datagram packet, ServerPacket.decode datagram = .ok packet →
      ∃ kind : PacketKind, datagram[7]? = some kind.toByte ∧
        datagram = frame kind (datagram.drop headerLength)) ∧
    (∀ payload, checksum? payload = some (Crc32.littleEndian (Crc32.ofBytes payload))) ∧
    (∀ datagram kind body, datagram = frame kind body ↔ ∃ c₀ c₁ c₂ c₃ : UInt8,
      datagram = 0x42 :: 0x45 :: c₀ :: c₁ :: c₂ :: c₃ :: 0xFF :: kind.toByte :: body ∧
      (Crc32.ofBytes (0xFF :: kind.toByte :: body)).toNat =
        c₀.toNat + 256 * (c₁.toNat + 256 * (c₂.toNat + 256 * c₃.toNat))) ∧
    (∀ packet : ClientPacket, ∃ kind body, packet.encode = frame kind body) ∧
    Function.Injective ClientPacket.encode := by
  refine ⟨fun datagram packet => ?_, fun datagram packet h => ?_, checksum?_eq,
    fun _ _ _ => eq_frame_iff, encode_eq_frame, encode_injective⟩
  · constructor
    · intro h
      obtain ⟨kind, body, hframe, hread⟩ := ServerPacket.exists_frame_of_decode h
      exact ⟨kind, body, hframe, ServerPacket.readBody_eq_ok_iff.1 hread⟩
    · rintro ⟨kind, body, rfl, hconveys⟩
      rw [ServerPacket.decode_frame]
      exact ServerPacket.readBody_eq_ok_iff.2 hconveys
  · obtain ⟨kind, body, rfl, -⟩ := ServerPacket.exists_frame_of_decode h
    refine ⟨kind, getElem?_frame_kind kind body, ?_⟩
    rw [drop_frame]

/-- The second of three parts of the answer to the command with number 7. -/
def secondPart : List UInt8 :=
  [0x42, 0x45, 0x5f, 0x35, 0xa9, 0xf5, 0xff, 0x01, 0x07, 0x00, 0x03, 0x01, 0x42]

theorem decode_exact_of_part :
    ServerPacket.decode secondPart = .ok (.commandResponse 7 (some ⟨3, 1⟩) [0x42]) ∧
    ∃ kind : PacketKind, secondPart[7]? = some kind.toByte ∧
      secondPart = frame kind (secondPart.drop headerLength) := by
  have hframe : secondPart = frame .command [7, 0, 3, 1, 0x42] := by decide +kernel
  have hread : ServerPacket.decode secondPart = .ok (.commandResponse 7 (some ⟨3, 1⟩) [0x42]) := by
    rw [hframe, ServerPacket.decode_frame]
    rfl
  exact ⟨hread, decode_exact.2.1 secondPart _ hread⟩

end Switchboard.Admin
