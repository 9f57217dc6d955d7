import Switchboard.Admin.Link
import Switchboard.Proofs.Admin.Framing
import Switchboard.Proofs.Crc32

/-!
# Corrupted datagrams

A datagram passes the tests of its header if its first six bytes are the signature and the checksum
of the others (`Sealed`), and its payload starts with the marker. Of two datagrams that differ in
the first six bytes only, not both are sealed, because the payload fixes the seal. Of two that
differ within four consecutive bytes of the payload only, not both are sealed either, because the
CRC-32 tells such a burst. So a corrupted datagram is found out by its header, whatever its payload
says, and the link goes on as if nothing had come.
-/

namespace Switchboard.Admin

variable {d d' : List UInt8}

/-- The first six bytes are the signature and the checksum of what follows. -/
def Sealed (d : List UInt8) : Prop :=
  d.take 6 = signature ++ checksum (d.drop 6)

/-- The header is at fault, and not what the payload says. -/
def Defect.InHeader : Defect → Prop
  | badSignature | badMarker _ | checksumMismatch _ _ => True
  | tooShort _ | emptyLogin | missingSequence | badPart _ | unknownKind _ => False

theorem littleEndian_injective : Function.Injective Crc32.littleEndian := by
  intro w w' h
  obtain ⟨c₀, c₁, c₂, c₃, hbytes⟩ : ∃ c₀ c₁ c₂ c₃, Crc32.littleEndian w' = [c₀, c₁, c₂, c₃] :=
    ⟨_, _, _, _, rfl⟩
  rw [← UInt32.toNat_inj, Crc32.littleEndian_eq_iff.1 (h.trans hbytes),
    Crc32.littleEndian_eq_iff.1 hbytes]

theorem sealed_frame (kind : PacketKind) (body : List UInt8) : Sealed (frame kind body) := by
  have hlength : (signature ++ checksum (payloadMarker :: kind.toByte :: body)).length = 6 := by
    rw [List.length_append, length_checksum]
    rfl
  unfold Sealed frame
  dsimp only
  rw [List.take_left' hlength, List.drop_left' hlength]

/-- A datagram that is long enough and not sealed is refused for its header. -/
theorem decode_of_not_sealed (hlong : headerLength ≤ d.length) (hsealed : ¬ Sealed d) :
    ∃ defect, ServerPacket.decode d = .error defect ∧ defect.InHeader := by
  match d, hlong, hsealed with
  | s₀ :: s₁ :: c₀ :: c₁ :: c₂ :: c₃ :: marker :: kind :: body, _, hsealed =>
    unfold ServerPacket.decode
    dsimp only
    by_cases hsignature : [s₀, s₁] ≠ signature
    · exact ⟨_, if_pos hsignature, trivial⟩
    rw [if_neg hsignature]
    by_cases hmarker : marker ≠ payloadMarker
    · exact ⟨_, if_pos hmarker, trivial⟩
    rw [if_neg hmarker]
    refine ⟨_, if_pos fun hsum => hsealed ?_, trivial⟩
    -- with the right signature and the right checksum it would be sealed
    show [s₀, s₁] ++ [c₀, c₁, c₂, c₃] = _
    rw [Decidable.not_not.1 hsignature, ← hsum]
    rfl
  | [], hlong, _ | [_], hlong, _ | [_, _], hlong, _ | [_, _, _], hlong, _
  | [_, _, _, _], hlong, _ | [_, _, _, _, _], hlong, _ | [_, _, _, _, _, _], hlong, _
  | [_, _, _, _, _, _, _], hlong, _ => simp [headerLength] at hlong

/-! ## Where the corruption is -/

/-- The signature and the checksum are all that was corrupted. -/
def SealCorrupted (d d' : List UInt8) : Prop :=
  ∀ i, 6 ≤ i → d'[i]? = d[i]?

/-- At most four consecutive bytes of the payload are all that was corrupted. -/
def BurstCorrupted (d d' : List UInt8) : Prop :=
  ∃ k, 6 ≤ k ∧ ∀ i, d'[i]? ≠ d[i]? → k ≤ i ∧ i < k + 4

theorem take_eq_of_getElem? {n : Nat} (h : ∀ i, i < n → d'[i]? = d[i]?) :
    d'.take n = d.take n := by
  apply List.ext_getElem?
  intro i
  rw [List.getElem?_take, List.getElem?_take]
  split
  · next hi => exact h i hi
  · rfl

theorem drop_eq_of_getElem? {n : Nat} (h : ∀ i, n ≤ i → d'[i]? = d[i]?) :
    d'.drop n = d.drop n := by
  apply List.ext_getElem?
  intro i
  rw [List.getElem?_drop, List.getElem?_drop]
  exact h (n + i) (by omega)

theorem SealCorrupted.eq_of_sealed (h : SealCorrupted d d') (hd : Sealed d) (hd' : Sealed d') :
    d' = d := by
  have hpayload : d'.drop 6 = d.drop 6 := drop_eq_of_getElem? h
  rw [← List.take_append_drop 6 d', ← List.take_append_drop 6 d, hd, hd', hpayload]

theorem BurstCorrupted.eq_of_sealed (h : BurstCorrupted d d') (hlen : d'.length = d.length)
    (hd : Sealed d) (hd' : Sealed d') : d' = d := by
  obtain ⟨k, hk, hburst⟩ := h
  have houtside (i : Nat) (hi : i < k ∨ k + 4 ≤ i) : d'[i]? = d[i]? := by
    by_contra hne
    have hinside := hburst i hne
    omega
  have hfront : d'.take k = d.take k := take_eq_of_getElem? fun i hi => houtside i (Or.inl hi)
  have hback : d'.drop (k + 4) = d.drop (k + 4) :=
    drop_eq_of_getElem? fun i hi => houtside i (Or.inr hi)
  have hseal : d'.take 6 = d.take 6 := by
    have hmin : min 6 k = 6 := by omega
    have hprefix := congrArg (List.take 6) hfront
    rwa [List.take_take, List.take_take, hmin] at hprefix
  -- with the seal, the CRC-32 of the payload is the same
  have hcrc : Crc32.ofBytes (d'.drop 6) = Crc32.ofBytes (d.drop 6) := by
    rw [hd, hd', checksum_eq, checksum_eq] at hseal
    exact littleEndian_injective (List.append_cancel_left hseal)
  have hsplit (p : List UInt8) :
      p.drop 6 = (p.take k).drop 6 ++ (p.drop k).take 4 ++ p.drop (k + 4) := by
    have hmiddle : (p.take k).drop 6 ++ p.drop k = p.drop 6 := by
      rw [List.drop_take, show p.drop k = (p.drop 6).drop (k - 6) by
        rw [List.drop_drop, Nat.add_sub_cancel' hk], List.take_append_drop]
    rw [List.append_assoc, ← List.drop_drop, List.take_append_drop, hmiddle]
  have hlength : ((d'.drop k).take 4).length = ((d.drop k).take 4).length := by
    simp only [List.length_take, List.length_drop, hlen]
  rw [hsplit d', hsplit d, hfront, hback] at hcrc
  have hmiddle := Crc32.eq_of_ofBytes_eq hlength (List.length_take_le ..) hcrc
  have hpayload : d'.drop 6 = d.drop 6 := by
    rw [hsplit d', hsplit d, hfront, hmiddle, hback]
  rw [← List.take_append_drop 6 d', ← List.take_append_drop 6 d, hseal, hpayload]

/-! ## The theorem -/

/-- **Corrupted datagrams are dropped.** Take a datagram that is read as a packet, and another one
of the same length that differs from it in the first six bytes only, or within at most four
consecutive bytes from the seventh on only. The other one is refused for its signature, its marker
or its checksum, and a link that receives it sends nothing, tells nobody and stays as it was. -/
theorem corrupted_datagram_dropped {packet : ServerPacket}
    (hread : ServerPacket.decode d = .ok packet) (hlen : d'.length = d.length) (hne : d' ≠ d)
    (hcorrupted : SealCorrupted d d' ∨ BurstCorrupted d d') :
    (∃ defect, ServerPacket.decode d' = .error defect ∧ defect.InHeader) ∧
      ∀ (acknowledges : Bool) (now : Nat) (l : Link), l.handle d' acknowledges now = ([], l) := by
  obtain ⟨kind, body, rfl, -⟩ := ServerPacket.exists_frame_of_decode hread
  have hsealed : ¬ Sealed d' := by
    intro hd'
    apply hne
    rcases hcorrupted with hseal | hburst
    · exact hseal.eq_of_sealed (sealed_frame kind body) hd'
    · exact hburst.eq_of_sealed hlen (sealed_frame kind body) hd'
  have hlong : headerLength ≤ d'.length := by
    rw [hlen, length_frame]
    omega
  obtain ⟨defect, hdecode, hheader⟩ := decode_of_not_sealed hlong hsealed
  refine ⟨⟨defect, hdecode, hheader⟩, fun acknowledges now l => ?_⟩
  rw [Link.handle, hdecode]

/-- The second of three parts, with its place and its byte corrupted so that it reads as the
third. -/
def corruptedPart : List UInt8 :=
  [0x42, 0x45, 0x5f, 0x35, 0xa9, 0xf5, 0xff, 0x01, 0x07, 0x00, 0x03, 0x02, 0x43]

theorem corrupted_datagram_dropped_at_end :
    ServerPacket.decode secondPart = .ok (.commandResponse 7 (some ⟨3, 1⟩) [0x42]) ∧
    BurstCorrupted secondPart corruptedPart ∧
    ∃ defect, ServerPacket.decode corruptedPart = .error defect ∧ defect.InHeader := by
  have hread : ServerPacket.decode secondPart = .ok (.commandResponse 7 (some ⟨3, 1⟩) [0x42]) := by
    have hframe : secondPart = frame .command [7, 0, 3, 1, 0x42] := by decide +kernel
    rw [hframe, ServerPacket.decode_frame]
    rfl
  have hburst : BurstCorrupted secondPart corruptedPart := by
    refine ⟨11, by decide, fun i hi => ?_⟩
    by_contra hout
    apply hi
    rcases Nat.lt_or_ge i 11 with hbefore | hafter
    · exact (show ∀ j < 11, corruptedPart[j]? = secondPart[j]? by decide) i hbefore
    · -- there is nothing behind the last byte
      rw [List.getElem?_eq_none (by show 13 ≤ i; omega),
        List.getElem?_eq_none (by show 13 ≤ i; omega)]
  have hlen : corruptedPart.length = secondPart.length := rfl
  have hne : corruptedPart ≠ secondPart := by decide
  exact ⟨hread, hburst, (corrupted_datagram_dropped hread hlen hne (Or.inr hburst)).1⟩

end Switchboard.Admin
