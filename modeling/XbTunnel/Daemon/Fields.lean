import XbTunnel.Daemon.Datagram
import XbTunnel.Daemon.Transmit

/-! The length and checksum fields of the frames `AsTransmittablePcap` returns, at the sizes and
payloads where sixteen bits are not enough. -/

namespace XbTunnel.Daemon.Udp

open Common Lib.OnesComplement Lib.UdpFrame

def wordAt (b : Bytes) (i : ℕ) : ℕ := word (b.getD i 0) (b.getD (i + 1) 0)

lemma wordAt_append (a b : Bytes) (i : ℕ) : wordAt (a ++ b) (a.length + i) = wordAt b i := by
  have h (j : ℕ) : (a ++ b).getD (a.length + j) 0 = b.getD j 0 := by
    simp only [List.getD_eq_getElem?_getD,
      List.getElem?_append_right (Nat.le_add_right a.length j), Nat.add_sub_cancel_left]
  rw [wordAt, Nat.add_assoc, h, h, wordAt]

lemma wordAt_putUint16 (a b : Bytes) (v : UInt16) :
    wordAt (a ++ putUint16 v ++ b) a.length = v.toNat := by
  have h := wordAt_append a (putUint16 v ++ b) 0
  rw [Nat.add_zero, ← List.append_assoc] at h
  rw [h, ← word_putUint16]
  rfl

namespace UdpPacket

variable (r : UdpPacket) (i₀ i₁ : UInt8)

@[simp] lemma etherBytes_length : r.etherBytes.length = 14 := by
  simp [etherBytes]

def frame : Bytes := r.etherBytes ++ (r.ipHeader i₀ i₁ ++ r.udpSegment)

lemma asTransmittablePcap_frame : r.asTransmittablePcap [i₀, i₁] = .ok (r.frame i₀ i₁) :=
  r.asTransmittablePcap_eq i₀ i₁

@[simp] lemma frame_length : (r.frame i₀ i₁).length = 42 + r.payload.length := by
  simp only [frame, List.length_append, etherBytes_length, ipHeader_length, udpSegment_length]
  omega

lemma frame_ip (i : ℕ) (hi : i + 1 < 20) :
    wordAt (r.frame i₀ i₁) (14 + i) = wordAt (r.ipHeader i₀ i₁) i := by
  have h := wordAt_append r.etherBytes (r.ipHeader i₀ i₁ ++ r.udpSegment) i
  rw [etherBytes_length] at h
  have hg (j : ℕ) (hj : j < 20) :
      (r.ipHeader i₀ i₁ ++ r.udpSegment).getD j 0 = (r.ipHeader i₀ i₁).getD j 0 := by
    rw [List.getD_eq_getElem?_getD, List.getElem?_append_left (by simpa using hj),
      List.getD_eq_getElem?_getD]
  rw [frame, h, wordAt, hg i (by omega), hg (i + 1) hi, wordAt]

lemma frame_udp (i : ℕ) : wordAt (r.frame i₀ i₁) (34 + i) = wordAt r.udpSegment i := by
  have h := wordAt_append (r.etherBytes ++ r.ipHeader i₀ i₁) r.udpSegment i
  simpa only [frame, List.length_append, etherBytes_length, ipHeader_length, List.append_assoc]
    using h

lemma frame_totalLength :
    wordAt (r.frame i₀ i₁) 16 = (r.payload.length + 28) % 65536 := by
  have h : wordAt (r.ipHeader i₀ i₁) 2 = (UInt16.ofNat (r.payload.length + 8 + 20)).toNat := by
    rw [← word_putUint16]
    rfl
  rw [r.frame_ip i₀ i₁ 2 (by omega), h, UInt16.toNat_ofNat']

lemma frame_udpLength :
    wordAt (r.frame i₀ i₁) 38 = (r.payload.length + 8) % 65536 := by
  have h : wordAt r.udpSegment 4 = (UInt16.ofNat (r.payload.length + 8)).toNat := by
    rw [← word_putUint16]
    rfl
  rw [r.frame_udp i₀ i₁ 4, h, UInt16.toNat_ofNat']

lemma frame_checksum : wordAt (r.frame i₀ i₁) 40 = (oneAdd [r.udpPsuedoBuffer]).toNat := by
  rw [r.frame_udp i₀ i₁ 6]
  exact wordAt_putUint16 r.udpPrefix r.payload _

end UdpPacket

def LengthsMatch (frame : Bytes) : Prop :=
  wordAt frame 16 = frame.length - 14 ∧ wordAt frame 38 = frame.length - 34

lemma UdpPacket.frame_lengthsMatch (r : UdpPacket) (i₀ i₁ : UInt8)
    (hr : r.payload.length ≤ 65523) :
    LengthsMatch (r.frame i₀ i₁) ↔ r.payload.length ≤ 65507 := by
  rw [LengthsMatch, r.frame_totalLength, r.frame_udpLength, r.frame_length]
  omega

theorem lengths_match_iff (d id : Bytes) (hd : d.length ≤ 65535) (hid : id.length = 2) :
    (∀ frame, (parseRemoteUdpPacket d).asTransmittablePcap id = .ok frame → LengthsMatch frame) ↔
      d.length ≤ 65519 := by
  obtain ⟨i₀, i₁, rfl⟩ := List.length_eq_two.mp hid
  have hp := parse_payload_length d
  have hm := (parseRemoteUdpPacket d).frame_lengthsMatch i₀ i₁ (by omega)
  have hiff : (parseRemoteUdpPacket d).payload.length ≤ 65507 ↔ d.length ≤ 65519 := by omega
  rw [← hiff, ← hm, UdpPacket.asTransmittablePcap_frame]
  constructor
  · intro h
    exact h _ rfl
  · intro h frame hf
    cases hf
    exact h

theorem lengths_match_sample :
    ∃ frame, (parseRemoteUdpPacket sampleDatagram).asTransmittablePcap [0x14, 0xc2] = .ok frame ∧
      LengthsMatch frame := by
  have hm := (lengths_match_iff sampleDatagram [0x14, 0xc2] (by decide) (by decide)).mpr (by decide)
  have hf := (parseRemoteUdpPacket sampleDatagram).asTransmittablePcap_frame 0x14 0xc2
  exact ⟨_, hf, hm _ hf⟩

def oversized : Bytes := List.replicate 65520 0

theorem oversized_wraps :
    oversized.length ≤ 65535 ∧
      ∃ frame, (parseRemoteUdpPacket oversized).asTransmittablePcap [0, 0] = .ok frame ∧
        ¬ LengthsMatch frame := by
  have hl : oversized.length = 65520 := List.length_replicate
  have hp := parse_payload_length oversized
  refine ⟨by omega, _, UdpPacket.asTransmittablePcap_frame _ 0 0, fun hm => ?_⟩
  have := (UdpPacket.frame_lengthsMatch _ 0 0 (by omega)).mp hm
  omega

def udpSum (r : UdpPacket) : ℕ :=
  6182 + (if r.dst = broadcast then 0 else 1) + 2 * r.payload.length + (words r.payload).sum

namespace UdpPacket

variable (r : UdpPacket)

lemma dstIp_words :
    (words r.dstIp).sum % 65535 = if r.dst = broadcast then 0 else 1 := by
  rw [dstIp]
  by_cases hb : r.dst = broadcast
  · rw [if_pos ((r.dst.isBroadcast_iff).mpr hb), if_pos hb]
    rfl
  · rw [if_neg (fun h => hb ((r.dst.isBroadcast_iff).mp h)), if_neg hb]
    rfl

lemma putUint16_words (n : ℕ) : (words (putUint16 (UInt16.ofNat n))).sum = n % 65536 := by
  rw [← UInt16.toNat_ofNat', ← word_putUint16]
  simp [words, putUint16]

lemma pseudoHeader_words (hr : r.payload.length ≤ 65507) :
    (words (pseudoHeader srcIp r.dstIp (8 + r.payload.length))).sum =
      (words r.dstIp).sum + 26 + r.payload.length := by
  have hn := putUint16_words (8 + r.payload.length)
  have hs : (words srcIp).sum = 1 := rfl
  have hp : (words [0, 17]).sum = 17 := rfl
  have he : pseudoHeader srcIp r.dstIp (8 + r.payload.length) =
      srcIp ++ (r.dstIp ++ ([0, 17] ++ putUint16 (UInt16.ofNat (8 + r.payload.length)))) := by
    rw [putUint16_ofNat, pseudoHeader]
    rfl
  rw [he, words_append _ rfl, words_append _ (by simp), words_append _ rfl]
  simp only [List.sum_append, hs, hp, hn]
  omega

lemma udpPrefix_words (hr : r.payload.length ≤ 65507) :
    (words r.udpPrefix).sum = 6156 + r.payload.length := by
  have hn := putUint16_words (r.payload.length + 8)
  have hp : (words [0x0c, 0x02, 0x0c, 0x02]).sum = 6148 := rfl
  rw [udpPrefix, words_append _ rfl, List.sum_append, hn, hp]
  omega

lemma udpPsuedoBuffer_words (hr : r.payload.length ≤ 65507) :
    (words r.udpPsuedoBuffer).sum =
      (words r.dstIp).sum + 6182 + 2 * r.payload.length + (words r.payload).sum := by
  have hz : words (0 :: 0 :: r.payload) = 0 :: words r.payload := rfl
  have hl : (pseudoHeader srcIp r.dstIp (8 + r.payload.length)).length = 12 := by
    simp [pseudoHeader]
  have hu : r.udpPrefix.length = 6 := rfl
  rw [udpPsuedoBuffer_eq, words_append _ (by rw [List.length_append, hl, hu]),
    words_append _ (by rw [hl])]
  simp only [List.sum_append, hz, List.sum_cons, r.pseudoHeader_words hr, r.udpPrefix_words hr]
  omega

lemma frame_checksum_zero (i₀ i₁ : UInt8) (hr : r.payload.length ≤ 65507) :
    wordAt (r.frame i₀ i₁) 40 = 0 ↔ udpSum r % 65535 = 0 := by
  have hl : r.udpPsuedoBuffer.length < 2 ^ 48 := by
    rw [udpPsuedoBuffer_eq]
    simp [pseudoHeader, udpPrefix, putUint16]
    omega
  have hw := r.udpPsuedoBuffer_words hr
  have hd := r.dstIp_words
  have hu : (words r.udpPsuedoBuffer).sum % 65535 = udpSum r % 65535 := by
    rw [hw, udpSum]
    omega
  have hs := residue_le (words r.udpPsuedoBuffer).sum
  have hm := residue_mod (words r.udpPsuedoBuffer).sum
  have hp := residue_pos (s := (words r.udpPsuedoBuffer).sum) (by omega)
  rw [r.frame_checksum, oneAdd_single _ hl]
  omega

end UdpPacket

theorem udp_checksum_nonzero_iff (r : UdpPacket) (id : Bytes) (hr : r.payload.length ≤ 65507)
    (hid : id.length = 2) :
    (∀ frame, r.asTransmittablePcap id = .ok frame → wordAt frame 40 ≠ 0) ↔
      udpSum r % 65535 ≠ 0 := by
  obtain ⟨i₀, i₁, rfl⟩ := List.length_eq_two.mp hid
  rw [UdpPacket.asTransmittablePcap_frame, ne_eq, ← r.frame_checksum_zero i₀ i₁ hr]
  constructor
  · intro h
    exact h _ rfl
  · intro h frame hf
    cases hf
    exact h

theorem udp_checksum_nonzero_sample :
    ∃ frame, samplePacket.asTransmittablePcap [0x14, 0xc2] = .ok frame ∧ wordAt frame 40 ≠ 0 := by
  have hn :=
    (udp_checksum_nonzero_iff samplePacket [0x14, 0xc2] (by decide) (by decide)).mpr (by decide)
  have hf := samplePacket.asTransmittablePcap_frame 0x14 0xc2
  exact ⟨_, hf, hn _ hf⟩

def cancelling : UdpPacket := ⟨[0xE7, 0xD4], newXbox [0x00, 0x1d], newXbox [0x00, 0x22]⟩

theorem cancelling_checksum_zero :
    cancelling.payload.length ≤ 65507 ∧
      ∃ frame, cancelling.asTransmittablePcap [0, 0] = .ok frame ∧ wordAt frame 40 = 0 :=
  ⟨by decide, _, UdpPacket.asTransmittablePcap_frame _ 0 0,
    (UdpPacket.frame_checksum_zero _ 0 0 (by decide)).mpr (by decide)⟩

end XbTunnel.Daemon.Udp
