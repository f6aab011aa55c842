import XbTunnel.Daemon.Checksum
import XbTunnel.Lib.UdpFrame

/-! Frames built by `AsTransmittablePcap` are read back by a standard receiver. -/

namespace XbTunnel.Daemon.Udp

open Common Lib.OnesComplement Lib.UdpFrame

lemma putUint16_ofNat (n : ℕ) :
    putUint16 (UInt16.ofNat n) = [UInt8.ofNat (n / 256), UInt8.ofNat n] := by
  have h8 : (8 : UInt16).toNat % 16 = 8 := rfl
  simp only [putUint16, List.cons.injEq, and_true, ← UInt8.toNat_inj, UInt16.toNat_toUInt8,
    UInt16.toNat_shiftRight, UInt16.toNat_ofNat', UInt8.toNat_ofNat', h8,
    Nat.shiftRight_eq_div_pow]
  omega

lemma word_putUint16_ofNat {n : ℕ} (h : n < 65536) :
    word (UInt16.ofNat n >>> 8).toUInt8 (UInt16.ofNat n).toUInt8 = n := by
  rw [word_putUint16, UInt16.toNat_ofNat', Nat.mod_eq_of_lt h]

lemma patchUint16_at (a b : Bytes) (x y : UInt8) (v : UInt16) :
    patchUint16 (a ++ x :: y :: b) a.length v = a ++ putUint16 v ++ b := by
  have ht : (a ++ x :: y :: b).take a.length = a := List.take_left
  have hd : (a ++ x :: y :: b).drop (a.length + 2) = b := by
    rw [← List.drop_drop, List.drop_left]
    rfl
  rw [patchUint16, ht, hd]

lemma oneAdd_filled {a b : Bytes} (ha : a.length % 2 = 0)
    (hl : (a ++ 0 :: 0 :: b).length < 2 ^ 48) :
    onesSum (words (a ++ putUint16 (oneAdd [a ++ 0 :: 0 :: b]) ++ b)) = 0xFFFF := by
  simp only [putUint16, List.append_assoc, List.cons_append, List.nil_append]
  exact onesSum_filled _ _ _ ha (by rw [word_putUint16, oneAdd_single _ hl])

namespace UdpPacket

variable (r : UdpPacket) (i₀ i₁ : UInt8)

@[simp] lemma srcIp_length : srcIp.length = 4 := rfl

@[simp] lemma dstIp_length : r.dstIp.length = 4 := by
  rw [dstIp]
  split <;> rfl

def ipPrefix : Bytes :=
  [0x45, 0x00] ++ putUint16 (UInt16.ofNat (r.payload.length + 8 + 20)) ++
    [i₀, i₁, 0x00, 0x00, 0x40, 0x11]

def udpPrefix : Bytes :=
  [0x0c, 0x02, 0x0c, 0x02] ++ putUint16 (UInt16.ofNat (r.payload.length + 8))

lemma ipBuffer_eq :
    r.ipBuffer [i₀, i₁] = r.ipPrefix i₀ i₁ ++ 0 :: 0 :: (srcIp ++ r.dstIp) := by
  simp only [ipBuffer, ipPrefix, List.append_assoc, List.cons_append, List.nil_append]

lemma udpBuffer_eq : r.udpBuffer = r.udpPrefix ++ 0 :: 0 :: r.payload := by
  simp only [udpBuffer, udpPrefix, List.append_assoc, List.cons_append, List.nil_append]

lemma udpBuffer_length : r.udpBuffer.length = 8 + r.payload.length := by
  rw [udpBuffer_eq, List.length_append]
  have hp : r.udpPrefix.length = 6 := rfl
  simp only [hp, List.length_cons]
  omega

lemma udpPsuedoBuffer_eq :
    r.udpPsuedoBuffer = pseudoHeader srcIp r.dstIp (8 + r.payload.length) ++ r.udpPrefix ++
      0 :: 0 :: r.payload := by
  rw [udpPsuedoBuffer, udpBuffer_length, putUint16_ofNat, udpBuffer_eq, pseudoHeader]
  simp only [List.append_assoc, List.cons_append, List.nil_append]

def ipHeader : Bytes :=
  r.ipPrefix i₀ i₁ ++ putUint16 (oneAdd [r.ipBuffer [i₀, i₁]]) ++ (srcIp ++ r.dstIp)

def udpSegment : Bytes :=
  r.udpPrefix ++ putUint16 (oneAdd [r.udpPsuedoBuffer]) ++ r.payload

@[simp] lemma ipHeader_length : (r.ipHeader i₀ i₁).length = 20 := by
  simp [ipHeader, ipPrefix, putUint16]

@[simp] lemma udpSegment_length : r.udpSegment.length = 8 + r.payload.length := by
  simp [udpSegment, udpPrefix, putUint16]
  omega

lemma asTransmittablePcap_eq :
    r.asTransmittablePcap [i₀, i₁] =
      .ok (r.dst.asSlice ++ r.src.asSlice ++ [0x08, 0x00] ++ (r.ipHeader i₀ i₁ ++ r.udpSegment)) := by
  have hi := patchUint16_at (r.ipPrefix i₀ i₁) (srcIp ++ r.dstIp) 0 0 (oneAdd [r.ipBuffer [i₀, i₁]])
  have hu := patchUint16_at r.udpPrefix r.payload 0 0 (oneAdd [r.udpPsuedoBuffer])
  have hip : (r.ipPrefix i₀ i₁).length = 10 := rfl
  have hup : r.udpPrefix.length = 6 := rfl
  rw [← ipBuffer_eq, hip] at hi
  rw [← udpBuffer_eq, hup] at hu
  simp only [asTransmittablePcap, hi, hu, ipHeader, udpSegment, etherBytes, List.append_assoc]
  rfl

lemma ipHeader_sum : onesSum (words (r.ipHeader i₀ i₁)) = 0xFFFF := by
  have hp : (r.ipPrefix i₀ i₁).length = 10 := rfl
  have h := oneAdd_filled (a := r.ipPrefix i₀ i₁) (b := srcIp ++ r.dstIp) (by rw [hp])
    (by simp [hp])
  rwa [← ipBuffer_eq] at h

lemma udpSegment_sum (hr : r.payload.length ≤ 65507) :
    onesSum (words (pseudoHeader srcIp r.dstIp (8 + r.payload.length) ++ r.udpSegment)) =
      0xFFFF := by
  have h := oneAdd_filled (b := r.payload)
    (a := pseudoHeader srcIp r.dstIp (8 + r.payload.length) ++ r.udpPrefix)
    (by simp [pseudoHeader, udpPrefix, putUint16])
    (by simp [pseudoHeader, udpPrefix, putUint16]; omega)
  rw [← udpPsuedoBuffer_eq] at h
  simpa only [udpSegment, List.append_assoc] using h

lemma ipHeader_decodes (hr : r.payload.length ≤ 65507) :
    decodeIpv4 (r.ipHeader i₀ i₁ ++ r.udpSegment) =
      some ⟨20, 28 + r.payload.length, [i₀, i₁], 17, srcIp, r.dstIp, r.udpSegment⟩ := by
  have hs := r.ipHeader_sum i₀ i₁
  have hw := word_putUint16_ofNat (n := r.payload.length + 8 + 20) (by omega)
  have hn : r.payload.length + 8 + 20 = 28 + r.payload.length := by omega
  have hl : word (UInt16.ofNat (28 + r.payload.length) >>> 8).toUInt8
      (UInt16.ofNat (28 + r.payload.length)).toUInt8 = 20 + r.udpSegment.length := by
    rw [← hn, hw, udpSegment_length]
    omega
  simp only [ipHeader, ipPrefix, putUint16, hn, List.append_assoc, List.cons_append,
    List.nil_append] at hs ⊢
  have h := decodeIpv4_header srcIp_length r.dstIp_length hl (by decide : (0x40 : UInt8) ≠ 0) hs
  simp only [List.append_assoc, List.cons_append, List.nil_append] at h
  rw [h, ← hn, hw]
  rfl

lemma udpSegment_decodes (hr : r.payload.length ≤ 65507) :
    decodeUdp srcIp r.dstIp r.udpSegment =
      some ⟨3074, 3074, 8 + r.payload.length, r.payload⟩ := by
  have hs := r.udpSegment_sum hr
  have hw := word_putUint16_ofNat (n := r.payload.length + 8) (by omega)
  rw [Nat.add_comm _ 8] at hw
  simp only [udpSegment, udpPrefix, putUint16, Nat.add_comm _ 8, List.cons_append,
    List.nil_append] at hs ⊢
  have h := decodeUdp_segment hw (by
    simpa only [List.append_assoc, List.cons_append, List.nil_append] using hs)
  simp only [List.cons_append, List.nil_append] at h
  rw [h, hw]
  rfl

end UdpPacket

/-- All three layers of the frame are accepted by a receiver, their fields are those of the packet,
and both checksums close. -/
def ReadsBack (frame : Bytes) (r : UdpPacket) (id : Bytes) : Prop :=
  ∃ e ip udp, decodeEthernet frame = some e ∧ decodeIpv4 e.body = some ip ∧
    decodeUdp ip.src ip.dst ip.body = some udp ∧
    (e.dst = r.dst.asSlice ∧ e.src = r.src.asSlice ∧ e.etherType = 0x0800) ∧
    (ip.headerLength = 20 ∧ ip.totalLength = e.body.length ∧ ip.identification = id ∧
      ip.protocol = 17 ∧ ip.src = [0, 0, 0, 1] ∧
      ip.dst = if r.dst = broadcast then [255, 255, 255, 255] else [0, 0, 0, 1]) ∧
    (udp.srcPort = 3074 ∧ udp.dstPort = 3074 ∧ udp.length = 8 + r.payload.length ∧
      udp.data = r.payload) ∧
    (⟨udp.data, newXbox e.src, newXbox e.dst⟩ : UdpPacket) = r ∧
    onesSum (words (e.body.take 20)) = 0xFFFF ∧
    onesSum (words (pseudoHeader ip.src ip.dst ip.body.length ++ ip.body)) = 0xFFFF

theorem transmittable_reads_back (r : UdpPacket) (id : Bytes)
    (hr : r.payload.length ≤ 65507) (hid : id.length = 2) :
    ∃ frame, r.asTransmittablePcap id = .ok frame ∧ ReadsBack frame r id := by
  obtain ⟨i₀, i₁, rfl⟩ := List.length_eq_two.mp hid
  refine ⟨_, r.asTransmittablePcap_eq i₀ i₁,
    ⟨r.dst.asSlice, r.src.asSlice, 0x0800, r.ipHeader i₀ i₁ ++ r.udpSegment⟩, _, _,
    decodeEthernet_append r.dst.asSlice_length r.src.asSlice_length 8 0 _,
    r.ipHeader_decodes i₀ i₁ hr, r.udpSegment_decodes hr, ⟨rfl, rfl, rfl⟩,
    ⟨rfl, ?_, rfl, rfl, rfl, ?_⟩, ⟨rfl, rfl, rfl, rfl⟩, ?_, ?_, ?_⟩
  · simp only [List.length_append, UdpPacket.ipHeader_length, UdpPacket.udpSegment_length]
    omega
  · simp only [UdpPacket.dstIp, Xbox.isBroadcast_iff]
  · simp only [newXbox_of_asSlice]
  · rw [List.take_left' (r.ipHeader_length i₀ i₁), r.ipHeader_sum]
  · rw [r.udpSegment_length, r.udpSegment_sum hr]

def samplePacket : UdpPacket :=
  ⟨[0x68, 0x01, 0xbf], newXbox [0x00, 0x1d, 0xd8, 0xa9, 0x4e, 0x62], newXbox [0x00, 0x22]⟩

theorem samplePacket_reads_back :
    ∃ frame, samplePacket.asTransmittablePcap [0x14, 0xc2] = .ok frame ∧
      ReadsBack frame samplePacket [0x14, 0xc2] :=
  transmittable_reads_back samplePacket [0x14, 0xc2] (by decide) (by decide)

end XbTunnel.Daemon.Udp
