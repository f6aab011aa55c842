import XbTunnel.Daemon.Udp

/-! The datagrams two daemons exchange: the payload, and behind it the two console addresses. -/

namespace XbTunnel.Daemon.Udp

open Common

namespace UdpPacket

variable (r : UdpPacket)

@[simp] lemma asUdpData_length : r.asUdpData.length = r.payload.length + 12 := by
  simp [asUdpData]

lemma asUdpData_payload : r.asUdpData.take (r.asUdpData.length - 12) = r.payload := by
  rw [asUdpData_length, Nat.add_sub_cancel]
  exact List.take_left

lemma asUdpData_addresses :
    r.asUdpData.drop (r.asUdpData.length - 12) = r.src.asSlice ++ r.dst.asSlice := by
  rw [asUdpData_length, Nat.add_sub_cancel]
  exact List.drop_left

lemma asUdpData_dst : r.asUdpData.drop (r.asUdpData.length - 6) = r.dst.asSlice := by
  have hl : r.asUdpData.length - 6 = (r.payload ++ r.src.asSlice).length := by simp
  rw [hl, asUdpData, ← List.append_assoc]
  exact List.drop_left

lemma parse_asUdpData : parseRemoteUdpPacket r.asUdpData = r := by
  have hl : ¬ r.asUdpData.length < 12 := by simp
  have hs : (r.src.asSlice ++ r.dst.asSlice).take 6 = r.src.asSlice :=
    List.take_left' r.src.asSlice_length
  simp only [parseRemoteUdpPacket, if_neg hl, asUdpData_payload, asUdpData_addresses,
    asUdpData_dst, hs, newXbox_of_asSlice]

lemma asUdpData_injective : Function.Injective asUdpData :=
  Function.LeftInverse.injective parse_asUdpData

end UdpPacket

variable {d : Bytes}

lemma parse_eq (hd : 12 ≤ d.length) :
    parseRemoteUdpPacket d =
      ⟨d.take (d.length - 12), newXbox ((d.drop (d.length - 12)).take 6),
        newXbox (d.drop (d.length - 6))⟩ := by
  simp only [parseRemoteUdpPacket, if_neg (Nat.not_lt.mpr hd)]

lemma parse_malnourished (hd : d.length < 12) : parseRemoteUdpPacket d = UdpPacket.zero := by
  simp only [parseRemoteUdpPacket, if_pos hd]

lemma parse_payload_length (d : Bytes) :
    (parseRemoteUdpPacket d).payload.length = d.length - 12 := by
  rcases Nat.lt_or_ge d.length 12 with hd | hd
  · rw [parse_malnourished hd, UdpPacket.zero, List.length_nil]
    omega
  · rw [parse_eq hd, List.length_take]
    omega

lemma parse_asUdpData_of_length (hd : 12 ≤ d.length) : (parseRemoteUdpPacket d).asUdpData = d := by
  have hs : ((d.drop (d.length - 12)).take 6).length = 6 := by
    rw [List.length_take, List.length_drop]
    omega
  have ht : (d.drop (d.length - 6)).length = 6 := by
    rw [List.length_drop]
    omega
  have hj : d.drop (d.length - 6) = (d.drop (d.length - 12)).drop 6 := by
    rw [List.drop_drop]
    congr 1
    omega
  rw [parse_eq hd]
  simp only [UdpPacket.asUdpData]
  rw [newXbox_asSlice hs, newXbox_asSlice ht, hj, List.take_append_drop, List.take_append_drop]

theorem datagram_inverse :
    (∀ p : UdpPacket, parseRemoteUdpPacket p.asUdpData = p) ∧
      (∀ d : Bytes, 12 ≤ d.length → (parseRemoteUdpPacket d).asUdpData = d) ∧
      Function.Injective UdpPacket.asUdpData :=
  ⟨UdpPacket.parse_asUdpData, fun _ hd => parse_asUdpData_of_length hd,
    UdpPacket.asUdpData_injective⟩

def sampleDatagram : Bytes := [1, 2, 3] ++ List.replicate 6 0x1d ++ List.replicate 6 0xFF

theorem datagram_inverse_sample :
    (parseRemoteUdpPacket sampleDatagram).asUdpData = sampleDatagram ∧
      (parseRemoteUdpPacket sampleDatagram).payload = [1, 2, 3] :=
  ⟨datagram_inverse.2.1 sampleDatagram (by decide), rfl⟩

end XbTunnel.Daemon.Udp
