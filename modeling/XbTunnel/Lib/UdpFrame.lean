import XbTunnel.Lib.OnesComplement

/-! A receiver's view of Ethernet II frames that carry UDP over IPv4. -/

namespace XbTunnel.Lib.UdpFrame

open OnesComplement

structure Ethernet where
  dst : List UInt8
  src : List UInt8
  etherType : ℕ
  body : List UInt8
deriving DecidableEq

structure Ipv4 where
  headerLength : ℕ
  totalLength : ℕ
  identification : List UInt8
  protocol : ℕ
  src : List UInt8
  dst : List UInt8
  body : List UInt8
deriving DecidableEq

structure Udp where
  srcPort : ℕ
  dstPort : ℕ
  length : ℕ
  data : List UInt8
deriving DecidableEq

def decodeEthernet : List UInt8 → Option Ethernet
  | d₀ :: d₁ :: d₂ :: d₃ :: d₄ :: d₅ :: s₀ :: s₁ :: s₂ :: s₃ :: s₄ :: s₅ :: t₀ :: t₁ :: body =>
    some ⟨[d₀, d₁, d₂, d₃, d₄, d₅], [s₀, s₁, s₂, s₃, s₄, s₅], word t₀ t₁, body⟩
  | _ => none

def decodeIpv4 (b : List UInt8) : Option Ipv4 :=
  match b with
  | v :: _ :: l₀ :: l₁ :: i₀ :: i₁ :: f₀ :: f₁ :: ttl :: p :: _ :: _ ::
      s₀ :: s₁ :: s₂ :: s₃ :: d₀ :: d₁ :: d₂ :: d₃ :: _ =>
    let hl := v.toNat % 16 * 4
    if v.toNat / 16 = 4 ∧ 20 ≤ hl ∧ hl ≤ word l₀ l₁ ∧ word l₀ l₁ = b.length ∧
        word f₀ f₁ % 16384 = 0 ∧ ttl ≠ 0 ∧ onesSum (words (b.take hl)) = 0xFFFF then
      some ⟨hl, word l₀ l₁, [i₀, i₁], p.toNat, [s₀, s₁, s₂, s₃], [d₀, d₁, d₂, d₃], b.drop hl⟩
    else none
  | _ => none

def pseudoHeader (src dst : List UInt8) (length : ℕ) : List UInt8 :=
  src ++ dst ++ [0, 17, UInt8.ofNat (length / 256), UInt8.ofNat length]

def decodeUdp (src dst b : List UInt8) : Option Udp :=
  match b with
  | s₀ :: s₁ :: d₀ :: d₁ :: l₀ :: l₁ :: c₀ :: c₁ :: data =>
    -- a zero checksum says that the sender computed none
    if word l₀ l₁ = b.length ∧
        (word c₀ c₁ = 0 ∨ onesSum (words (pseudoHeader src dst b.length ++ b)) = 0xFFFF) then
      some ⟨word s₀ s₁, word d₀ d₁, word l₀ l₁, data⟩
    else none
  | _ => none

lemma decodeEthernet_append {dst src : List UInt8} (hd : dst.length = 6) (hs : src.length = 6)
    (t₀ t₁ : UInt8) (body : List UInt8) :
    decodeEthernet (dst ++ src ++ [t₀, t₁] ++ body) = some ⟨dst, src, word t₀ t₁, body⟩ := by
  match dst, hd with
  | [_, _, _, _, _, _], _ =>
    match src, hs with
    | [_, _, _, _, _, _], _ => rfl

lemma decodeIpv4_header {src dst : List UInt8} (hs : src.length = 4) (hd : dst.length = 4)
    {tos l₀ l₁ i₀ i₁ ttl p c₀ c₁ : UInt8} {body : List UInt8}
    (hl : word l₀ l₁ = 20 + body.length) (ht : ttl ≠ 0)
    (hc : onesSum (words ([0x45, tos, l₀, l₁, i₀, i₁, 0, 0, ttl, p, c₀, c₁] ++ src ++ dst)) =
      0xFFFF) :
    decodeIpv4 ([0x45, tos, l₀, l₁, i₀, i₁, 0, 0, ttl, p, c₀, c₁] ++ src ++ dst ++ body) =
      some ⟨20, word l₀ l₁, [i₀, i₁], p.toNat, src, dst, body⟩ := by
  obtain ⟨s₀, s₁, s₂, s₃, rfl⟩ := List.length_eq_four.mp hs
  obtain ⟨d₀, d₁, d₂, d₃, rfl⟩ := List.length_eq_four.mp hd
  have hf : word 0 0 = 0 := by decide
  simp only [List.cons_append, List.nil_append] at hc
  simp [decodeIpv4, hl, ht, hf, hc]
  omega

lemma decodeUdp_segment {src dst data : List UInt8} {s₀ s₁ d₀ d₁ l₀ l₁ c₀ c₁ : UInt8}
    (hl : word l₀ l₁ = 8 + data.length)
    (hc : onesSum (words (pseudoHeader src dst (8 + data.length) ++
      [s₀, s₁, d₀, d₁, l₀, l₁, c₀, c₁] ++ data)) = 0xFFFF) :
    decodeUdp src dst ([s₀, s₁, d₀, d₁, l₀, l₁, c₀, c₁] ++ data) =
      some ⟨word s₀ s₁, word d₀ d₁, word l₀ l₁, data⟩ := by
  have hn : data.length + 8 = 8 + data.length := Nat.add_comm _ _
  simp only [List.append_assoc, List.cons_append, List.nil_append] at hc
  simp [decodeUdp, hl, hn, hc]

end XbTunnel.Lib.UdpFrame
