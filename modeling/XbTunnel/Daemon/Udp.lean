import XbTunnel.Common.Messages
import XbTunnel.Lib.OnesComplement
import XbTunnel.Lib.Slices
import Mathlib.Tactic.IntervalCases

/-! The daemon's packet formats: what travels between two daemons and what is injected on the
local network. -/

namespace XbTunnel.Daemon.Udp

open Common Lib.OnesComplement Lib.Slices

structure UdpPacket where
  payload : Bytes
  src : Xbox
  dst : Xbox
deriving DecidableEq

def UdpPacket.zero : UdpPacket := ⟨[], newXbox [], newXbox []⟩

def parseRemoteUdpPacket (data : Bytes) : UdpPacket :=
  let l := data.length
  if l < 12 then UdpPacket.zero
  else ⟨data.take (l - 12), newXbox ((data.drop (l - 12)).take 6), newXbox (data.drop (l - 6))⟩

/-- A `UdpPacket` whose payload still is a slice of the read buffer. -/
structure SlicePacket where
  payload : Slice
  src : Xbox
  dst : Xbox
deriving DecidableEq

def SlicePacket.view (p : SlicePacket) (data : Bytes) : UdpPacket :=
  ⟨p.payload.view data, p.src, p.dst⟩

def parseRemote (data : Bytes) (n : ℕ) : SlicePacket :=
  if n < 12 then ⟨Slice.nil, newXbox [], newXbox []⟩
  else ⟨⟨0, n - 12⟩, newXbox ((data.drop (n - 12)).take 6), newXbox ((data.drop (n - 6)).take 6)⟩

lemma parseRemote_view (data : Bytes) {n : ℕ} (h : n ≤ data.length) :
    (parseRemote data n).view data = parseRemoteUdpPacket (data.take n) := by
  have hl : (data.take n).length = n := List.length_take_of_le h
  rw [parseRemote, parseRemoteUdpPacket]
  simp only [hl]
  split
  · rfl
  · have h₁ : n - (n - 12) = 12 := by omega
    have h₂ : n - (n - 6) = 6 := by omega
    simp [SlicePacket.view, Slice.view, List.drop_take, List.take_take, h₁, h₂]

structure PcapPacket where
  data : Bytes
  payload : Bytes
deriving DecidableEq

def parsePcapPacket (pkt : PcapPacket) : Option UdpPacket :=
  -- a slice bound is out of range
  if pkt.data.length < 12 then none
  else some ⟨pkt.payload, newXbox ((pkt.data.drop 6).take 6), newXbox (pkt.data.take 6)⟩

def UdpPacket.asUdpData (r : UdpPacket) : Bytes :=
  r.payload ++ (r.src.asSlice ++ r.dst.asSlice)

def putUint16 (v : UInt16) : Bytes := [(v >>> 8).toUInt8, v.toUInt8]

/-- `binary.BigEndian.PutUint16(b[i:i+2], v)`. -/
def patchUint16 (b : Bytes) (i : ℕ) (v : UInt16) : Bytes :=
  b.take i ++ putUint16 v ++ b.drop (i + 2)

def addSlice (sum : UInt64) : Bytes → UInt64
  | [] => sum
  | [b] => sum + b.toUInt64 <<< 8
  | b₀ :: b₁ :: rest => addSlice (sum + (b₀.toUInt64 <<< 8 + b₁.toUInt64)) rest

lemma toNat_shiftRight (sum : UInt64) : (sum >>> 16).toNat = sum.toNat / 65536 := by
  simp [UInt64.toNat_shiftRight, Nat.shiftRight_eq_div_pow]

lemma toNat_low (sum : UInt64) : (sum &&& (0xffff : UInt64)).toNat = sum.toNat % 65536 := by
  rw [UInt64.toNat_and]
  exact Nat.and_two_pow_sub_one_eq_mod sum.toNat 16

lemma toNat_fold (sum : UInt64) :
    ((sum &&& (0xffff : UInt64)) + (sum >>> 16)).toNat = sum.toNat % 65536 + sum.toNat / 65536 := by
  have hs := sum.toNat_lt
  rw [UInt64.toNat_add, toNat_low, toNat_shiftRight]
  omega

def foldCarry (sum : UInt64) : UInt64 :=
  if sum >>> 16 = 0 then sum else foldCarry ((sum &&& (0xffff : UInt64)) + (sum >>> 16))
termination_by sum.toNat
decreasing_by
  rename_i h
  rw [toNat_fold]
  apply fold_lt
  rw [← toNat_shiftRight]
  simpa [← UInt64.toNat_inj] using h

def oneAdd (bs : List Bytes) : UInt16 :=
  (~~~ (foldCarry (bs.foldl addSlice 0))).toUInt16

namespace UdpPacket

def etherBytes (r : UdpPacket) : Bytes :=
  r.dst.asSlice ++ r.src.asSlice ++ [0x08, 0x00]

def srcIp : Bytes := [0x00, 0x00, 0x00, 0x01]

def dstIp (r : UdpPacket) : Bytes :=
  if r.dst.isBroadcast then [0xFF, 0xFF, 0xFF, 0xFF] else [0x00, 0x00, 0x00, 0x01]

def ipBuffer (r : UdpPacket) (id : Bytes) : Bytes :=
  [0x45, 0x00] ++ putUint16 (UInt16.ofNat (r.payload.length + 8 + 20)) ++ id ++
    [0x00] ++ [0x00] ++ [0x40, 0x11] ++ [0x00, 0x00] ++ srcIp ++ r.dstIp

def udpBuffer (r : UdpPacket) : Bytes :=
  [0x0c, 0x02] ++ [0x0c, 0x02] ++ putUint16 (UInt16.ofNat (r.payload.length + 8)) ++
    [0x00, 0x00] ++ r.payload

def udpPsuedoBuffer (r : UdpPacket) : Bytes :=
  srcIp ++ r.dstIp ++ [0x00, 0x11] ++ putUint16 (UInt16.ofNat r.udpBuffer.length) ++ r.udpBuffer

def asTransmittablePcap (r : UdpPacket) (id : Bytes) : Except String Bytes :=
  if id.length ≠ 2 then .error "ID is too long"
  else
    let ipChecksum := oneAdd [r.ipBuffer id]
    let udpChecksum := oneAdd [r.udpPsuedoBuffer]
    .ok (r.etherBytes ++ patchUint16 (r.ipBuffer id) 10 ipChecksum ++
      patchUint16 r.udpBuffer 6 udpChecksum)

end UdpPacket

section Samples

def console : Xbox := newXbox [0x00, 0x1d, 0xd8, 0xa9, 0x4e, 0x62]

end Samples

end XbTunnel.Daemon.Udp
