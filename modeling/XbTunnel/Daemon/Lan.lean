import XbTunnel.Daemon.Local
import XbTunnel.Daemon.Transmit
import XbTunnel.Lib.Runs

/-! The local manager with what surrounds it: frames on the network, packets for `lm.out` and the
other users of the shared channels. -/

namespace XbTunnel.Daemon.Lan

open Common Udp Lib.Channels Lib.Maps Lib.Runs

structure World where
  ch : Shared
  lm : LocalManager

def init (handles : ℕ) : World := ⟨.init, newLocalManager handles⟩

/-- `others` is what the rest of the daemon does to the shared channels. -/
inductive Action
  | lm (a : LocalManager.Action)
  | deliver (pkt : UdpPacket)
  | kill
  | others (ch : Shared)

def step (w : World) : Action → Option World
  | .lm a => (w.lm.step w.ch a).map fun r => ⟨r.1, r.2⟩
  | .deliver pkt => do
    let out ← w.lm.out.send pkt
    some { w with lm := { w.lm with out } }
  | .kill => do
    let kill ← w.lm.kill.send ()
    some { w with lm := { w.lm with kill } }
  | .others ch => some { w with ch }

inductive Effect (w : World) : Action → World → Prop
  | lm {a ch lm} : w.lm.Effect w.ch a ch lm → Effect w (.lm a) ⟨ch, lm⟩
  | deliver {pkt out} : w.lm.out.send pkt = some out →
      Effect w (.deliver pkt) { w with lm := { w.lm with out } }
  | kill {kill} : w.lm.kill.send () = some kill →
      Effect w .kill { w with lm := { w.lm with kill } }
  | others {ch} : Effect w (.others ch) { w with ch }

def registering : LocalManager.PcapPhase → Option UdpPacket
  | .registering packet => some packet
  | .polling | .capturing | .forwarding _ | .returned => none

structure Learns (w : World) : Prop where
  open_ : w.lm.xboxes.closed = false
  cap : w.lm.xboxes.cap = 5
  length : w.lm.xboxes.buf.length ≤ 5
  registers : ∀ i, ∀ packet ∈ registering (w.lm.pcap i), packet.dst = broadcast
  queued : ∀ xh ∈ w.lm.xboxes.buf, xh.x = broadcast
  known : ∀ x h, w.lm.xboxHandleMap.lookup x = some h → x = broadcast
  injected : ∀ e ∈ w.lm.injected, ∃ pkt : UdpPacket,
    pkt.dst = broadcast ∧ e.2 = LocalManager.transmitted pkt

variable {w v : World} {a : Action}

lemma step_effect (h : step w a = some v) : Effect w a v := by
  cases a with
  | lm a =>
    obtain ⟨⟨ch, lm⟩, hs, rfl⟩ := Option.map_eq_some_iff.mp h
    exact .lm (LocalManager.step_effect hs)
  | deliver | kill =>
    obtain ⟨_, hs, h⟩ := Option.bind_eq_some_iff.mp h
    obtain rfl := Option.some.inj h
    constructor
    exact hs
  | others ch =>
    obtain rfl := Option.some.inj h
    exact .others

lemma transmitted_eq (pkt : UdpPacket) : ∃ rest,
    LocalManager.transmitted pkt = pkt.dst.asSlice ++ (pkt.src.asSlice ++ rest) := by
  refine ⟨[0x08, 0x00] ++ (pkt.ipHeader 0 0 ++ pkt.udpSegment), ?_⟩
  rw [LocalManager.transmitted, pkt.asTransmittablePcap_eq 0 0]
  simp only [Except.toOption, Option.getD_some, List.append_assoc]

lemma parse_transmitted (pkt : UdpPacket) (payload : Bytes) :
    parsePcapPacket ⟨LocalManager.transmitted pkt, payload⟩ = some ⟨payload, pkt.src, pkt.dst⟩ := by
  obtain ⟨rest, he⟩ := transmitted_eq pkt
  have hl : ¬ (LocalManager.transmitted pkt).length < 12 := by
    rw [he]
    simp only [List.length_append, Xbox.asSlice_length]
    omega
  have hdst : (LocalManager.transmitted pkt).take 6 = pkt.dst.asSlice := by
    rw [he, List.take_left' pkt.dst.asSlice_length]
  have hsrc : ((LocalManager.transmitted pkt).drop 6).take 6 = pkt.src.asSlice := by
    rw [he, List.drop_left' pkt.dst.asSlice_length, List.take_left' pkt.src.asSlice_length]
  rw [parsePcapPacket, if_neg hl, hdst, hsrc, newXbox_of_asSlice, newXbox_of_asSlice]

lemma targets_broadcast {m : Map Xbox HandleId} {pkt : UdpPacket}
    {order : List (Σ _ : Xbox, HandleId)} (hm : ∀ x h, m.lookup x = some h → x = broadcast)
    (hd : pkt.dst.isBroadcast = false) : LocalManager.targets m pkt order = [] := by
  have hne : pkt.dst ≠ broadcast := fun he => by
    rw [(Xbox.isBroadcast_iff _).mpr he] at hd
    cases hd
  rw [LocalManager.targets, hd]
  cases hl : m.lookup pkt.dst with
  | none => rfl
  | some h => exact absurd (hm _ _ hl) hne

lemma dst_of_mem_targets {m : Map Xbox HandleId} {pkt : UdpPacket}
    {order : List (Σ _ : Xbox, HandleId)} (hm : ∀ x h, m.lookup x = some h → x = broadcast)
    {i : HandleId} (hi : i ∈ LocalManager.targets m pkt order) : pkt.dst = broadcast := by
  by_contra hne
  have hb : pkt.dst.isBroadcast = false := by
    rw [Bool.eq_false_iff]
    exact mt (Xbox.isBroadcast_iff _).mp hne
  rw [targets_broadcast hm hb] at hi
  cases hi

lemma known_learn {m : Map Xbox HandleId} {xh : XboxHandle}
    (hm : ∀ x h, m.lookup x = some h → x = broadcast) (hx : xh.x = broadcast) :
    ∀ x h, (if xh.x ∈ m then m else m.insert xh.x xh.h).lookup x = some h → x = broadcast := by
  intro x h hl
  split_ifs at hl
  · exact hm x h hl
  · rcases lookup_insert_eq_some hl with ⟨rfl, -⟩ | hl
    · exact hx
    · exact hm x h hl

lemma mem_registering_setPcap {lm : LocalManager} {i j : HandleId} {phase : LocalManager.PcapPhase}
    {packet : UdpPacket} (h : packet ∈ registering ((lm.setPcap i phase).pcap j)) :
    packet ∈ registering phase ∨ packet ∈ registering (lm.pcap j) := by
  by_cases hj : j = i
  · subst hj
    rw [LocalManager.setPcap_self] at h
    exact .inl h
  · rw [LocalManager.setPcap_of_ne hj] at h
    exact .inr h

lemma mem_registering_captured {packet packet' : UdpPacket}
    (h : packet' ∈ registering (if packet.dst.isBroadcast then .registering packet
      else .forwarding packet)) : packet' = packet ∧ packet.dst = broadcast := by
  by_cases hb : packet.dst.isBroadcast = true
  · rw [if_pos hb] at h
    exact ⟨(Option.some.inj h).symm, (Xbox.isBroadcast_iff _).mp hb⟩
  · rw [if_neg hb] at h
    cases h

lemma Learns.step (hw : Learns w) (h : step w a = some v) : Learns v := by
  obtain ⟨hopen, hcap, hlen, hreg, hqueue, hknown, hinj⟩ := hw
  cases step_effect h with
  | lm he =>
    cases he with
    | @recvOut order pkt out _ _ hr =>
      refine ⟨hopen, hcap, hlen, hreg, hqueue, hknown, fun e hm => ?_⟩
      rcases List.mem_append.mp hm with hm | hm
      · exact hinj e hm
      · obtain ⟨h, ht, rfl⟩ := List.mem_map.mp hm
        exact ⟨pkt, dst_of_mem_targets hknown ht, rfl⟩
    | @recvXbox xh xboxes _ hr =>
      obtain ⟨rest, hb, rfl⟩ := Chan.recv_eq_some.mp hr
      rw [hb] at hqueue hlen
      refine ⟨hopen, hcap, (Nat.le_succ _).trans hlen, hreg,
        fun xh' hm => hqueue xh' (List.mem_cons_of_mem _ hm), ?_, hinj⟩
      exact known_learn hknown (hqueue xh List.mem_cons_self)
    | capture =>
      refine ⟨hopen, hcap, hlen, fun j packet' hm => ?_, hqueue, hknown, hinj⟩
      rcases mem_registering_setPcap hm with hm | hm
      · obtain ⟨rfl, hd⟩ := mem_registering_captured hm
        exact hd
      · exact hreg j packet' hm
    | @sendXbox i packet xboxes hr hs =>
      refine ⟨(Chan.send_closed hs).trans hopen, (Chan.send_cap hs).trans hcap,
        (Chan.send_length hs).trans_eq ((Chan.send_cap hs).trans hcap), fun j packet' hm => ?_,
        fun xh hm => ?_, hknown, hinj⟩
      · exact hreg j packet' ((mem_registering_setPcap hm).resolve_left nofun)
      · obtain ⟨-, rfl⟩ := Chan.send_eq_some.mp hs
        rcases List.mem_append.mp hm with hm | hm
        · exact hqueue xh hm
        · obtain rfl := List.mem_singleton.mp hm
          exact hreg i packet (hr ▸ rfl)
    | recvStop | poll | miss | forward =>
      exact ⟨hopen, hcap, hlen,
        fun j packet' hm => hreg j packet' ((mem_registering_setPcap hm).resolve_left nofun),
        hqueue, hknown, hinj⟩
    | _ => exact ⟨hopen, hcap, hlen, hreg, hqueue, hknown, hinj⟩
  | _ => exact ⟨hopen, hcap, hlen, hreg, hqueue, hknown, hinj⟩

lemma learns_init (handles : ℕ) : Learns (init handles) where
  open_ := rfl
  cap := rfl
  length := Nat.zero_le _
  registers i packet h := by
    simp only [init, newLocalManager] at h
    split_ifs at h <;> cases h
  queued xh h := by cases h
  known x h hl := by cases hl
  injected e h := by cases h

section Samples

def hello : PcapPacket := ⟨broadcast.asSlice ++ console.asSlice, [1]⟩

def heardOn (i : HandleId) : List Action :=
  [.lm (.poll i), .lm (.capture i hello), .lm (.sendXbox i), .lm .recvXbox, .lm .sendNewXbox,
    .lm (.forward i)]

def takeNext : Action := .lm (.recvOut [⟨broadcast, 0⟩])

def remoteHello : UdpPacket := ⟨[1], newXbox [9], broadcast⟩

end Samples

end XbTunnel.Daemon.Lan
