import XbTunnel.Daemon.Remote
import XbTunnel.Lib.Channels

/-! The channels that all goroutines of the daemon share, and the goroutines of one connection to a
peer. -/

namespace XbTunnel.Daemon

open Common Udp Remote Lib.Channels Lib.Slices

/-- A packet on `localChan`, whose payload is a slice of the buffer of the connection at `addr`. -/
structure LocalEntry where
  addr : ℕ
  packet : SlicePacket
deriving DecidableEq

structure Shared where
  serverChan : Chan QueuedReq
  localChan : Chan LocalEntry
  remoteChan : Chan UdpPacket
  localStateChan : Chan LocalState
  pcSignalChan : Chan PcSignal
  newPeerConnChan : Chan PcRef
  removePeerChan : Chan PeerId
  newXboxChan : Chan Xbox

def Shared.init : Shared :=
  ⟨.make 10, .make 10, .make 10, .make 10, .make 10, .make 10, .make 10, .make 10⟩

namespace PeerConn

inductive DialPhase
  | notStarted
  | connecting (initiator : Bool)
  | failed
  | returned
deriving DecidableEq

inductive RunPhase
  | notStarted
  | selecting
  | writing (pkt : UdpPacket)
  -- from here on the deferred function
  | closeKill
  | closeOut
  | killSideband
  | awaitSideband
  | reportDead
  | returned
deriving DecidableEq

inductive ReaderPhase
  | notStarted
  | reading
  | sending (packet : SlicePacket)
  | killing
  | returned
deriving DecidableEq

end PeerConn

/-- `reads` counts the calls of the shim's `Read` that wait on its unbuffered `readChan`, and `data`
is the reader's buffer. -/
structure PeerConn where
  addr : ℕ
  peerId : PeerId
  sideband : ShimConn
  reads : ℕ
  sidebandKill : Chan Unit
  sidebandDead : Chan Unit
  udpConn : Bool
  out : Chan UdpPacket
  kill : Chan Unit
  dead : Chan Unit
  nat : PeerConn.DialPhase
  run : PeerConn.RunPhase
  reader : PeerConn.ReaderPhase
  data : Bytes

namespace PeerConn

def new (addr : ℕ) (peerId : PeerId) (nat : DialPhase) : PeerConn where
  addr
  peerId
  sideband := newShimConn peerId
  reads := 0
  sidebandKill := .make 1
  sidebandDead := .make 1
  udpConn := false
  out := .make 10
  kill := .make 1
  dead := .make 1
  nat
  run := .notStarted
  reader := .notStarted
  data := List.replicate 65535 0

def start (pc : PeerConn) : PeerConn := { pc with run := .selecting, reader := .reading }

/-- The actions of the goroutines of one connection. What `nat.Connect` does is not known: until it
returns it may call the shim's methods at any time, and more than one of them at once. -/
inductive Action
  | callRead
  | killRead
  | callWrite (bytes : Bytes)
  | connect
  | failConnect
  | sendRemovePeer
  | recvOut
  | recvKill
  | write (ok : Bool)
  | unwind
  | read (data : Bytes)
  | failRead
  | sendLocal
  | sendKill

def unwind (pc : PeerConn) : Option PeerConn :=
  match pc.run with
  | .closeKill => some { pc with kill := pc.kill.close, run := .closeOut }
  | .closeOut => some { pc with out := pc.out.close, run := .killSideband }
  | .killSideband => do
    let sidebandKill ← pc.sidebandKill.send ()
    some { pc with sidebandKill, run := .awaitSideband }
  | .awaitSideband => do
    let sidebandDead ← pc.sidebandDead.drop
    some { pc with sidebandDead, run := .reportDead }
  | .reportDead => do
    let dead ← pc.dead.send ()
    some { pc with dead, run := .returned }
  | .notStarted | .selecting | .writing _ | .returned => none

def RunPhase.isWriting : RunPhase → Bool
  | .writing _ => true
  | _ => false

/-- What ends the daemon: the use of a nil `udpConn`, and the reader's kill to a connection that has
closed its channel. -/
def Panics (pc : PeerConn) : Action → Prop
  | .write _ => pc.run.isWriting = true ∧ pc.udpConn = false
  | .read _ | .failRead => pc.reader = .reading ∧ pc.udpConn = false
  | .sendKill => pc.reader = .killing ∧ pc.kill.closed = true
  | _ => False

instance (pc : PeerConn) : DecidablePred pc.Panics
  | .write _ | .read _ | .failRead | .sendKill => inferInstanceAs (Decidable (_ ∧ _))
  | .callRead | .killRead | .callWrite _ | .connect | .failConnect | .sendRemovePeer | .recvOut
  | .recvKill | .unwind | .sendLocal => .isFalse id

def step (ch : Shared) (pc : PeerConn) : Action → Option (Shared × PeerConn)
  | .callRead =>
    match pc.nat with
    | .connecting _ => some (ch, { pc with reads := pc.reads + 1 })
    | .notStarted | .failed | .returned => none
  | .killRead =>
    if pc.reads = 0 then none
    else do
      let sidebandKill ← pc.sidebandKill.drop
      let sidebandDead ← pc.sidebandDead.send ()
      some (ch, { pc with sidebandKill, sidebandDead, reads := pc.reads - 1 })
  | .callWrite bytes =>
    match pc.nat with
    | .connecting _ => do
      let serverChan ← ch.serverChan.send (.own (pc.sideband.write bytes))
      some ({ ch with serverChan }, pc)
    | .notStarted | .failed | .returned => none
  | .connect =>
    match pc.nat with
    | .connecting _ => some (ch, { pc with udpConn := true, nat := .returned })
    | .notStarted | .failed | .returned => none
  | .failConnect =>
    match pc.nat with
    | .connecting _ => some (ch, { pc with udpConn := false, nat := .failed })
    | .notStarted | .failed | .returned => none
  | .sendRemovePeer =>
    match pc.nat with
    | .failed => do
      let removePeerChan ← ch.removePeerChan.send pc.peerId
      some ({ ch with removePeerChan }, { pc with nat := .returned })
    | .notStarted | .connecting _ | .returned => none
  | .recvOut =>
    match pc.run with
    | .selecting => do
      let (pkt, out) ← pc.out.recv
      some (ch, { pc with out, run := .writing pkt })
    | _ => none
  | .recvKill =>
    match pc.run with
    | .selecting => do
      let kill ← pc.kill.drop
      some (ch, { pc with kill, run := .closeKill })
    | _ => none
  | .write ok =>
    match pc.run with
    | .writing _ =>
      if pc.udpConn then some (ch, { pc with run := if ok then .selecting else .closeKill })
      else none
    | _ => none
  | .unwind => pc.unwind.map fun pc => (ch, pc)
  | .read data =>
    if pc.reader = .reading ∧ pc.udpConn = true ∧ data.length ≤ 65535 then
      let data' := overwrite pc.data data
      some (ch, { pc with data := data', reader := .sending (parseRemote data' data.length) })
    else none
  | .failRead =>
    if pc.reader = .reading ∧ pc.udpConn = true then some (ch, { pc with reader := .killing })
    else none
  | .sendLocal =>
    match pc.reader with
    | .sending packet => do
      let localChan ← ch.localChan.send ⟨pc.addr, packet⟩
      some ({ ch with localChan }, { pc with reader := .reading })
    | _ => none
  | .sendKill =>
    match pc.reader with
    | .killing => do
      let kill ← pc.kill.send ()
      some (ch, { pc with kill, reader := .returned })
    | _ => none

def Connecting (pc : PeerConn) : Prop := pc.nat = .connecting true ∨ pc.nat = .connecting false

instance (pc : PeerConn) : Decidable pc.Connecting := inferInstanceAs (Decidable (_ ∨ _))

def Draining (pc : PeerConn) : Prop :=
  pc.run = .selecting ∨ pc.run.isWriting = true ∧ (pc.udpConn = true ∨ pc.Connecting)

instance (pc : PeerConn) : Decidable pc.Draining := inferInstanceAs (Decidable (_ ∨ _))

structure Evolves (pc pc' : PeerConn) : Prop where
  connecting : ¬ pc.Connecting → ¬ pc'.Connecting
  reads : ¬ pc.Connecting → pc'.reads ≤ pc.reads
  draining : ¬ pc.Draining → ¬ pc'.Draining
  out : ¬ pc.Draining → pc'.out = pc.out ∨ pc'.out = pc.out.close
  cap : pc'.out.cap = pc.out.cap
  length : pc'.out.buf.length ≤ pc.out.buf.length

variable {ch ch' : Shared} {pc pc' : PeerConn} {a : Action}

lemma connecting_iff : pc.Connecting ↔ ∃ i, pc.nat = .connecting i := by
  simp [Connecting, or_comm]

lemma Evolves.of_same (hn : pc'.nat = pc.nat) (hu : pc'.udpConn = pc.udpConn)
    (hr : pc'.run = pc.run) (ho : pc'.out = pc.out) (hreads : pc'.reads ≤ pc.reads) :
    Evolves pc pc' := by
  have hc : pc'.Connecting ↔ pc.Connecting := by rw [Connecting, Connecting, hn]
  have hd : pc'.Draining ↔ pc.Draining := by rw [Draining, Draining, hr, hu, hc]
  exact ⟨fun h => mt hc.mp h, fun _ => hreads, fun h => mt hd.mp h, fun _ => .inl ho,
    congrArg Chan.cap ho, (congrArg (List.length ∘ Chan.buf) ho).le⟩

lemma Evolves.of_connecting (hc : pc.Connecting) (hr : pc'.run = pc.run)
    (ho : pc'.out = pc.out) : Evolves pc pc' := by
  refine ⟨fun hn => absurd hc hn, fun hn => absurd hc hn, fun hd => ?_, fun _ => .inl ho,
    congrArg Chan.cap ho, (congrArg (List.length ∘ Chan.buf) ho).le⟩
  rw [Draining, hr]
  rintro (hs | ⟨hw, -⟩)
  · exact hd (.inl hs)
  · exact hd (.inr ⟨hw, .inr hc⟩)

lemma Evolves.of_unwinding (hn : pc'.nat = pc.nat) (hr : pc'.reads = pc.reads)
    (hs : pc'.run ≠ .selecting) (hw : pc'.run.isWriting = false)
    (ho : pc'.out = pc.out ∨ pc'.out = pc.out.close) : Evolves pc pc' := by
  refine ⟨?_, fun _ => hr.le, fun _ => ?_, fun _ => ho, ?_, ?_⟩
  · rw [Connecting, Connecting, hn]
    exact id
  · rintro (h | ⟨h, -⟩)
    · exact hs h
    · rw [hw] at h
      cases h
  · rcases ho with h | h <;> rw [h]
    rfl
  · rcases ho with h | h <;> rw [h]
    rfl

inductive Effect (ch : Shared) (pc : PeerConn) : Action → Shared → PeerConn → Prop
  | callRead {initiator} : pc.nat = .connecting initiator →
      Effect ch pc .callRead ch { pc with reads := pc.reads + 1 }
  | killRead {sidebandKill sidebandDead} : pc.reads ≠ 0 →
      pc.sidebandKill.drop = some sidebandKill → pc.sidebandDead.send () = some sidebandDead →
      Effect ch pc .killRead ch { pc with sidebandKill, sidebandDead, reads := pc.reads - 1 }
  | callWrite {initiator bytes serverChan} : pc.nat = .connecting initiator →
      ch.serverChan.send (.own (pc.sideband.write bytes)) = some serverChan →
      Effect ch pc (.callWrite bytes) { ch with serverChan } pc
  | connect {initiator} : pc.nat = .connecting initiator →
      Effect ch pc .connect ch { pc with udpConn := true, nat := .returned }
  | failConnect {initiator} : pc.nat = .connecting initiator →
      Effect ch pc .failConnect ch { pc with udpConn := false, nat := .failed }
  | sendRemovePeer {removePeerChan} : pc.nat = .failed →
      ch.removePeerChan.send pc.peerId = some removePeerChan →
      Effect ch pc .sendRemovePeer { ch with removePeerChan } { pc with nat := .returned }
  | recvOut {pkt out} : pc.run = .selecting → pc.out.recv = some (pkt, out) →
      Effect ch pc .recvOut ch { pc with out, run := .writing pkt }
  | recvKill {kill} : pc.run = .selecting → pc.kill.drop = some kill →
      Effect ch pc .recvKill ch { pc with kill, run := .closeKill }
  | write {pkt ok} : pc.run = .writing pkt → pc.udpConn = true →
      Effect ch pc (.write ok) ch { pc with run := if ok then .selecting else .closeKill }
  | closeKill : pc.run = .closeKill →
      Effect ch pc .unwind ch { pc with kill := pc.kill.close, run := .closeOut }
  | closeOut : pc.run = .closeOut →
      Effect ch pc .unwind ch { pc with out := pc.out.close, run := .killSideband }
  | killSideband {sidebandKill} : pc.run = .killSideband →
      pc.sidebandKill.send () = some sidebandKill →
      Effect ch pc .unwind ch { pc with sidebandKill, run := .awaitSideband }
  | awaitSideband {sidebandDead} : pc.run = .awaitSideband →
      pc.sidebandDead.drop = some sidebandDead →
      Effect ch pc .unwind ch { pc with sidebandDead, run := .reportDead }
  | reportDead {dead} : pc.run = .reportDead → pc.dead.send () = some dead →
      Effect ch pc .unwind ch { pc with dead, run := .returned }
  | read {data} : pc.reader = .reading → pc.udpConn = true → data.length ≤ 65535 →
      Effect ch pc (.read data) ch { pc with
        data := overwrite pc.data data
        reader := .sending (parseRemote (overwrite pc.data data) data.length) }
  | failRead : pc.reader = .reading → pc.udpConn = true →
      Effect ch pc .failRead ch { pc with reader := .killing }
  | sendLocal {packet localChan} : pc.reader = .sending packet →
      ch.localChan.send ⟨pc.addr, packet⟩ = some localChan →
      Effect ch pc .sendLocal { ch with localChan } { pc with reader := .reading }
  | sendKill {kill} : pc.reader = .killing → pc.kill.send () = some kill →
      Effect ch pc .sendKill ch { pc with kill, reader := .returned }

lemma unwind_effect (h : pc.unwind = some pc') : Effect ch pc .unwind ch pc' := by
  rw [unwind] at h
  split at h
  · rename_i hr
    obtain rfl := Option.some.inj h
    exact .closeKill hr
  · rename_i hr
    obtain rfl := Option.some.inj h
    exact .closeOut hr
  · rename_i hr
    obtain ⟨_, hs, h⟩ := Option.bind_eq_some_iff.mp h
    obtain rfl := Option.some.inj h
    exact .killSideband hr hs
  · rename_i hr
    obtain ⟨_, hs, h⟩ := Option.bind_eq_some_iff.mp h
    obtain rfl := Option.some.inj h
    exact .awaitSideband hr hs
  · rename_i hr
    obtain ⟨_, hs, h⟩ := Option.bind_eq_some_iff.mp h
    obtain rfl := Option.some.inj h
    exact .reportDead hr hs
  all_goals cases h

lemma step_effect (h : pc.step ch a = some (ch', pc')) : Effect ch pc a ch' pc' := by
  cases a with
  | callRead | connect | failConnect =>
    simp only [step] at h
    split at h
    · rename_i hn
      cases h
      constructor
      exact hn
    all_goals cases h
  | killRead =>
    obtain ⟨hr, h⟩ := Option.ite_none_left_eq_some.mp h
    obtain ⟨_, hk, h⟩ := Option.bind_eq_some_iff.mp h
    obtain ⟨_, hd, h⟩ := Option.bind_eq_some_iff.mp h
    cases h
    exact .killRead hr hk hd
  | callWrite bytes =>
    simp only [step] at h
    split at h
    · rename_i hn
      obtain ⟨_, hs, h⟩ := Option.bind_eq_some_iff.mp h
      cases h
      exact .callWrite hn hs
    all_goals cases h
  | sendRemovePeer =>
    simp only [step] at h
    split at h
    · rename_i hn
      obtain ⟨_, hs, h⟩ := Option.bind_eq_some_iff.mp h
      cases h
      exact .sendRemovePeer hn hs
    all_goals cases h
  | recvOut | recvKill | sendLocal | sendKill =>
    simp only [step] at h
    split at h
    · rename_i hr
      obtain ⟨_, hs, h⟩ := Option.bind_eq_some_iff.mp h
      cases h
      constructor
      · exact hr
      · exact hs
    · cases h
  | write ok =>
    simp only [step] at h
    split at h
    · rename_i pkt hr
      obtain ⟨hu, h⟩ := Option.ite_none_right_eq_some.mp h
      cases h
      exact .write hr hu
    · cases h
  | unwind =>
    obtain ⟨_, hu, h⟩ := Option.map_eq_some_iff.mp h
    cases h
    exact unwind_effect hu
  | read data =>
    obtain ⟨⟨hr, hu, hd⟩, h⟩ := Option.ite_none_right_eq_some.mp h
    cases h
    exact .read hr hu hd
  | failRead =>
    obtain ⟨⟨hr, hu⟩, h⟩ := Option.ite_none_right_eq_some.mp h
    cases h
    exact .failRead hr hu

lemma effect_not_panics (h : Effect ch pc a ch' pc') : ¬ pc.Panics a := by
  cases h with
  | write _ hu => exact fun hp => Bool.noConfusion (hu.symm.trans hp.2)
  | read _ hu | failRead _ hu => exact fun hp => Bool.noConfusion (hu.symm.trans hp.2)
  | sendKill _ hs =>
    have hopen := (Chan.send_eq_some.mp hs).1.1
    exact fun hp => Bool.noConfusion (hp.2.symm.trans hopen)
  | _ => exact id

lemma effect_evolves (h : Effect ch pc a ch' pc') :
    ch.serverChan.Grows ch'.serverChan ∧ Evolves pc pc' := by
  cases h with
  | callRead hn | connect hn | failConnect hn =>
    have hc : pc.Connecting := connecting_iff.mpr ⟨_, hn⟩
    exact ⟨.same, .of_connecting hc rfl rfl⟩
  | killRead => exact ⟨.same, .of_same rfl rfl rfl rfl (Nat.sub_le _ _)⟩
  | callWrite _ hs => exact ⟨.sent _ hs, .of_same rfl rfl rfl rfl le_rfl⟩
  | sendRemovePeer hn =>
    refine ⟨.same, fun _ => by simp [Connecting], fun _ => le_rfl, fun hd => ?_,
      fun _ => .inl rfl, rfl, le_rfl⟩
    rintro (hr | ⟨hr, hu | hu⟩)
    · exact hd (.inl hr)
    · exact hd (.inr ⟨hr, .inl hu⟩)
    · simp [Connecting] at hu
  | recvOut hr ho =>
    have hd : pc.Draining := .inl hr
    exact ⟨.same, id, fun _ => le_rfl, fun hn => absurd hd hn, fun hn => absurd hd hn,
      Chan.recv_cap ho, Chan.recv_length ho⟩
  | write hr hu =>
    have hd : pc.Draining := .inr ⟨by rw [hr]; rfl, .inl hu⟩
    exact ⟨.same, id, fun _ => le_rfl, fun hn => absurd hd hn, fun _ => .inl rfl, rfl, le_rfl⟩
  | recvKill | closeKill | killSideband | awaitSideband | reportDead =>
    exact ⟨.same, .of_unwinding rfl rfl nofun rfl (.inl rfl)⟩
  | closeOut => exact ⟨.same, .of_unwinding rfl rfl nofun rfl (.inr rfl)⟩
  | read | failRead | sendLocal | sendKill => exact ⟨.same, .of_same rfl rfl rfl rfl le_rfl⟩

end PeerConn

end XbTunnel.Daemon
