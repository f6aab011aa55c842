import XbTunnel.Daemon.Datagram
import XbTunnel.Daemon.Lan
import XbTunnel.Daemon.Shutdown
import XbTunnel.Lib.Flows

/-! The way of a captured packet to the peers: `runpcap`, `remoteChan`, the state manager, the `out`
channel of a connection and its `run`. -/

namespace XbTunnel.Daemon

open Common Udp Remote StateManager Network Lib.Channels Lib.Flows Lib.Maps Lib.Runs

namespace LocalManager

def held : PcapPhase → List UdpPacket
  | .registering packet | .forwarding packet => [packet]
  | .polling | .capturing | .returned => []

def captures (i : HandleId) (_ : LocalManager) : Action → List UdpPacket
  | .capture j pkt => if j = i then (parsePcapPacket pkt).toList else []
  | _ => []

def forwards (i : HandleId) (lm : LocalManager) : Action → List UdpPacket
  | .forward j => if j = i then held (lm.pcap i) else []
  | _ => []

variable {ch ch' : Shared} {lm lm' : LocalManager} {a : Action}

lemma held_effect (h : lm.Effect ch a ch' lm') (i : HandleId) :
    held (lm.pcap i) ++ captures i lm a = forwards i lm a ++ held (lm'.pcap i) := by
  have hset : ∀ {j phase}, held (lm.pcap j) = held phase →
      held (lm.pcap i) = held ((lm.setPcap j phase).pcap i) := by
    intro j phase hj
    by_cases hi : i = j
    · rw [hi, setPcap_self, hj]
    · rw [setPcap_of_ne hi]
  cases h with
  | @capture j pkt packet hp hpkt =>
    by_cases hj : j = i
    · subst hj
      rw [setPcap_self]
      split_ifs <;> simp [captures, forwards, held, hp, hpkt]
    · rw [setPcap_of_ne (Ne.symm hj)]
      simp [captures, forwards, hj]
  | recvStop hp | poll hp | miss hp | sendXbox hp =>
    simp only [captures, forwards, List.append_nil, List.nil_append]
    exact hset (by rw [hp]; rfl)
  | @forward j packet _ hp =>
    by_cases hj : j = i
    · subst hj
      simp [captures, forwards, held]
    · rw [setPcap_of_ne (Ne.symm hj)]
      simp [captures, forwards, hj]
  | _ => simp [captures, forwards]

end LocalManager

namespace PeerConn

def writing : RunPhase → List UdpPacket
  | .writing pkt => [pkt]
  | _ => []

def fetched (pc : PeerConn) : Action → List UdpPacket
  | .recvOut => pc.out.buf.head?.toList
  | _ => []

def written (pc : PeerConn) : Action → List UdpPacket
  | .write _ => writing pc.run
  | _ => []

variable {ch ch' : Shared} {pc pc' : PeerConn} {a : Action}

lemma out_effect (h : pc.Effect ch a ch' pc') : pc.out.buf = fetched pc a ++ pc'.out.buf := by
  cases h with
  | recvOut _ hr =>
    obtain ⟨rest, hb, rfl⟩ := Chan.recv_eq_some.mp hr
    simp [fetched, hb]
  | _ => rfl

lemma writing_effect (h : pc.Effect ch a ch' pc') :
    writing pc.run ++ fetched pc a = written pc a ++ writing pc'.run := by
  cases h with
  | recvOut hr ho =>
    obtain ⟨rest, hb, rfl⟩ := Chan.recv_eq_some.mp ho
    simp [fetched, written, writing, hr, hb]
  | @write _ ok hr => cases ok <;> simp [fetched, written, writing]
  | recvKill hr | closeKill hr | closeOut hr | killSideband hr | awaitSideband hr
  | reportDead hr => simp [fetched, written, writing, hr]
  | _ => simp [fetched, written]

end PeerConn

namespace Network

def issued {β : Type} (f : Op → Option β) (w : World) : Action → List β
  | .takeEvent e o => (turn w.sm e o).2.filterMap f
  | .takeKill o => (cleanup o).filterMap f
  | _ => []

def performed {β : Type} (f : Op → Option β) (w : World) : Action → List β
  | .op => w.ops.head?.toList.filterMap f
  | _ => []

def pending {β : Type} (f : Op → Option β) : Stage World Action β :=
  ⟨issued f, fun w => w.ops.filterMap f, performed f⟩

lemma pending_conserves (token : Token) {β : Type} (f : Op → Option β) (Inv : World → Prop) :
    (pending f).Conserves (Steps (step token)) Inv := by
  intro w a v _ h
  simp only [pending, step_ops h]
  cases step_effect h with
  | takeEvent _ ho | takeKill _ ho => simp [issued, performed, opsAfter, ho]
  | @op op _ _ ho => cases hs : f op <;> simp [issued, performed, opsAfter, ho, hs]
  | _ => simp [issued, performed, opsAfter]

lemma performed_op {β : Type} {f : Op → Option β} {w : World} {op : Op} {ops : List Op}
    (h : w.ops = op :: ops) : performed f w .op = (f op).toList := by
  cases hs : f op <;> simp [performed, h, hs]

end Network

namespace Traffic

def captures (i : HandleId) (w : World) : Action → List UdpPacket
  | .lm a => LocalManager.captures i w.lm a
  | _ => []

def forwardsOf (i : HandleId) (w : World) : Action → List UdpPacket
  | .lm a => LocalManager.forwards i w.lm a
  | _ => []

def forwards (w : World) : Action → List UdpPacket
  | .lm (.forward i) => LocalManager.held (w.lm.pcap i)
  | _ => []

def taken (_ : World) : Action → List UdpPacket
  | .takeEvent (.remote packet) _ => [packet]
  | _ => []

def sendOf (addr : ℕ) : Op → Option UdpPacket
  | .sendOut pc packet => if pc.addr = addr then some packet else none
  | _ => none

def routed (addr : ℕ) : World → Action → List UdpPacket := issued (sendOf addr)

def queued (addr : ℕ) : World → Action → List UdpPacket := performed (sendOf addr)

def fetched (addr : ℕ) (w : World) : Action → List UdpPacket
  | .pc addr' a => if addr' = addr then (w.pcs addr).fetched a else []
  | _ => []

def written (addr : ℕ) (w : World) : Action → List UdpPacket
  | .pc addr' a => if addr' = addr then (w.pcs addr).written a else []
  | _ => []

def datagrams (addr : ℕ) (w : World) (a : Action) : List Bytes :=
  (written addr w a).map UdpPacket.asUdpData

def capturing (i : HandleId) : Stage World Action UdpPacket :=
  ⟨captures i, fun w => LocalManager.held (w.lm.pcap i), forwardsOf i⟩

def remoteChan : Stage World Action UdpPacket := ⟨forwards, fun w => w.ch.remoteChan.buf, taken⟩

def sending (addr : ℕ) : Stage World Action UdpPacket := pending (sendOf addr)

def outChan (addr : ℕ) : Stage World Action UdpPacket :=
  ⟨queued addr, fun w => (w.pcs addr).out.buf, fetched addr⟩

def writing (addr : ℕ) : Stage World Action UdpPacket :=
  ⟨fetched addr, fun w => PeerConn.writing (w.pcs addr).run, written addr⟩

def delivery (addr : ℕ) : Stage World Action UdpPacket :=
  ((sending addr).comp (outChan addr)).comp (writing addr)

def isBroadcast (packet : UdpPacket) : Bool := packet.dst.isBroadcast

def choosing (addr : ℕ) : Stage World Action UdpPacket :=
  ⟨fun w a => (taken w a).filter isBroadcast, fun _ => [], routed addr⟩

def uplink (addr : ℕ) : Stage World Action UdpPacket :=
  ((remoteChan.filter isBroadcast).comp (choosing addr)).comp (delivery addr)

structure Inv (w : World) : Prop where
  refs : Refs w
  sm : StateManager.Inv w.sm
  fresh : ∀ addr, w.nextPc ≤ addr → w.pcs addr = .new addr emptyPeerId .notStarted

variable {token : Token} {w v : World} {a : Action} {addr : ℕ}

section Fresh

lemma fresh_still {b : PeerConn.Action} {ch ch' : Shared} {pc : PeerConn}
    (h : (PeerConn.new addr emptyPeerId .notStarted).Effect ch b ch' pc) : False := by
  cases h with
  | callRead h | callWrite h | connect h | failConnect h | sendRemovePeer h | recvOut h
  | recvKill h | write h | closeKill h | closeOut h | killSideband h | awaitSideband h
  | reportDead h | read h | failRead h | sendLocal h | sendKill h => cases h
  | killRead h => exact h rfl

lemma fresh_step (hi : Inv w) (h : step token w a = some v) (hn : v.nextPc ≤ addr) :
    v.pcs addr = .new addr emptyPeerId .notStarted := by
  have hw := hi.fresh addr ((step_nextPc h).trans hn)
  have hlt := (step_nextPc h).trans hn
  have hhead : ∀ op ∈ w.ops.head?, ∀ ref ∈ target op, ref.addr ≠ addr := by
    intro op ho ref hr
    exact ((hi.refs.pending op (List.mem_of_mem_head? ho) ref hr).1.trans_le hlt).ne
  rcases step_moves h addr with ho | hm
  · have hle := ho.nextPc ▸ ho.fresh ▸ hn
    exact absurd hle (Nat.not_succ_le_self _)
  · generalize v.pcs addr = pc at hm ⊢
    cases hm with
    | stays => exact hw
    | starts ha _ =>
      subst ha
      cases step_effect h with
      | startRun hlt' => exact absurd hlt' (Nat.not_lt.mpr hlt)
    | acts _ he => exact (fresh_still (hw ▸ he)).elim
    | takesKill _ ho hr => exact absurd hr (hhead _ ho _ rfl)
    | killed _ ho hr => exact absurd hr (hhead _ ho _ rfl)
    | read _ ho hr => exact absurd hr (hhead _ ho _ rfl)
    | sent _ ho hr => exact absurd hr (hhead _ ho _ rfl)
    | takesDead _ ho hr => exact absurd hr (hhead _ ho _ rfl)

end Fresh

lemma sm_step (hi : StateManager.Inv w.sm) (h : step token w a = some v) :
    StateManager.Inv v.sm := by
  by_cases ha : ∀ e o, a ≠ .takeEvent e o
  · rw [step_sm h ha]
    exact hi
  · push Not at ha
    obtain ⟨e, o, rfl⟩ := ha
    cases step_effect h with
    | takeEvent => exact handle_inv hi e o

lemma Inv.step (hi : Inv w) (h : step token w a = some v) : Inv v :=
  ⟨hi.refs.step h, sm_step hi.sm h, fun _ => fresh_step hi h⟩

lemma inv_init (handles : ℕ) : Inv (init handles) := ⟨refs_init handles, init_inv, fun _ _ => rfl⟩

lemma field_setPc {β : Type} (f : PeerConn → β) {pc : PeerConn} {addr' : ℕ}
    (h : f pc = f (w.pcs addr')) : f ((setPc addr' pc w).pcs addr) = f (w.pcs addr) := by
  by_cases ha : addr = addr'
  · rw [ha, setPc_self, h]
  · rw [setPc_of_ne ha]

lemma field_dial {β : Type} (hi : Inv w) {peerId : PeerId} {initiator : Bool}
    (h : dial peerId initiator w = some v) (f : PeerConn → β)
    (hf : f (.new w.nextPc peerId (.connecting initiator)) =
      f (.new w.nextPc emptyPeerId .notStarted)) :
    f (v.pcs addr) = f (w.pcs addr) := by
  obtain ⟨_, -, rfl⟩ := dial_eq_some h
  exact field_setPc f (hf.trans (congrArg f (hi.fresh _ le_rfl)).symm)

section Stages

variable (token)

lemma capturing_conserves (i : HandleId) :
    (capturing i).Conserves (Steps (Network.step token)) Inv := by
  intro w a v _ h
  cases step_effect h with
  | lm he => exact LocalManager.held_effect he i
  | op _ hd =>
    cases hd with
    | dial hd =>
      obtain ⟨_, -, rfl⟩ := dial_eq_some hd
      exact List.append_nil _
    | _ => exact List.append_nil _
  | openConn hd =>
    obtain ⟨_, -, rfl⟩ := dial_eq_some hd
    exact List.append_nil _
  | reconnect he => cases he <;> exact List.append_nil _
  | main he => cases he <;> exact List.append_nil _
  | _ => exact List.append_nil _

lemma remoteChan_conserves : remoteChan.Conserves (Steps (Network.step token)) Inv := by
  intro w a v _ h
  cases step_effect h with
  | takeEvent _ _ _ he =>
    cases recvEvent_received he with
    | remote hr =>
      obtain ⟨rest, hb, rfl⟩ := Chan.recv_eq_some.mp hr
      simp [remoteChan, forwards, taken, hb]
    | _ => exact List.append_nil _
  | lm he =>
    cases he with
    | forward hp hs => simp [remoteChan, forwards, taken, LocalManager.held, hp, Chan.send_buf hs]
    | _ => exact List.append_nil _
  | op _ hd =>
    cases hd with
    | dial hd =>
      obtain ⟨_, -, rfl⟩ := dial_eq_some hd
      exact List.append_nil _
    | _ => exact List.append_nil _
  | openConn hd =>
    obtain ⟨_, -, rfl⟩ := dial_eq_some hd
    exact List.append_nil _
  | pc he => cases he <;> exact List.append_nil _
  | client _ he => cases he <;> exact List.append_nil _
  | reconnect he => cases he <;> exact List.append_nil _
  | main he => cases he <;> exact List.append_nil _
  | _ => exact List.append_nil _

lemma outChan_conserves (addr : ℕ) :
    (outChan addr).Conserves (Steps (Network.step token)) Inv := by
  intro w a v hi h
  simp only [outChan]
  cases step_effect h with
  | @op op ops v ho hd =>
    rw [queued, performed_op ho]
    cases hd with
    | @sendOut pc packet out hs =>
      by_cases ha : pc.addr = addr
      · subst ha
        simp [sendOf, fetched, Chan.send_buf hs]
      · simp [sendOf, fetched, ha, setPc_of_ne (Ne.symm ha)]
    | recvKill | sendKill | sendRead | recvDead =>
      simp [sendOf, fetched, field_setPc fun pc => pc.out.buf]
    | dial hd => simp [sendOf, fetched, field_dial hi hd (fun pc => pc.out.buf) rfl]
    | _ => exact List.append_nil _
  | openConn hd => simp [queued, performed, fetched, field_dial hi hd (fun pc => pc.out.buf) rfl]
  | startRun => simp [queued, performed, fetched, field_setPc (fun pc => pc.out.buf), PeerConn.start]
  | @pc addr' a ch pc he =>
    by_cases ha : addr' = addr
    · subst ha
      simpa [queued, performed, fetched] using PeerConn.out_effect he
    · simp [queued, performed, fetched, ha, setPc_of_ne (Ne.symm ha)]
  | reconnect he => cases he <;> exact List.append_nil _
  | main he => cases he <;> exact List.append_nil _
  | _ => exact List.append_nil _

lemma writing_conserves (addr : ℕ) :
    (writing addr).Conserves (Steps (Network.step token)) Inv := by
  intro w a v hi h
  simp only [writing]
  cases step_effect h with
  | op _ hd =>
    cases hd with
    | recvKill | sendKill | sendRead | recvDead | sendOut =>
      simp [written, fetched, field_setPc fun pc => pc.run]
    | dial hd => simp [written, fetched, field_dial hi hd (fun pc => pc.run) rfl]
    | _ => exact List.append_nil _
  | openConn hd => simp [written, fetched, field_dial hi hd (fun pc => pc.run) rfl]
  | @startRun addr' _ hr =>
    have hw : PeerConn.writing (w.pcs addr').start.run = PeerConn.writing (w.pcs addr').run := by
      rw [hr]
      rfl
    simp [written, fetched, field_setPc (fun pc => PeerConn.writing pc.run) hw]
  | @pc addr' a ch pc he =>
    by_cases ha : addr' = addr
    · subst ha
      simpa [written, fetched] using PeerConn.writing_effect he
    · simp [written, fetched, ha, setPc_of_ne (Ne.symm ha)]
  | reconnect he => cases he <;> exact List.append_nil _
  | main he => cases he <;> exact List.append_nil _
  | _ => exact List.append_nil _

end Stages

section Routing

variable {o : Orders} {packet : UdpPacket}

lemma sends_eq_replicate (order : PcOrder) (addr : ℕ) :
    (order.map fun e => Op.sendOut e.2 packet).filterMap (sendOf addr) =
      List.replicate (((order.map Sigma.snd).map PcRef.addr).count addr) packet := by
  induction order with
  | nil => rfl
  | cons e order ih =>
    by_cases ha : e.2.addr = addr
    · simp [sendOf, ha, ih, List.replicate_succ]
    · simpa [sendOf, ha] using ih

lemma order_sends (hi : Inv w) (ho : o.Valid w.sm.peerConnMap) (addr : ℕ) (packet : UdpPacket) :
    ((o.first.map fun e => Op.sendOut e.2 packet).filterMap (sendOf addr)).Sublist [packet] := by
  have hn := Shutdown.order_nodup hi.refs ho.1
  rw [sends_eq_replicate]
  exact List.replicate_sublist_replicate packet |>.mpr (List.nodup_iff_count_le_one.mp hn addr)

lemma routed_sublist (hi : Inv w) (h : step token w a = some v) (addr : ℕ) :
    (routed addr w a).Sublist ((taken w a).filter isBroadcast) := by
  cases step_effect h with
  | @takeEvent e o ch _ _ hv =>
    cases e with
    | remote packet =>
      simp only [routed, issued, taken, turn, handle, sendUpdate, if_true, List.filterMap_append,
        hi.sm.xboxPeerMap, Finmap.lookup_empty]
      cases hb : packet.dst.isBroadcast with
      | true =>
        have hs := order_sends hi hv addr packet
        simpa only [if_true, sendOf, List.filterMap_cons, List.filterMap_nil, List.append_nil,
          List.filter_cons, isBroadcast, hb, List.filter_nil] using hs
      | false => simp [sendOf, List.filterMap_cons]
    | localState ls =>
      -- the daemon knows of no peers, so there is nobody to dial
      have hnone : routed addr w (.takeEvent (.localState ls) o) = [] := by
        simp [routed, issued, turn, handle, hi.sm.peers, resolvePeerConns, hasId, sendUpdate, sendOf,
          List.filterMap_flatMap, List.filterMap_cons]
      rw [hnone]
      exact List.nil_sublist _
    | pcSignal pcSignal =>
      simp only [routed, issued, turn, handle, sendUpdate]
      split <;> simp [sendOf, List.filterMap_cons]
    | newPeerConn | removePeer | newXbox =>
      simp [routed, issued, turn, handle, sendUpdate, sendOf, List.filterMap_cons]
  | takeKill => simp [routed, issued, taken, cleanup, sendOf, List.filterMap_cons]
  | _ => exact List.nil_sublist _

end Routing

/-- What becomes of the captured packets. Nothing gets lost on the way to the state manager, nor from
there to the datagrams of a connection, and everything stays in order; in between, a connection gets
broadcast packets only, and each of them at most once. -/
structure Carries (addr : ℕ) (tr : List (World × Action)) (u : World) : Prop where
  inHand : ∀ i, total (captures i) tr =
    total (forwardsOf i) tr ++ LocalManager.held (u.lm.pcap i)
  inQueue : total forwards tr = total taken tr ++ u.ch.remoteChan.buf
  choice : (total (routed addr) tr).Sublist ((total taken tr).filter isBroadcast)
  onTheWay : total (routed addr) tr = total (written addr) tr ++ (delivery addr).store u
  wire : ((total (datagrams addr) tr).map parseRemoteUdpPacket).Sublist
    ((total forwards tr).filter isBroadcast)

lemma delivery_conserves (token : Token) (addr : ℕ) :
    (delivery addr).Conserves (Steps (Network.step token)) Inv :=
  ((pending_conserves token (sendOf addr) Inv).comp (outChan_conserves token addr) fun _ _ => rfl).comp
    (writing_conserves token addr) fun _ _ => rfl

lemma choosing_keeps (token : Token) (addr : ℕ) :
    (choosing addr).Keeps (Steps (Network.step token)) Inv := by
  intro w a v hi h
  simpa only [choosing, List.append_nil, List.nil_append] using routed_sublist hi h addr

lemma uplink_keeps (token : Token) (addr : ℕ) :
    (uplink addr).Keeps (Steps (Network.step token)) Inv :=
  ((((remoteChan_conserves token).keeps.filter isBroadcast).comp (choosing_keeps token addr)
    fun _ _ => rfl).comp (delivery_conserves token addr).keeps) fun _ _ => rfl

lemma parse_datagrams (addr : ℕ) (tr : List (World × Action)) :
    (total (datagrams addr) tr).map parseRemoteUdpPacket = total (written addr) tr := by
  have hd : total (datagrams addr) tr = (total (written addr) tr).map UdpPacket.asUdpData :=
    total_map UdpPacket.asUdpData (written addr) tr
  have hp : parseRemoteUdpPacket ∘ UdpPacket.asUdpData = id := funext UdpPacket.parse_asUdpData
  rw [hd, List.map_map, hp, List.map_id]

section Samples

def helloPacket : UdpPacket := ⟨[1], console, broadcast⟩

def helloToFriend : List Action :=
  [.openConn friend true, .takeEvent (.newPeerConn friendConn) ⟨[], []⟩, .op, .startRun 0,
    .pc 0 .connect, .lm (.poll 0), .lm (.capture 0 Lan.hello), .lm (.sendXbox 0), .lm (.forward 0),
    .takeEvent (.remote helloPacket) friendOnly, .op, .op, .pc 0 .recvOut, .pc 0 (.write true)]

end Samples

end Traffic

end XbTunnel.Daemon
