import XbTunnel.Daemon.Lan
import XbTunnel.Daemon.Moves

/-! Sends on the channels of a connection that its `run` has closed. -/

namespace XbTunnel.Daemon

open Common Udp Remote StateManager Lib.Channels Lib.Runs Network

namespace PeerConn

def RunPhase.killClosed : RunPhase → Bool
  | .closeOut | .killSideband | .awaitSideband | .reportDead | .returned => true
  | .notStarted | .selecting | .writing _ | .closeKill => false

def RunPhase.outClosed : RunPhase → Bool
  | .killSideband | .awaitSideband | .reportDead | .returned => true
  | .notStarted | .selecting | .writing _ | .closeKill | .closeOut => false

structure Phased (pc : PeerConn) : Prop where
  kill : pc.kill.closed = pc.run.killClosed
  out : pc.out.closed = pc.run.outClosed

end PeerConn

namespace Closing

def Late (w : World) : Op → Prop
  | .sendKill pc => (w.pcs pc.addr).kill.closed = true
  | .sendOut pc _ => (w.pcs pc.addr).out.closed = true
  | .recvKill _ | .dial _ _ | .sendRead _ _ | .sendServer _ | .recvDead _ | .sendDead => False

structure NoLateSend (w : World) : Prop where
  manager : ∀ op ∈ w.ops.head?, ¬ Late w op
  reader : ∀ addr, (w.pcs addr).reader = .killing → (w.pcs addr).kill.closed = false

def Gone (w : World) : Op → Prop
  | .sendKill pc => (w.pcs pc.addr).run.killClosed = true
  | .sendOut pc _ => (w.pcs pc.addr).run.outClosed = true
  | .recvKill _ | .dial _ _ | .sendRead _ _ | .sendServer _ | .recvDead _ | .sendDead => False

def KillOpen (w : World) (ref : PcRef) : Prop := (w.pcs ref.addr).kill.closed = false

def OutOpen (w : World) (ref : PcRef) : Prop := (w.pcs ref.addr).out.closed = false

/-- The connections that the event concerns have not closed the channel that it concerns. -/
def EventSpares (w : World) : Event → Prop
  | .localState _ => ∀ pid ref, w.sm.peerConnMap.lookup pid = some ref →
      hasId (w.sm.localState.peers.getD []) pid = false → KillOpen w ref
  | .remote packet =>
    if packet.dst.isBroadcast then
      ∀ pid ref, w.sm.peerConnMap.lookup pid = some ref → OutOpen w ref
    else ∀ peerId ∈ w.sm.xboxPeerMap.lookup packet.dst,
      ∀ ref ∈ w.sm.peerConnMap.lookup peerId, OutOpen w ref
  | .pcSignal _ | .newPeerConn _ | .removePeer _ | .newXbox _ => True

def killSent : Op → Option ℕ
  | .sendKill pc => some pc.addr
  | _ => none

def outSent : Op → Option ℕ
  | .sendOut pc _ => some pc.addr
  | _ => none

structure ClosesUnused (w : World) (addr : ℕ) : Prop where
  reader : (w.pcs addr).run = .closeKill → (w.pcs addr).reader ≠ .killing
  kill : (w.pcs addr).run = .closeKill → ∀ op ∈ w.ops, killSent op ≠ some addr
  out : (w.pcs addr).run = .closeOut → ∀ op ∈ w.ops, outSent op ≠ some addr

/-- The state manager turns to a connection only while the channel is open, which is not closed as
long as someone has to send on it. -/
def SparesClosed (w : World) : Action → Prop
  | .takeEvent e _ => EventSpares w e
  | .takeKill _ => ∀ pid ref, w.sm.peerConnMap.lookup pid = some ref → KillOpen w ref
  | .pc addr .unwind => ClosesUnused w addr
  | .pc addr .failRead => (w.pcs addr).kill.closed = false
  | _ => True

structure Inv (w : World) : Prop where
  refs : Refs w
  phased : ∀ addr, (w.pcs addr).Phased
  pending : ∀ op ∈ w.ops, ¬ Late w op
  reader : ∀ addr, (w.pcs addr).reader = .killing → (w.pcs addr).kill.closed = false

variable {token : Token} {w v : World} {a : Action} {op : Op} {addr : ℕ}

lemma late_iff (h : ∀ addr, (w.pcs addr).Phased) : Late w op ↔ Gone w op := by
  cases op with
  | sendKill pc => rw [Late, Gone, (h pc.addr).kill]
  | sendOut pc packet => rw [Late, Gone, (h pc.addr).out]
  | _ => rfl

lemma phased_moves {pc : PeerConn} (hp : (w.pcs addr).Phased) (h : Moves w a addr pc) :
    pc.Phased := by
  have hrun : ∀ {r}, (w.pcs addr).run = r → (w.pcs addr).kill.closed = r.killClosed ∧
      (w.pcs addr).out.closed = r.outClosed := by
    rintro r rfl
    exact ⟨hp.kill, hp.out⟩
  cases h with
  | stays => exact hp
  | starts _ hr => exact ⟨(hrun hr).1, (hrun hr).2⟩
  | takesKill _ _ _ hk => exact ⟨(Chan.drop_closed hk).trans hp.kill, hp.out⟩
  | killed _ _ _ hk => exact ⟨(Chan.send_closed hk).trans hp.kill, hp.out⟩
  | read => exact ⟨hp.kill, hp.out⟩
  | sent _ _ _ ho => exact ⟨hp.kill, (Chan.send_closed ho).trans hp.out⟩
  | takesDead => exact ⟨hp.kill, hp.out⟩
  | acts _ he =>
    cases he with
    | recvOut hr ho => exact ⟨(hrun hr).1, (Chan.recv_closed ho).trans (hrun hr).2⟩
    | recvKill hr hk => exact ⟨(Chan.drop_closed hk).trans (hrun hr).1, (hrun hr).2⟩
    | @write _ ok hr => cases ok <;> exact ⟨(hrun hr).1, (hrun hr).2⟩
    | closeKill hr => exact ⟨rfl, (hrun hr).2⟩
    | closeOut hr => exact ⟨(hrun hr).1, rfl⟩
    | killSideband hr => exact ⟨(hrun hr).1, (hrun hr).2⟩
    | awaitSideband hr => exact ⟨(hrun hr).1, (hrun hr).2⟩
    | reportDead hr => exact ⟨(hrun hr).1, (hrun hr).2⟩
    | sendKill _ hk => exact ⟨(Chan.send_closed hk).trans hp.kill, hp.out⟩
    | _ => exact ⟨hp.kill, hp.out⟩

lemma phased_step (hp : ∀ addr, (w.pcs addr).Phased) (h : step token w a = some v) (addr : ℕ) :
    (v.pcs addr).Phased := by
  rcases step_moves h addr with ho | hm
  · obtain ⟨peerId, initiator, hpc⟩ := ho.pc
    rw [hpc]
    exact ⟨rfl, rfl⟩
  · exact phased_moves (hp addr) hm

lemma closed_moves {pc : PeerConn} (h : Moves w a addr pc) :
    pc.run.killClosed = (w.pcs addr).run.killClosed ∧
      pc.run.outClosed = (w.pcs addr).run.outClosed ∨
    a = .pc addr .unwind ∧ ((w.pcs addr).run = .closeKill ∧ pc.run = .closeOut ∨
      (w.pcs addr).run = .closeOut ∧ pc.run = .killSideband) := by
  cases h with
  | starts _ hr =>
    rw [hr]
    exact .inl ⟨rfl, rfl⟩
  | acts ha he =>
    cases he with
    | recvOut hr | recvKill hr | killSideband hr | awaitSideband hr | reportDead hr =>
      rw [hr]
      exact .inl ⟨rfl, rfl⟩
    | @write _ ok hr =>
      rw [hr]
      cases ok <;> exact .inl ⟨rfl, rfl⟩
    | closeKill hr => exact .inr ⟨ha, .inl ⟨hr, rfl⟩⟩
    | closeOut hr => exact .inr ⟨ha, .inr ⟨hr, rfl⟩⟩
    | _ => exact .inl ⟨rfl, rfl⟩
  | _ => exact .inl ⟨rfl, rfl⟩

lemma killClosed_moves {pc : PeerConn} (h : Moves w a addr pc) :
    pc.run.killClosed = (w.pcs addr).run.killClosed ∨
      a = .pc addr .unwind ∧ (w.pcs addr).run = .closeKill := by
  rcases closed_moves h with ⟨hk, -⟩ | ⟨ha, ⟨hr, -⟩ | ⟨hr, hpc⟩⟩
  · exact .inl hk
  · exact .inr ⟨ha, hr⟩
  · rw [hr, hpc]
    exact .inl rfl

lemma outClosed_moves {pc : PeerConn} (h : Moves w a addr pc) :
    pc.run.outClosed = (w.pcs addr).run.outClosed ∨
      a = .pc addr .unwind ∧ (w.pcs addr).run = .closeOut := by
  rcases closed_moves h with ⟨-, ho⟩ | ⟨ha, ⟨hr, hpc⟩ | ⟨hr, -⟩⟩
  · exact .inl ho
  · rw [hr, hpc]
    exact .inl rfl
  · exact .inr ⟨ha, hr⟩

lemma killing_moves {pc : PeerConn} (h : Moves w a addr pc) (hk : pc.reader = .killing) :
    (w.pcs addr).reader = .killing ∨ a = .pc addr .failRead := by
  cases h with
  | starts => cases hk
  | acts ha he =>
    cases he with
    | read | sendLocal | sendKill => cases hk
    | failRead => exact .inr ha
    | _ => exact .inl hk
  | _ => exact .inl hk

lemma gone_cases (h : step token w a = some v) (hk : ∀ ref ∈ target op, Known w ref)
    (hg : Gone v op) : Gone w op ∨
      (∃ pc, op = .sendKill pc ∧ a = .pc pc.addr .unwind ∧ (w.pcs pc.addr).run = .closeKill) ∨
      ∃ pc packet, op = .sendOut pc packet ∧ a = .pc pc.addr .unwind ∧
        (w.pcs pc.addr).run = .closeOut := by
  cases op with
  | sendKill pc =>
    rcases killClosed_moves ((hk pc rfl).moves h) with he | ⟨ha, hr⟩
    · exact .inl (he.symm.trans hg)
    · exact .inr (.inl ⟨pc, rfl, ha, hr⟩)
  | sendOut pc packet =>
    rcases outClosed_moves ((hk pc rfl).moves h) with he | ⟨ha, hr⟩
    · exact .inl (he.symm.trans hg)
    · exact .inr (.inr ⟨pc, packet, rfl, ha, hr⟩)
  | _ => exact hg.elim

lemma late_cases (hi : Inv w) (h : step token w a = some v) (ho : op ∈ v.ops) (hl : Late v op) :
    Late w op ∨ ∃ addr, a = .pc addr .unwind ∧ ¬ ClosesUnused w addr := by
  have hmem := ho
  rw [step_ops h] at hmem
  rcases gone_cases h (fun ref => hi.refs.opsAfter ref h hmem)
    ((late_iff (phased_step hi.phased h)).mp hl) with
    hg | ⟨pc, rfl, rfl, hr⟩ | ⟨pc, packet, rfl, rfl, hr⟩
  · exact .inl ((late_iff hi.phased).mpr hg)
  · exact .inr ⟨pc.addr, rfl, fun hc => hc.kill hr _ hmem rfl⟩
  · exact .inr ⟨pc.addr, rfl, fun hc => hc.out hr _ hmem rfl⟩

lemma resolve_spared {ls : LocalState} {o : Orders} (hv : o.Valid w.sm.peerConnMap)
    (hs : EventSpares w (.localState ls))
    (ho : op ∈ resolvePeerConns ls.userId w.sm.peerConnMap w.sm.localState.peers o.first o.second) :
    ¬ Late w op := by
  rw [resolvePeerConns, List.append_assoc, List.mem_append, List.mem_append] at ho
  rcases ho with ho | ho | ho
  · split_ifs at ho
    · obtain ⟨pc, -, rfl⟩ := mem_map_order hv.1 ho
      exact id
    · cases ho
  · obtain ⟨peer, -, ho⟩ := List.mem_flatMap.mp ho
    split_ifs at ho
    · obtain rfl := List.mem_singleton.mp ho
      exact id
    · obtain rfl := List.mem_singleton.mp ho
      exact id
    · cases ho
  · obtain ⟨⟨pid, pc⟩, he, ho⟩ := List.mem_flatMap.mp ho
    split_ifs at ho with hid
    · cases ho
    · obtain rfl := List.mem_singleton.mp ho
      have hopen := hs pid pc (hv.2.mem_iff.mp he) (Bool.eq_false_iff.mpr hid)
      exact fun hl => Bool.noConfusion (hopen.symm.trans hl)

lemma turn_spared {e : Event} {o : Orders} (hv : o.Valid w.sm.peerConnMap) (hs : EventSpares w e)
    (ho : op ∈ (turn w.sm e o).2) : ¬ Late w op := by
  rcases List.mem_append.mp ho with ho | ho
  · cases e with
    | localState ls => exact resolve_spared hv hs ho
    | pcSignal pcSignal =>
      simp only at ho
      split at ho
      · obtain rfl := List.mem_singleton.mp ho
        exact id
      · cases ho
    | remote packet =>
      simp only [EventSpares] at ho hs
      split_ifs at ho hs
      · obtain ⟨pc, ⟨pid, hl⟩, rfl⟩ :=
          mem_map_order (f := fun pc => .sendOut pc packet) hv.1 ho
        exact fun hc => Bool.noConfusion ((hs pid pc hl).symm.trans hc)
      · split at ho
        · rename_i peerId hx
          split at ho
          · rename_i peer hl
            obtain rfl := List.mem_singleton.mp ho
            exact fun hc => Bool.noConfusion ((hs peerId hx peer hl).symm.trans hc)
          · cases ho
        · cases ho
    | newPeerConn | removePeer | newXbox => cases ho
  · split at ho
    · obtain rfl := List.mem_singleton.mp ho
      exact id
    · cases ho

lemma cleanup_spared {o : Orders} (hv : o.Valid w.sm.peerConnMap)
    (hs : ∀ pid ref, w.sm.peerConnMap.lookup pid = some ref → KillOpen w ref)
    (ho : op ∈ cleanup o) : ¬ Late w op := by
  rw [cleanup, List.mem_append, List.mem_append, List.mem_singleton] at ho
  rcases ho with (ho | ho) | rfl
  · obtain ⟨pc, ⟨pid, hl⟩, rfl⟩ := mem_map_order (f := .sendKill) hv.1 ho
    exact fun hc => Bool.noConfusion ((hs pid pc hl).symm.trans hc)
  · obtain ⟨pc, -, rfl⟩ := mem_map_order (f := .recvDead) hv.2 ho
    exact id
  · exact id

lemma opsAfter_spared (hi : Inv w) (h : step token w a = some v) (ha : SparesClosed w a)
    (ho : op ∈ opsAfter w a) : ¬ Late w op := by
  cases step_effect h with
  | takeEvent _ _ hv => exact turn_spared hv ha ho
  | takeKill _ _ hv => exact cleanup_spared hv ha ho
  | op => exact hi.pending op (List.mem_of_mem_tail ho)
  | _ => exact hi.pending op ho

lemma reader_step (hi : Inv w) (h : step token w a = some v) (ha : SparesClosed w a)
    (hk : (v.pcs addr).reader = .killing) : (v.pcs addr).kill.closed = false := by
  rcases step_moves h addr with ho | hm
  · obtain ⟨peerId, initiator, hpc⟩ := ho.pc
    rw [hpc]
    rfl
  · rw [(phased_step hi.phased h addr).kill]
    rcases killing_moves hm hk with hw | rfl
    · rcases killClosed_moves hm with he | ⟨rfl, hr⟩
      · rw [he, ← (hi.phased addr).kill]
        exact hi.reader addr hw
      · exact absurd hw (ClosesUnused.reader ha hr)
    · rcases killClosed_moves hm with he | ⟨he, -⟩
      · rw [he, ← (hi.phased addr).kill]
        exact ha
      · cases he

lemma Inv.step (hi : Inv w) (h : Network.step token w a = some v) (ha : SparesClosed w a) :
    Inv v := by
  refine ⟨hi.refs.step h, phased_step hi.phased h, fun op ho hl => ?_,
    fun _ => reader_step hi h ha⟩
  rcases late_cases hi h ho hl with hl | ⟨addr, rfl, hc⟩
  · rw [step_ops h] at ho
    exact opsAfter_spared hi h ha ho hl
  · exact hc ha

lemma Inv.noLateSend (hi : Inv w) : NoLateSend w :=
  ⟨fun op ho => hi.pending op (List.mem_of_mem_head? ho), hi.reader⟩

lemma inv_init (handles : ℕ) : Inv (init handles) where
  refs := refs_init handles
  phased _ := ⟨rfl, rfl⟩
  pending _ ho := by cases ho
  reader _ hk := by cases hk

theorem no_late_send {handles : ℕ} {tr : List (World × Action)} {u : World}
    (h : Run (Steps (step token)) (init handles) tr u) (ha : AllSteps SparesClosed tr) :
    AllStates NoLateSend tr u := by
  have hstep : ∀ s a t, Inv s → Steps (Network.step token) s a t → SparesClosed s a → Inv t :=
    fun _ _ _ hi hs ha => hi.step hs ha
  obtain ⟨htr, hu⟩ := h.invariant_along hstep ha (inv_init handles)
  exact ⟨fun p hp => (htr p hp).noLateSend, hu.noLateSend⟩

section Samples

instance (w : World) (ref : PcRef) : Decidable (KillOpen w ref) :=
  inferInstanceAs (Decidable (_ = _))

instance (w : World) (ref : PcRef) : Decidable (OutOpen w ref) :=
  inferInstanceAs (Decidable (_ = _))

instance (m : PeerConnMap) (P : PeerId → PcRef → Prop) [∀ pid ref, Decidable (P pid ref)] :
    Decidable (∀ pid ref, m.lookup pid = some ref → P pid ref) :=
  decidable_of_iff (∀ e ∈ m.entries, P e.1 e.2)
    ⟨fun h pid ref hl => h ⟨pid, ref⟩ (Finmap.mem_lookup_iff.mp hl),
      fun h e he => h e.1 e.2 (Finmap.mem_lookup_iff.mpr he)⟩

instance (w : World) : DecidablePred (EventSpares w)
  | .localState _ => inferInstanceAs (Decidable (∀ _ _, _ → _ → _))
  | .remote packet => inferInstanceAs (Decidable (if packet.dst.isBroadcast then _ else _))
  | .pcSignal _ | .newPeerConn _ | .removePeer _ | .newXbox _ => .isTrue trivial

instance (w : World) (addr : ℕ) : Decidable (ClosesUnused w addr) :=
  decidable_of_iff (((w.pcs addr).run = .closeKill → (w.pcs addr).reader ≠ .killing) ∧
    ((w.pcs addr).run = .closeKill → ∀ op ∈ w.ops, killSent op ≠ some addr) ∧
    ((w.pcs addr).run = .closeOut → ∀ op ∈ w.ops, outSent op ≠ some addr))
    ⟨fun h => ⟨h.1, h.2.1, h.2.2⟩, fun h => ⟨h.reader, h.kill, h.out⟩⟩

instance (w : World) : DecidablePred (SparesClosed w)
  | .takeEvent _ _ => inferInstanceAs (Decidable (EventSpares w _))
  | .takeKill _ => inferInstanceAs (Decidable (∀ _ _, _ → _))
  | .pc addr .unwind => inferInstanceAs (Decidable (ClosesUnused w addr))
  | .pc _ .failRead => inferInstanceAs (Decidable (_ = _))
  | .pc _ .callRead | .pc _ .killRead | .pc _ (.callWrite _) | .pc _ .connect
  | .pc _ .failConnect | .pc _ .sendRemovePeer | .pc _ .recvOut | .pc _ .recvKill
  | .pc _ (.write _) | .pc _ (.read _) | .pc _ .sendLocal | .pc _ .sendKill | .op | .openConn _ _
  | .startRun _ | .lm _ | .client _ _ | .reconnect _ | .main _ => .isTrue trivial

def registers : List Action :=
  [.openConn friend true, .takeEvent (.newPeerConn friendConn) ⟨[], []⟩, .op, .startRun 0,
    .pc 0 .connect]

def readFails : List Action :=
  [.pc 0 .failRead, .pc 0 .sendKill, .pc 0 .recvKill, .pc 0 .unwind]

def forwardsHello : List Action :=
  [.lm (.poll 0), .lm (.capture 0 Lan.hello), .lm (.sendXbox 0), .lm (.forward 0),
    .takeEvent (.remote ⟨[1], console, broadcast⟩) friendOnly, .op, .op, .pc 0 .recvOut,
    .pc 0 (.write true)]

theorem forwardsThenFails_not_late : ∃ tr u,
    tr.map Prod.snd = registers ++ forwardsHello ++ readFails ++ [.pc 0 .unwind] ∧
    Run (Steps (step sampleToken)) (init 1) tr u ∧ AllStates NoLateSend tr u := by
  obtain ⟨tr, u, ha, hr, hs⟩ := follow_decide (step sampleToken) SparesClosed (init 1)
    (registers ++ forwardsHello ++ readFails ++ [.pc 0 .unwind]) rfl
  exact ⟨tr, u, ha, hr, no_late_send hr hs⟩

def readFailsThenShutdown : List Action :=
  registers ++ readFails ++ [.main .interrupt, .main .kill, .main .kill, .takeKill friendOnly]

theorem readFailsThenShutdown_panics : ∃ tr u, tr.map Prod.snd = readFailsThenShutdown ∧
    Run (Steps (step sampleToken)) (init 1) tr u ∧ ¬ NoLateSend u := by
  have hend : (exec (step sampleToken) (init 1) readFailsThenShutdown).any (fun u =>
      decide (.sendKill friendConn ∈ u.ops.head? ∧ (u.pcs 0).kill.closed = true)) = true := rfl
  obtain ⟨tr, u, ha, hr, hd⟩ := exec_any _ hend
  obtain ⟨ho, hc⟩ := of_decide_eq_true hd
  exact ⟨tr, u, ha, hr, fun hn => hn.manager _ ho hc⟩

end Samples

end Closing

end XbTunnel.Daemon
