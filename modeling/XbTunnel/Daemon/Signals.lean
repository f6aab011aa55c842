import XbTunnel.Daemon.Moves
import XbTunnel.Lib.Tallies

/-! The channels that goroutines end each other with: `kill`, `dead` and `killChildren`. Counts of
what is sent and what is still to be sent show who has ended. -/

namespace XbTunnel.Daemon

open Common Udp Remote StateManager Network Lib.Channels Lib.Runs Lib.Tallies

namespace LocalManager

def running (lm : LocalManager) : ℕ :=
  total (fun phase => if phase = .returned then 0 else 1) ((List.range lm.handles).map lm.pcap)

def stopsLeft (lm : LocalManager) : ℕ :=
  match lm.run with
  | .selecting | .announcing _ => lm.handles
  | .stopping children => children
  | .returned => 0

def deadsLeft (lm : LocalManager) : ℕ := if lm.run = .returned then 0 else 1

def inNext (lm : LocalManager) (i : HandleId) : ℕ := if lm.pcap i = .capturing then 1 else 0

def isCapture (i : HandleId) : Action → Bool
  | .capture j _ => decide (j = i)
  | _ => false

structure Stops (lm : LocalManager) : Prop where
  open_ : lm.killChildren.closed = false
  cap : lm.killChildren.cap = 10
  stops : lm.killChildren.buf.length + lm.stopsLeft = lm.running
  others : ∀ i, lm.handles ≤ i → lm.pcap i = .returned

variable {ch ch' : Shared} {lm lm' : LocalManager} {a : Action}

lemma running_le (lm : LocalManager) : lm.running ≤ lm.handles := by
  have hle := total_mono (f := fun phase => if phase = PcapPhase.returned then 0 else 1)
    (g := fun _ => 1) (fun phase => by split_ifs <;> simp) ((List.range lm.handles).map lm.pcap)
  rwa [total_eq_length (f := fun _ => 1) fun _ _ => rfl, List.length_map, List.length_range] at hle

lemma running_setPcap (lm : LocalManager) {i : HandleId} (hi : i < lm.handles)
    (phase : PcapPhase) :
    (lm.setPcap i phase).running + (if lm.pcap i = .returned then 0 else 1) =
      lm.running + if phase = .returned then 0 else 1 := by
  have hget : ((List.range lm.handles).map lm.pcap)[i]? = some (lm.pcap i) := by simp [hi]
  have hset := total_set (fun phase => if phase = PcapPhase.returned then 0 else 1) hget phase
  rwa [← map_range_update] at hset

lemma Stops.setPcap (h : lm.Stops) {i : HandleId} {phase : PcapPhase} (hn : lm.pcap i ≠ .returned)
    (hp : phase ≠ .returned) : (lm.setPcap i phase).Stops := by
  have hi : i < lm.handles := by
    by_contra hle
    exact hn (h.others i (Nat.not_lt.mp hle))
  have hr := lm.running_setPcap hi phase
  rw [if_neg hn, if_neg hp] at hr
  refine ⟨h.open_, h.cap, h.stops.trans (Nat.succ.inj hr).symm, fun j hj => ?_⟩
  have hne : j ≠ i := by
    rintro rfl
    exact absurd hi (Nat.not_lt.mpr hj)
  rw [setPcap_of_ne hne]
  exact h.others j hj

lemma Stops.effect (h : lm.Stops) (he : lm.Effect ch a ch' lm') : lm'.Stops := by
  obtain ⟨ho, hc, hs, hothers⟩ := h
  cases he with
  | recvXbox hr | sendNewXbox hr | recvKill hr =>
    refine ⟨ho, hc, ?_, hothers⟩
    rw [stopsLeft, hr] at hs
    exact hs
  | sendDead hr =>
    refine ⟨ho, hc, ?_, hothers⟩
    rw [stopsLeft, hr] at hs
    exact hs
  | stopChild hr hk =>
    refine ⟨(Chan.send_closed hk).trans ho, (Chan.send_cap hk).trans hc, ?_, hothers⟩
    rw [stopsLeft, hr] at hs
    simp only [Chan.send_buf hk, List.length_append, List.length_singleton, stopsLeft]
    exact (by omega : _ + 1 + _ = _ + (_ + 1)).trans hs
  | @poll i hp | @miss i hp =>
    have hn : lm.pcap i ≠ .returned := by rw [hp]; exact nofun
    exact Stops.setPcap ⟨ho, hc, hs, hothers⟩ hn nofun
  | @capture i _ _ hp =>
    have hn : lm.pcap i ≠ .returned := by rw [hp]; exact nofun
    refine Stops.setPcap ⟨ho, hc, hs, hothers⟩ hn ?_
    split_ifs <;> exact nofun
  | @sendXbox i packet xboxes hp =>
    have hx : Stops { lm with xboxes } := ⟨ho, hc, hs, hothers⟩
    have hn : lm.pcap i ≠ .returned := by rw [hp]; exact nofun
    exact hx.setPcap hn nofun
  | @forward i packet _ hp =>
    have hn : lm.pcap i ≠ .returned := by rw [hp]; exact nofun
    exact Stops.setPcap ⟨ho, hc, hs, hothers⟩ hn nofun
  | @recvStop i killChildren hp hk =>
    have hi : i < lm.handles := by
      by_contra hle
      cases hp.symm.trans (hothers i (Nat.not_lt.mp hle))
    have hr := lm.running_setPcap hi .returned
    rw [hp, if_neg nofun, if_pos rfl] at hr
    have hne := List.length_pos_iff.mpr (Chan.ne_nil_of_drop ho hk)
    refine ⟨(Chan.drop_closed hk).trans ho, (Chan.drop_cap hk).trans hc, ?_, fun j hj => ?_⟩
    · have hr' : ({ lm with killChildren }.setPcap i .returned).running + 1 = lm.running := hr
      have hb : killChildren.buf.length = lm.killChildren.buf.length - 1 := by
        rw [Chan.drop_buf hk, List.length_tail]
      change killChildren.buf.length + lm.stopsLeft = _
      omega
    · by_cases hj' : j = i
      · rw [hj', setPcap_self]
      · rw [setPcap_of_ne hj']
        exact hothers j hj
  | recvOut => exact ⟨ho, hc, hs, hothers⟩

lemma Stops.stop_there (h : lm.Stops) (hr : lm.run = .returned) {i : HandleId}
    (hp : lm.pcap i = .polling) : ∃ killChildren, lm.killChildren.drop = some killChildren := by
  have hi : i < lm.handles := by
    by_contra hle
    cases hp.symm.trans (h.others i (Nat.not_lt.mp hle))
  have hone := single_le_total (fun phase => if phase = PcapPhase.returned then 0 else 1)
    (List.mem_map_of_mem (f := lm.pcap) (List.mem_range.mpr hi))
  simp only [hp, reduceCtorEq, if_false] at hone
  have hs := h.stops
  rw [stopsLeft, hr, Nat.add_zero] at hs
  refine Chan.drop_isSome (List.length_pos_iff.mp ?_)
  rw [hs]
  exact hone

lemma inNext_setPcap (lm : LocalManager) (i j : HandleId) (phase : PcapPhase) :
    (lm.setPcap j phase).inNext i =
      if i = j then (if phase = .capturing then 1 else 0) else lm.inNext i := by
  rw [inNext]
  by_cases hi : i = j
  · rw [if_pos hi, hi, setPcap_self]
  · rw [if_neg hi, setPcap_of_ne hi, inNext]

lemma inNext_leaves (lm : LocalManager) (i j : HandleId) {phase : PcapPhase}
    (hp : phase ≠ .capturing) : (lm.setPcap j phase).inNext i ≤ lm.inNext i := by
  rw [inNext_setPcap, if_neg hp]
  split_ifs
  · exact Nat.zero_le _
  · exact le_rfl

lemma Stops.inNext_effect (h : lm.Stops) (hr : lm.run = .returned) (i : HandleId)
    (he : lm.Effect ch a ch' lm') : lm'.run = .returned ∧
      lm'.inNext i + (if isCapture i a then 1 else 0) ≤ lm.inNext i := by
  cases he with
  | recvOut hr' | recvXbox hr' | sendNewXbox hr' | recvKill hr' | stopChild hr' | sendDead hr' =>
    cases hr.symm.trans hr'
  | poll hp hk =>
    obtain ⟨killChildren, hd⟩ := h.stop_there hr hp
    cases hk.symm.trans hd
  | @capture j pkt packet hp =>
    refine ⟨hr, ?_⟩
    have hphase : (if packet.dst.isBroadcast then PcapPhase.registering packet
        else .forwarding packet) ≠ .capturing := by
      split_ifs <;> exact nofun
    rw [inNext_setPcap, if_neg hphase, isCapture]
    by_cases hj : j = i
    · simp [hj ▸ hp, hj, inNext]
    · simp [hj, Ne.symm hj]
  | @recvStop j killChildren =>
    exact ⟨hr, inNext_leaves { lm with killChildren } i j (by simp)⟩
  | @sendXbox j _ xboxes => exact ⟨hr, inNext_leaves { lm with xboxes } i j (by simp)⟩
  | @miss j | @forward j => exact ⟨hr, inNext_leaves lm i j (by simp)⟩

lemma kill_effect (he : lm.Effect ch a ch' lm') :
    lm'.kill = lm.kill ∨ lm.kill.drop = some lm'.kill := by
  cases he with
  | recvKill _ hk => exact .inr hk
  | _ => exact .inl rfl

lemma dead_effect (he : lm.Effect ch a ch' lm') (hd : lm.dead.Mailbox) : lm'.dead.Mailbox ∧
    lm'.deadsLeft + lm'.dead.buf.length = lm.deadsLeft + lm.dead.buf.length := by
  cases he with
  | recvXbox hr | sendNewXbox hr | recvKill hr | stopChild hr =>
    exact ⟨hd, by simp [deadsLeft, hr]⟩
  | sendDead hr hs =>
    refine ⟨hd.of_send hs, ?_⟩
    simp [deadsLeft, hr, Chan.send_buf hs, Nat.add_comm]
  | _ => exact ⟨hd, rfl⟩

end LocalManager

namespace PeerConn

def RunPhase.asked : RunPhase → Bool
  | .awaitSideband | .reportDead | .returned => true
  | _ => false

structure OneSignal (pc : PeerConn) : Prop where
  dead : pc.dead.Mailbox
  silent : pc.run ≠ .returned → pc.dead.buf = []
  sidebandKill : pc.sidebandKill.Mailbox
  sidebandDead : pc.sidebandDead.Mailbox
  sideband : pc.sidebandKill.buf.length + pc.sidebandDead.buf.length ≤
    if pc.run.asked then 1 else 0

variable {ch ch' : Shared} {pc pc' : PeerConn} {a : Action}

lemma OneSignal.effect (h : pc.OneSignal) (he : pc.Effect ch a ch' pc') : pc'.OneSignal := by
  have hsilent : ∀ {run}, pc.run = run → run ≠ .returned → pc.dead.buf = [] := by
    rintro run rfl
    exact h.silent
  obtain ⟨hdead, hs, hk, hd, hle⟩ := h
  cases he with
  | killRead _ hk' hd' =>
    -- the one signal goes from `sidebandKill` over to `sidebandDead`
    refine ⟨hdead, hs, hk.of_drop hk', hd.of_send hd', ?_⟩
    have hne := List.length_pos_iff.mpr (Chan.ne_nil_of_drop hk.open_ hk')
    simp only [Chan.drop_buf hk', Chan.send_buf hd', List.length_tail, List.length_append,
      List.length_singleton]
    omega
  | recvOut hr | recvKill hr | closeKill hr | closeOut hr =>
    rw [hr] at hle
    exact ⟨hdead, fun _ => hsilent hr nofun, hk, hd, hle⟩
  | @write _ ok hr =>
    rw [hr] at hle
    refine ⟨hdead, fun _ => hsilent hr nofun, hk, hd, ?_⟩
    cases ok <;> exact hle
  | killSideband hr hk' =>
    rw [hr] at hle
    refine ⟨hdead, fun _ => hsilent hr nofun, hk.of_send hk', hd, ?_⟩
    simp only [RunPhase.asked, Bool.false_eq_true, if_false] at hle
    simp only [RunPhase.asked, if_true, Chan.send_buf hk', List.length_append,
      List.length_singleton]
    omega
  | awaitSideband hr hd' =>
    rw [hr] at hle
    refine ⟨hdead, fun _ => hsilent hr nofun, hk, hd.of_drop hd', ?_⟩
    have hlen := Chan.drop_length hd'
    exact (Nat.add_le_add_left hlen _).trans hle
  | reportDead hr hs' =>
    rw [hr] at hle
    exact ⟨hdead.of_send hs', fun hn => absurd rfl hn, hk, hd, hle⟩
  | _ => exact ⟨hdead, hs, hk, hd, hle⟩

end PeerConn

namespace Signals

structure OneShot (c : Chan Unit) (sent : Prop) : Prop where
  mailbox : c.Mailbox
  empty : ¬ sent → c.buf = []

structure Answer (c : Chan Unit) (left : ℕ) : Prop where
  mailbox : c.Mailbox
  one : left + c.buf.length ≤ 1

def smLeft (loop : LoopPhase) (ops : List Op) : ℕ :=
  match loop with
  | .looping => 1
  | .unwinding => ops.count .sendDead

def reconnectLeft (reconnect : ReconnectPhase) : ℕ := if reconnect = .returned then 0 else 1

def awaited (w : World) : ℕ :=
  (smLeft w.loop w.ops + w.smDead.buf.length) + (w.lm.deadsLeft + w.lm.dead.buf.length) +
    (reconnectLeft w.reconnect + w.dead.buf.length)

def expected : MainPhase → ℕ
  | .polling deadcount => deadcount
  | _ => 3

def killed : MainPhase → ℕ
  | .waiting | .killReconnect => 0
  | .killStateManager => 1
  | .killLocalManager => 2
  | .killClient | .polling _ => 3

structure Inv (w : World) : Prop where
  kill : OneShot w.kill (0 < killed w.main)
  smKill : OneShot w.smKill (1 < killed w.main)
  lmKill : OneShot w.lm.kill (2 < killed w.main)
  smDead : Answer w.smDead (smLeft w.loop w.ops)
  lmDead : Answer w.lm.dead w.lm.deadsLeft
  dead : Answer w.dead (reconnectLeft w.reconnect)
  awaited : awaited w = expected w.main
  looping : w.loop = .looping → .sendDead ∉ w.ops
  last : w.loop = .unwinding → ∀ op ∈ w.ops.getLast?, op = .sendDead
  stops : w.lm.Stops
  pcs : ∀ addr, (w.pcs addr).OneSignal

variable {token : Token} {w v : World} {a : Action} {addr : ℕ} {c d : Chan Unit}
  {sent sent' : Prop} {left : ℕ}

lemma OneShot.mono (h : OneShot c sent) (hs : sent → sent') : OneShot c sent' :=
  ⟨h.mailbox, fun hn => h.empty (mt hs hn)⟩

lemma OneShot.of_drop (h : OneShot c sent) (hd : c.drop = some d) : OneShot d sent := by
  refine ⟨h.mailbox.of_drop hd, fun hn => ?_⟩
  rw [Chan.drop_buf hd, h.empty hn, List.tail_nil]

lemma OneShot.of_send (h : OneShot c sent) (hd : c.send () = some d) (hs : sent') :
    OneShot d sent' :=
  ⟨h.mailbox.of_send hd, fun hn => absurd hs hn⟩

lemma OneShot.room (h : OneShot c sent) (hs : ¬ sent) : (c.send ()).isSome :=
  Option.isSome_iff_exists.mpr (h.mailbox.send_of_empty (h.empty hs) ())

lemma Answer.of_send (h : Answer c (left + 1)) (hd : c.send () = some d) : Answer d left := by
  refine ⟨h.mailbox.of_send hd, ?_⟩
  rw [Chan.send_buf hd, List.length_append]
  exact (Nat.add_right_comm _ _ _).symm.trans_le h.one

lemma Answer.of_drop (h : Answer c left) (hd : c.drop = some d) : Answer d left :=
  ⟨h.mailbox.of_drop hd, (Nat.add_le_add_left (Chan.drop_length hd) _).trans h.one⟩

lemma Answer.room (h : Answer c (left + 1)) : (c.send ()).isSome := by
  have hone := h.one
  have hb : c.buf = [] := List.eq_nil_of_length_eq_zero (by omega)
  exact Option.isSome_iff_exists.mpr (h.mailbox.send_of_empty hb ())

lemma dropped_length (hc : c.Mailbox) (hd : c.drop = some d) :
    d.buf.length + 1 = c.buf.length := by
  have hne := List.length_pos_iff.mpr (Chan.ne_nil_of_drop hc.open_ hd)
  rw [Chan.drop_buf hd, List.length_tail]
  omega

lemma oneSignal_new (addr : ℕ) (peerId : PeerId) (nat : PeerConn.DialPhase) :
    (PeerConn.new addr peerId nat).OneSignal :=
  ⟨⟨rfl, rfl⟩, fun _ => rfl, ⟨rfl, rfl⟩, ⟨rfl, rfl⟩, le_rfl⟩

lemma pcs_step (hi : ∀ addr, (w.pcs addr).OneSignal) (h : step token w a = some v) (addr : ℕ) :
    (v.pcs addr).OneSignal := by
  rcases step_moves h addr with ho | hm
  · obtain ⟨peerId, initiator, hpc⟩ := ho.pc
    rw [hpc]
    exact oneSignal_new ..
  · have hw := hi addr
    generalize v.pcs addr = pc at hm ⊢
    cases hm with
    | starts _ hr =>
      have hle := hw.sideband
      rw [hr] at hle
      exact ⟨hw.dead, fun _ => hw.silent (by rw [hr]; exact nofun), hw.sidebandKill,
        hw.sidebandDead, hle⟩
    | acts _ he => exact hw.effect he
    | takesDead _ _ _ hd =>
      refine ⟨hw.dead.of_drop hd, fun hn => ?_, hw.sidebandKill, hw.sidebandDead, hw.sideband⟩
      rw [Chan.drop_buf hd, hw.silent hn, List.tail_nil]
    | _ => exact ⟨hw.dead, hw.silent, hw.sidebandKill, hw.sidebandDead, hw.sideband⟩

lemma stops_init (handles : ℕ) : (newLocalManager handles).Stops := by
  refine ⟨rfl, rfl, ?_, fun i hi => if_neg (Nat.not_lt.mpr hi)⟩
  have hall : ∀ phase ∈ (List.range handles).map (newLocalManager handles).pcap,
      (if phase = LocalManager.PcapPhase.returned then 0 else 1) = 1 := by
    intro phase hp
    obtain ⟨i, hi, rfl⟩ := List.mem_map.mp hp
    simp [newLocalManager, List.mem_range.mp hi]
  have htotal := total_eq_length hall
  rw [List.length_map, List.length_range] at htotal
  exact (Nat.zero_add _).trans htotal.symm

lemma inv_init (handles : ℕ) : Inv (Network.init handles) where
  kill := ⟨⟨rfl, rfl⟩, fun _ => rfl⟩
  smKill := ⟨⟨rfl, rfl⟩, fun _ => rfl⟩
  lmKill := ⟨⟨rfl, rfl⟩, fun _ => rfl⟩
  smDead := ⟨⟨rfl, rfl⟩, le_rfl⟩
  lmDead := ⟨⟨rfl, rfl⟩, le_rfl⟩
  dead := ⟨⟨rfl, rfl⟩, le_rfl⟩
  awaited := rfl
  looping _ := List.not_mem_nil
  last := nofun
  stops := stops_init handles
  pcs _ := oneSignal_new _ _ _

lemma lm_inv {b : LocalManager.Action} {ch : Shared} {lm : LocalManager} (hi : Inv w)
    (he : w.lm.Effect w.ch b ch lm) : Inv { w with ch, lm } := by
  obtain ⟨hd, hsum⟩ := LocalManager.dead_effect he hi.lmDead.mailbox
  have hk : OneShot lm.kill (2 < killed w.main) := by
    rcases LocalManager.kill_effect he with hk | hk
    · exact hk ▸ hi.lmKill
    · exact hi.lmKill.of_drop hk
  have ha := hi.awaited
  simp only [awaited, ← hsum] at ha
  exact { hi with
    awaited := ha
    lmKill := hk
    lmDead := ⟨hd, hsum.trans_le hi.lmDead.one⟩
    stops := hi.stops.effect he }

lemma reconnect_inv {b : ReconnectAction} (hi : Inv w) (he : ReconnectEffect w b v) : Inv v := by
  have ha := hi.awaited
  have hd := hi.dead
  rw [awaited] at ha
  cases he with
  | recvKill hr hk hs =>
    rw [hr] at ha hd
    refine { hi with
      kill := hi.kill.of_drop hk
      dead := hd.of_send hs
      awaited := ?_ }
    simp only [awaited, Chan.send_buf hs, List.length_append, List.length_singleton]
    simp only [reconnectLeft, reduceCtorEq, if_false, if_true] at ha ⊢
    omega
  | resolve hr | newClient hr | runReturned hr | wake hr =>
    rw [hr] at ha hd
    exact { hi with awaited := ha, dead := hd }

lemma main_inv {b : MainAction} (hi : Inv w) (he : MainEffect w b v) : Inv v := by
  have ha := hi.awaited
  have hk := hi.kill
  have hsm := hi.smKill
  have hlm := hi.lmKill
  cases he with
  | interrupt hm =>
    rw [hm] at ha hk hsm hlm
    exact { hi with awaited := ha, kill := hk, smKill := hsm, lmKill := hlm }
  | killReconnect hm hs =>
    rw [hm] at ha hk hsm hlm
    exact { hi with
      awaited := ha
      kill := hk.of_send hs Nat.zero_lt_one
      smKill := hsm.mono fun h => absurd h (Nat.not_lt_zero _)
      lmKill := hlm.mono fun h => absurd h (Nat.not_lt_zero _) }
  | killStateManager hm hs =>
    rw [hm] at ha hk hsm hlm
    exact { hi with
      awaited := ha
      kill := hk.mono fun _ => Nat.zero_lt_two
      smKill := hsm.of_send hs Nat.one_lt_two
      lmKill := hlm.mono fun h => Nat.lt_succ_of_lt h }
  | killLocalManager hm hs =>
    rw [hm] at ha hk hsm hlm
    exact { hi with
      awaited := ha
      kill := hk.mono fun _ => Nat.zero_lt_succ _
      smKill := hsm.mono fun h => Nat.lt_succ_of_lt h
      lmKill := hlm.of_send hs (Nat.lt_succ_self 2)
      stops := ⟨hi.stops.open_, hi.stops.cap, hi.stops.stops, hi.stops.others⟩ }
  | killClient hm =>
    rw [hm] at ha hk hsm hlm
    exact { hi with awaited := ha, kill := hk, smKill := hsm, lmKill := hlm }
  | recvSmDead hm hd =>
    have hlen := dropped_length hi.smDead.mailbox hd
    rw [hm] at ha hk hsm hlm
    refine { hi with
      kill := hk
      smKill := hsm
      lmKill := hlm
      smDead := hi.smDead.of_drop hd
      awaited := ?_ }
    simp only [awaited, expected] at ha ⊢
    omega
  | recvLmDead hm hd =>
    have hlen := dropped_length hi.lmDead.mailbox hd
    rw [hm] at ha hk hsm hlm
    refine { hi with
      kill := hk
      smKill := hsm
      lmKill := hlm
      lmDead := hi.lmDead.of_drop hd
      stops := ⟨hi.stops.open_, hi.stops.cap, hi.stops.stops, hi.stops.others⟩
      awaited := ?_ }
    simp only [awaited, expected] at ha ⊢
    change _ + _ + (w.lm.deadsLeft + _) + _ = _
    omega
  | recvDead hm hd =>
    have hlen := dropped_length hi.dead.mailbox hd
    rw [hm] at ha hk hsm hlm
    refine { hi with
      kill := hk
      smKill := hsm
      lmKill := hlm
      dead := hi.dead.of_drop hd
      awaited := ?_ }
    simp only [awaited, expected] at ha ⊢
    omega

lemma smLeft_cons {op : Op} (h : op ≠ .sendDead) (loop : LoopPhase) (ops : List Op) :
    smLeft loop (op :: ops) = smLeft loop ops := by
  cases loop with
  | looping => rfl
  | unwinding => exact List.count_cons_of_ne h

lemma count_cleanup (o : Orders) : (cleanup o).count .sendDead = 1 := by
  have hkills : (o.first.map fun e => Op.sendKill e.2).count .sendDead = 0 :=
    List.count_eq_zero.mpr (by simp)
  have hdeads : (o.second.map fun e => Op.recvDead e.2).count .sendDead = 0 :=
    List.count_eq_zero.mpr (by simp)
  rw [cleanup, List.count_append, List.count_append, hkills, hdeads, List.count_singleton_self]

lemma op_inv {op : Op} {ops : List Op} (hi : Inv w) (ho : w.ops = op :: ops) (hd : Done w op v)
    (hp : ∀ addr, (v.pcs addr).OneSignal) : Inv { v with ops } := by
  have hlooping : w.loop = .looping → .sendDead ∉ ops := fun hl hm =>
    hi.looping hl (ho ▸ List.mem_cons_of_mem _ hm)
  have hlast : w.loop = .unwinding → ∀ op ∈ ops.getLast?, op = .sendDead := by
    intro hl op' hm
    apply hi.last hl
    rw [ho]
    cases ops with
    | nil => cases hm
    | cons _ _ => exact hm
  have ha := hi.awaited
  have hs := hi.smDead
  rw [awaited, ho] at ha
  rw [ho] at hs
  have hother : op ≠ .sendDead → Answer w.smDead (smLeft w.loop ops) ∧
      awaited { w with ops } = expected w.main := by
    intro hn
    rw [smLeft_cons hn] at ha hs
    exact ⟨hs, ha⟩
  cases hd with
  | recvKill | sendKill | sendRead | sendOut | sendServer | recvDead =>
    obtain ⟨hs, ha⟩ := hother nofun
    exact { hi with smDead := hs, awaited := ha, looping := hlooping, last := hlast, pcs := hp }
  | dial hd =>
    obtain ⟨hs, ha⟩ := hother nofun
    obtain ⟨_, -, rfl⟩ := dial_eq_some hd
    exact { hi with smDead := hs, awaited := ha, looping := hlooping, last := hlast, pcs := hp }
  | sendDead hsend =>
    have hl : w.loop = .unwinding := by
      cases hl : w.loop with
      | looping => exact absurd (ho ▸ List.mem_cons_self) (hi.looping hl)
      | unwinding => rfl
    have hleft : smLeft w.loop (.sendDead :: ops) = smLeft w.loop ops + 1 := by
      rw [hl]
      exact List.count_cons_self
    rw [hleft] at ha hs
    refine { hi with
      smDead := hs.of_send hsend
      awaited := ?_
      looping := hlooping
      last := hlast
      pcs := hp }
    simp only [awaited, Chan.send_buf hsend, List.length_append, List.length_singleton]
    omega

lemma Inv.step (hi : Inv w) (h : Network.step token w a = some v) : Inv v := by
  have hp := pcs_step hi.pcs h
  cases step_effect h with
  | takeEvent hl _ hv =>
    have ha := hi.awaited
    have hs := hi.smDead
    rw [Signals.awaited, hl] at ha
    rw [hl] at hs
    refine { hi with
      smDead := hl ▸ hs
      awaited := ?_
      looping := fun _ hm => nomatch turn_issued hv hm
      last := fun hu => nomatch hl.symm.trans hu }
    rw [Signals.awaited, hl]
    exact ha
  | takeKill hl _ hv hk =>
    have ha := hi.awaited
    have hs := hi.smDead
    rw [Signals.awaited, hl] at ha
    rw [hl] at hs
    refine { hi with
      smKill := hi.smKill.of_drop hk
      smDead := ?_
      awaited := ?_
      looping := nofun
      last := fun _ op hm => ?_ }
    · rw [smLeft, count_cleanup]
      exact hs
    · rw [Signals.awaited, smLeft, count_cleanup]
      exact ha
    · rw [cleanup, List.getLast?_concat] at hm
      exact (Option.some.inj hm).symm
  | op ho hd => exact op_inv hi ho hd hp
  | openConn hd =>
    obtain ⟨_, -, rfl⟩ := dial_eq_some hd
    exact { hi with pcs := hp }
  | startRun | pc | client => exact { hi with pcs := hp }
  | lm he => exact lm_inv hi he
  | reconnect he => exact reconnect_inv hi he
  | main he => exact main_inv hi he

/-- The answers that `main` waits for are those sent or still to be sent, so it is over only when the
three goroutines are. -/
structure Heard (w : World) : Prop where
  awaits : awaited w = expected w.main
  ended : w.main = .polling 0 → w.loop = .unwinding ∧ w.ops = [] ∧ w.lm.run = .returned ∧
    w.reconnect = .returned

structure FindsRoom (w : World) : Prop where
  kill : w.main = .killReconnect → (w.kill.send ()).isSome
  smKill : w.main = .killStateManager → (w.smKill.send ()).isSome
  lmKill : w.main = .killLocalManager → (w.lm.kill.send ()).isSome
  smDead : .sendDead ∈ w.ops.head? → (w.smDead.send ()).isSome
  lmDead : w.lm.run = .stopping 0 → (w.lm.dead.send ()).isSome
  dead : w.reconnect = .selecting → (w.dead.send ()).isSome
  pcDead : ∀ addr, (w.pcs addr).run = .reportDead → ((w.pcs addr).dead.send ()).isSome
  sidebandKill : ∀ addr, (w.pcs addr).run = .killSideband →
    ((w.pcs addr).sidebandKill.send ()).isSome
  sidebandDead : ∀ addr, (w.pcs addr).sidebandKill.buf ≠ [] →
    ((w.pcs addr).sidebandDead.send ()).isSome

def isCapture (i : HandleId) : Action → Bool
  | .lm b => LocalManager.isCapture i b
  | _ => false

/-- Once the local manager has reported its end, each `runpcap` that polls finds a stop, so the only
packet that it may still capture is the one that it waits for in `Next`. With ten handles or fewer
the local manager sends the stops without a wait. -/
structure StopsPcap (token : Token) (w : World) : Prop where
  owed : w.lm.run = .returned → w.lm.killChildren.buf.length = w.lm.running
  quiet : w.lm.run = .returned → ∀ i, Network.step token w (.lm (.poll i)) = none
  last : w.lm.run = .returned → ∀ tr v, Run (Steps (Network.step token)) w tr v →
    ∀ i, tr.countP (fun p => isCapture i p.2) ≤ if w.lm.pcap i = .capturing then 1 else 0
  ten : w.lm.handles ≤ 10 → ∀ children, w.lm.run = .stopping (children + 1) →
    (w.lm.killChildren.send ()).isSome

lemma Inv.heard (hi : Inv w) : Heard w := by
  refine ⟨hi.awaited, fun hm => ?_⟩
  have ha := hi.awaited
  rw [Signals.awaited, hm, expected] at ha
  have hl : w.loop = .unwinding := by
    cases hl : w.loop with
    | looping =>
      rw [hl, smLeft] at ha
      omega
    | unwinding => rfl
  rw [hl, smLeft] at ha
  refine ⟨hl, ?_, ?_, ?_⟩
  · by_contra hne
    have hm := List.getLast_mem hne
    rw [hi.last hl _ (List.getLast?_eq_some_getLast hne)] at hm
    have hc := List.count_pos_iff.mpr hm
    omega
  · by_contra hr
    rw [LocalManager.deadsLeft, if_neg hr] at ha
    omega
  · by_contra hr
    rw [reconnectLeft, if_neg hr] at ha
    omega

lemma Inv.findsRoom (hi : Inv w) : FindsRoom w := by
  constructor
  · exact fun hm => hi.kill.room (by rw [hm]; exact Nat.lt_irrefl 0)
  · exact fun hm => hi.smKill.room (by rw [hm]; exact Nat.lt_irrefl 1)
  · exact fun hm => hi.lmKill.room (by rw [hm]; exact Nat.lt_irrefl 2)
  · intro ho
    obtain ⟨ops, ho⟩ := List.head?_eq_some_iff.mp ho
    have hl : w.loop = .unwinding := by
      cases hl : w.loop with
      | looping => exact absurd (ho ▸ List.mem_cons_self) (hi.looping hl)
      | unwinding => rfl
    have hs := hi.smDead
    rw [hl, ho, smLeft, List.count_cons_self] at hs
    exact hs.room
  · intro hr
    have hd := hi.lmDead
    rw [LocalManager.deadsLeft, hr] at hd
    exact hd.room
  · intro hr
    have hd := hi.dead
    rw [hr] at hd
    exact hd.room
  · intro addr hr
    have hs := hi.pcs addr
    have hb := hs.silent (by rw [hr]; exact nofun)
    exact Option.isSome_iff_exists.mpr (hs.dead.send_of_empty hb ())
  · intro addr hr
    have hs := hi.pcs addr
    have hle := hs.sideband
    rw [hr] at hle
    have hb : (w.pcs addr).sidebandKill.buf = [] :=
      List.eq_nil_of_length_eq_zero (Nat.le_zero.mp ((Nat.le_add_right _ _).trans hle))
    exact Option.isSome_iff_exists.mpr (hs.sidebandKill.send_of_empty hb ())
  · intro addr hne
    have hs := hi.pcs addr
    have hpos := List.length_pos_iff.mpr hne
    have hle : (w.pcs addr).sidebandKill.buf.length + (w.pcs addr).sidebandDead.buf.length ≤ 1 :=
      hs.sideband.trans (by split_ifs <;> simp)
    have hb : (w.pcs addr).sidebandDead.buf = [] := List.eq_nil_of_length_eq_zero (by omega)
    exact Option.isSome_iff_exists.mpr (hs.sidebandDead.send_of_empty hb ())

lemma lm_step (hi : Inv w) (hr : w.lm.run = .returned) (i : HandleId)
    (h : Network.step token w a = some v) : v.lm.run = .returned ∧
      v.lm.inNext i + (if isCapture i a then 1 else 0) ≤ w.lm.inNext i := by
  cases step_effect h with
  | lm he => exact hi.stops.inNext_effect hr i he
  | op _ hd =>
    cases hd with
    | dial hd =>
      obtain ⟨_, -, rfl⟩ := dial_eq_some hd
      exact ⟨hr, le_rfl⟩
    | _ => exact ⟨hr, le_rfl⟩
  | openConn hd =>
    obtain ⟨_, -, rfl⟩ := dial_eq_some hd
    exact ⟨hr, le_rfl⟩
  | reconnect he => cases he <;> exact ⟨hr, le_rfl⟩
  | main he => cases he <;> exact ⟨hr, le_rfl⟩
  | _ => exact ⟨hr, le_rfl⟩

lemma Inv.stopsPcap (hi : Inv w) (token : Token) : StopsPcap token w := by
  have howed : w.lm.run = .returned → w.lm.killChildren.buf.length = w.lm.running := by
    intro hr
    have hs := hi.stops.stops
    rwa [LocalManager.stopsLeft, hr] at hs
  refine ⟨howed, fun hr i => ?_, fun hr tr v h i => ?_, fun hten children hr => ?_⟩
  · have hno : ¬ (w.lm.pcap i = .polling ∧ w.lm.killChildren.drop.isNone = true) := by
      rintro ⟨hp, hd⟩
      obtain ⟨killChildren, hk⟩ := hi.stops.stop_there hr hp
      rw [hk] at hd
      cases hd
    simp only [Network.step, LocalManager.step, if_neg hno, Option.map_none]
  · have hstep : ∀ w a v, Inv w ∧ w.lm.run = .returned → Steps (Network.step token) w a v →
        Inv v ∧ v.lm.run = .returned := fun w a v hw he =>
      ⟨hw.1.step he, (lm_step hw.1 hw.2 i he).1⟩
    exact h.countP_le (fun w => w.lm.inNext i) hstep
      (fun w a v hw he => (lm_step hw.1 hw.2 i he).2) ⟨hi, hr⟩
  · have hs := hi.stops.stops
    have hle := w.lm.running_le
    simp only [LocalManager.stopsLeft, hr] at hs
    refine Chan.send_isSome.mpr ⟨hi.stops.open_, ?_⟩
    rw [hi.stops.cap]
    omega

section Results

variable {handles : ℕ} {tr : List (World × Action)} {u : World}

lemma run_inv (h : Run (Steps (Network.step token)) (Network.init handles) tr u) :
    AllStates Inv tr u :=
  h.invariant (fun _ _ _ hi he => hi.step he) (inv_init handles)

theorem main_hears_all (h : Run (Steps (Network.step token)) (Network.init handles) tr u) :
    AllStates Heard tr u :=
  ⟨fun p hp => ((run_inv h).1 p hp).heard, (run_inv h).2.heard⟩

theorem signals_find_room (h : Run (Steps (Network.step token)) (Network.init handles) tr u) :
    AllStates FindsRoom tr u :=
  ⟨fun p hp => ((run_inv h).1 p hp).findsRoom, (run_inv h).2.findsRoom⟩

theorem pcap_stops (h : Run (Steps (Network.step token)) (Network.init handles) tr u) :
    AllStates (StopsPcap token) tr u :=
  ⟨fun p hp => ((run_inv h).1 p hp).stopsPcap token, (run_inv h).2.stopsPcap token⟩

end Results

section Samples

def interrupted : List Action :=
  connects ++ [.main .interrupt, .main .kill, .main .kill, .main .kill, .main .kill,
    .client 0 .recvKill, .reconnect .runReturned, .reconnect .wake, .reconnect .recvKill,
    .takeKill ⟨[], []⟩, .op, .lm .recvKill, .lm .stopChild, .lm .sendDead, .main .recvDead,
    .main .recvSmDead, .main .recvLmDead]

theorem interrupted_hears_all : ∃ tr u, tr.map Prod.snd = interrupted ∧
    Run (Steps (Network.step sampleToken)) (Network.init 1) tr u ∧ u.main = .polling 0 ∧
    AllStates Heard tr u := by
  have hend : (exec (Network.step sampleToken) (Network.init 1) interrupted).any
      (fun u => decide (u.main = .polling 0)) = true := rfl
  obtain ⟨tr, u, ha, hr, hd⟩ := exec_any _ hend
  exact ⟨tr, u, ha, hr, of_decide_eq_true hd, main_hears_all hr⟩

theorem interrupted_finds_room : ∃ tr u, tr.map Prod.snd = interrupted ∧
    Run (Steps (Network.step sampleToken)) (Network.init 1) tr u ∧ AllStates FindsRoom tr u := by
  have hend : (exec (Network.step sampleToken) (Network.init 1) interrupted).any
      (fun _ => true) = true := rfl
  obtain ⟨tr, u, ha, hr, -⟩ := exec_any _ hend
  exact ⟨tr, u, ha, hr, signals_find_room hr⟩

theorem interrupted_stops_pcap : ∃ tr u, tr.map Prod.snd = interrupted ∧
    Run (Steps (Network.step sampleToken)) (Network.init 1) tr u ∧ u.lm.run = .returned ∧
    AllStates (StopsPcap sampleToken) tr u := by
  have hend : (exec (Network.step sampleToken) (Network.init 1) interrupted).any
      (fun u => decide (u.lm.run = .returned)) = true := rfl
  obtain ⟨tr, u, ha, hr, hd⟩ := exec_any _ hend
  exact ⟨tr, u, ha, hr, of_decide_eq_true hd, pcap_stops hr⟩

end Samples

end Signals

end XbTunnel.Daemon
