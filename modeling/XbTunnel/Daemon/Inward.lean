import XbTunnel.Daemon.Traffic

/-! The way of a peer's datagram into the daemon: the reader of its connection and `localChan`, from
which nothing takes it on to the local manager. -/

namespace XbTunnel.Daemon

open Common Udp Remote StateManager Network Lib.Channels Lib.Flows Lib.Runs Lib.Slices

namespace PeerConn

def inReader (pc : PeerConn) : List UdpPacket :=
  match pc.reader with
  | .sending packet => [packet.view pc.data]
  | _ => []

def datagrams (_ : PeerConn) : Action → List Bytes
  | .read data => [data]
  | _ => []

def handed (pc : PeerConn) : Action → List UdpPacket
  | .sendLocal => pc.inReader
  | _ => []

def entered (pc : PeerConn) : Action → List LocalEntry
  | .sendLocal =>
    match pc.reader with
    | .sending packet => [⟨pc.addr, packet⟩]
    | _ => []
  | _ => []

structure Reads (addr : ℕ) (pc : PeerConn) : Prop where
  addr : pc.addr = addr
  idle : pc.run = .notStarted → pc.reader = .notStarted
  off : ∀ packet, pc.reader = .sending packet → packet.payload.off = 0
  len : ∀ packet, pc.reader = .sending packet → packet.payload.len ≤ pc.data.length

variable {ch ch' : Shared} {pc pc' : PeerConn} {a : Action} {addr : ℕ}

lemma inReader_read (pc : PeerConn) (data : Bytes) :
    inReader { pc with
      data := overwrite pc.data data
      reader := .sending (parseRemote (overwrite pc.data data) data.length) } =
      [parseRemoteUdpPacket data] := by
  have hl : data.length ≤ (overwrite pc.data data).length := by
    rw [overwrite, List.length_append]
    exact Nat.le_add_right _ _
  have hv := parseRemote_view (overwrite pc.data data) hl
  rw [overwrite_take] at hv
  exact congrArg (fun packet => [packet]) hv

lemma reader_effect (h : pc.Effect ch a ch' pc') :
    pc.inReader ++ (datagrams pc a).map parseRemoteUdpPacket = handed pc a ++ pc'.inReader := by
  cases h with
  | @read data hr =>
    rw [inReader_read]
    simp [datagrams, handed, inReader, hr]
  | failRead hr => simp [datagrams, handed, inReader, hr]
  | sendLocal hr | sendKill hr => simp [datagrams, handed, inReader, hr]
  | _ => exact List.append_nil _

lemma data_effect (h : pc.Effect ch a ch' pc') :
    pc'.data = (datagrams pc a).foldl overwrite pc.data := by
  cases h <;> rfl

lemma localChan_effect (h : pc.Effect ch a ch' pc') :
    ch'.localChan.buf = ch.localChan.buf ++ entered pc a ∧ ch'.localChan.cap = ch.localChan.cap ∧
      (ch.localChan.buf.length ≤ ch.localChan.cap →
        ch'.localChan.buf.length ≤ ch'.localChan.cap) := by
  cases h with
  | sendLocal hr hs =>
    refine ⟨?_, Chan.send_cap hs, fun _ => Chan.send_length hs⟩
    rw [Chan.send_buf hs, entered, hr]
  | _ => exact ⟨(List.append_nil _).symm, rfl, id⟩

lemma parseRemote_off (data : Bytes) (n : ℕ) : (parseRemote data n).payload.off = 0 := by
  rw [parseRemote]
  split_ifs <;> rfl

lemma parseRemote_len (data : Bytes) (n : ℕ) : (parseRemote data n).payload.len ≤ n := by
  rw [parseRemote]
  split_ifs
  · exact Nat.zero_le _
  · exact Nat.sub_le _ _

lemma Reads.empty (haddr : pc.addr = addr) (hidle : pc.run = .notStarted → pc.reader = .notStarted)
    (hs : ∀ packet, pc.reader ≠ .sending packet) : pc.Reads addr :=
  ⟨haddr, hidle, fun packet h => absurd h (hs packet), fun packet h => absurd h (hs packet)⟩

lemma Reads.effect (hi : pc.Reads addr) (h : pc.Effect ch a ch' pc') : pc'.Reads addr := by
  obtain ⟨haddr, hidle, hoff, hlen⟩ := hi
  have hreader : ∀ {reader}, pc.reader = reader → reader ≠ .notStarted → pc.run ≠ .notStarted := by
    rintro reader rfl hr hn
    exact hr (hidle hn)
  cases h with
  | @read data hr =>
    refine ⟨haddr, fun hn => absurd hn (hreader hr (by simp)), ?_, ?_⟩
    · intro packet hp
      cases hp
      exact parseRemote_off _ _
    · intro packet hp
      cases hp
      refine (parseRemote_len _ _).trans ?_
      rw [overwrite, List.length_append]
      exact Nat.le_add_right _ _
  | failRead hr | sendLocal hr | sendKill hr =>
    exact .empty haddr (fun hn => absurd hn (hreader hr (by simp))) (by simp)
  | @write _ ok => cases ok <;> exact ⟨haddr, by simp, hoff, hlen⟩
  | recvOut | recvKill | closeKill | closeOut | killSideband | awaitSideband | reportDead =>
    exact ⟨haddr, by simp, hoff, hlen⟩
  | _ => exact ⟨haddr, hidle, hoff, hlen⟩

end PeerConn

namespace Inward

def datagrams (addr : ℕ) (w : World) : Action → List Bytes
  | .pc addr' a => if addr' = addr then (w.pcs addr).datagrams a else []
  | _ => []

def arrived (addr : ℕ) (w : World) (a : Action) : List UdpPacket :=
  (datagrams addr w a).map parseRemoteUdpPacket

def handed (addr : ℕ) (w : World) : Action → List UdpPacket
  | .pc addr' a => if addr' = addr then (w.pcs addr).handed a else []
  | _ => []

def handedOn (w : World) : Action → List (ℕ × UdpPacket)
  | .pc addr a => ((w.pcs addr).handed a).map fun packet => (addr, packet)
  | _ => []

def entered (w : World) : Action → List LocalEntry
  | .pc addr a => (w.pcs addr).entered a
  | _ => []

def reading (addr : ℕ) : Stage World Action UdpPacket :=
  ⟨arrived addr, fun w => (w.pcs addr).inReader, handed addr⟩

def localChan : Stage World Action LocalEntry :=
  ⟨entered, fun w => w.ch.localChan.buf, fun _ _ => []⟩

structure Inv (w : World) : Prop where
  traffic : Traffic.Inv w
  readers : ∀ addr, (w.pcs addr).Reads addr
  cap : w.ch.localChan.cap = 10
  length : w.ch.localChan.buf.length ≤ 10
  out : w.lm.out.buf = []
  injected : w.lm.injected = []

/-- The entry refers to as many bytes as the payload had when the packet was handed on. -/
structure Enters (handed : ℕ × UdpPacket) (entry : LocalEntry) : Prop where
  addr : entry.addr = handed.1
  payload : entry.packet.payload = ⟨0, handed.2.payload.length⟩
  src : entry.packet.src = handed.2.src
  dst : entry.packet.dst = handed.2.dst

/-- Every packet that arrives is handed on in order, but only ten of them in all, and none of them
ever gets onto the local network. What is in `localChan` changes with each datagram that is read
after it. -/
structure Arrives (tr : List (World × Action)) (u : World) : Prop where
  inHand : ∀ addr, total (arrived addr) tr = total (handed addr) tr ++ (u.pcs addr).inReader
  inQueue : List.Forall₂ Enters (total handedOn tr) u.ch.localChan.buf
  buffers : ∀ addr, (u.pcs addr).data =
    (total (datagrams addr) tr).foldl overwrite (List.replicate 65535 0)
  few : (total handedOn tr).length ≤ 10
  injected : u.lm.injected = []

variable {token : Token} {w v : World} {a : Action} {addr : ℕ}

lemma readers_step (hi : ∀ addr, (w.pcs addr).Reads addr) (h : step token w a = some v)
    (addr : ℕ) : (v.pcs addr).Reads addr := by
  rcases step_moves h addr with ho | hm
  · obtain ⟨peerId, initiator, hpc⟩ := ho.pc
    rw [hpc]
    exact .empty rfl (fun _ => rfl) fun _ h => by cases h
  · obtain ⟨haddr, hidle, hoff, hlen⟩ := hi addr
    generalize v.pcs addr = pc at hm ⊢
    cases hm with
    | starts => exact .empty haddr (by simp [PeerConn.start]) (by simp [PeerConn.start])
    | acts _ he => exact (hi addr).effect he
    | _ => exact ⟨haddr, hidle, hoff, hlen⟩

structure Untouched (w v : World) : Prop where
  localChan : v.ch.localChan = w.ch.localChan
  out : v.lm.out = w.lm.out
  injected : v.lm.injected = w.lm.injected

inductive Sides (w : World) : Action → World → Prop
  | pc {addr b ch pc} : (w.pcs addr).Effect w.ch b ch pc →
      Sides w (.pc addr b) (setPc addr pc { w with ch })
  | lm {b ch lm} : w.lm.Effect w.ch b ch lm → Sides w (.lm b) { w with ch, lm }
  | apart {b v} : (∀ addr c, b ≠ .pc addr c) → (∀ c, b ≠ .lm c) → Untouched w v → Sides w b v

lemma untouched_dial {peerId : PeerId} {initiator : Bool}
    (h : dial peerId initiator w = some v) : Untouched w v := by
  obtain ⟨_, -, rfl⟩ := dial_eq_some h
  exact ⟨rfl, rfl, rfl⟩

lemma step_sides (h : step token w a = some v) : Sides w a v := by
  cases step_effect h with
  | takeEvent _ _ _ he =>
    exact .apart nofun nofun (by cases recvEvent_received he <;> exact ⟨rfl, rfl, rfl⟩)
  | op _ hd =>
    refine .apart nofun nofun ?_
    cases hd with
    | dial hd =>
      have hu := untouched_dial hd
      exact ⟨hu.localChan, hu.out, hu.injected⟩
    | _ => exact ⟨rfl, rfl, rfl⟩
  | openConn hd => exact .apart nofun nofun (untouched_dial hd)
  | pc he => exact .pc he
  | lm he => exact .lm he
  | client _ he => exact .apart nofun nofun (by cases he <;> exact ⟨rfl, rfl, rfl⟩)
  | reconnect he => exact .apart nofun nofun (by cases he <;> exact ⟨rfl, rfl, rfl⟩)
  | main he => exact .apart nofun nofun (by cases he <;> exact ⟨rfl, rfl, rfl⟩)
  | takeKill | startRun => exact .apart nofun nofun ⟨rfl, rfl, rfl⟩

lemma lm_nothing {b : LocalManager.Action} {ch ch' : Shared} {lm lm' : LocalManager}
    (h : lm.Effect ch b ch' lm') (ho : lm.out.buf = []) (hi : lm.injected = []) :
    ch'.localChan = ch.localChan ∧ lm'.out.buf = [] ∧ lm'.injected = [] := by
  cases h with
  | recvOut _ _ hr =>
    obtain ⟨rest, hb, -⟩ := Chan.recv_eq_some.mp hr
    cases ho.symm.trans hb
  | _ => exact ⟨rfl, ho, hi⟩

lemma Inv.step (hi : Inv w) (h : step token w a = some v) : Inv v := by
  have ht := hi.traffic.step h
  have hr := readers_step hi.readers h
  cases step_sides h with
  | pc he =>
    obtain ⟨-, hc, hl⟩ := PeerConn.localChan_effect he
    have hcap := hc.trans hi.cap
    exact ⟨ht, hr, hcap, (hl (hi.length.trans_eq hi.cap.symm)).trans_eq hcap, hi.out, hi.injected⟩
  | lm he =>
    obtain ⟨hc, ho, hj⟩ := lm_nothing he hi.out hi.injected
    exact ⟨ht, hr, (congrArg Chan.cap hc).trans hi.cap,
      (congrArg (fun c => c.buf.length) hc).trans_le hi.length, ho, hj⟩
  | apart _ _ hu =>
    exact ⟨ht, hr, hu.localChan ▸ hi.cap, hu.localChan ▸ hi.length, hu.out ▸ hi.out,
      hu.injected ▸ hi.injected⟩

lemma inv_init (handles : ℕ) : Inv (Network.init handles) :=
  ⟨Traffic.inv_init handles, fun _ => ⟨rfl, fun _ => rfl, nofun, nofun⟩, rfl, Nat.zero_le _, rfl,
    rfl⟩

lemma localChan_conserves (token : Token) :
    localChan.Conserves (Steps (Network.step token)) Inv := by
  intro w a v hi h
  cases step_sides h with
  | pc he => exact (PeerConn.localChan_effect he).1.symm
  | lm he =>
    obtain ⟨hc, -⟩ := lm_nothing he hi.out hi.injected
    simp [localChan, entered, hc]
  | apart hp _ hu =>
    have hnone : entered w a = [] := by
      cases a with
      | pc addr b => exact absurd rfl (hp addr b)
      | _ => rfl
    simp [localChan, hnone, hu.localChan]

lemma enters_step (hi : Inv w) (a : Action) :
    List.Forall₂ Enters (handedOn w a) (entered w a) := by
  cases a with
  | pc addr b =>
    cases b with
    | sendLocal =>
      obtain ⟨haddr, -, hoff, hlen⟩ := hi.readers addr
      cases hr : (w.pcs addr).reader with
      | sending packet =>
        have hslice : packet.payload = ⟨0, (packet.payload.view (w.pcs addr).data).length⟩ := by
          obtain ⟨⟨off, len⟩, src, dst⟩ := packet
          obtain rfl : off = 0 := hoff _ hr
          rw [Slice.view, List.drop_zero, List.length_take_of_le (hlen _ hr)]
        simp only [handedOn, PeerConn.handed, PeerConn.inReader, entered, PeerConn.entered, hr]
        exact .cons ⟨haddr, hslice, rfl, rfl⟩ .nil
      | _ =>
        simp only [handedOn, PeerConn.handed, PeerConn.inReader, entered, PeerConn.entered, hr]
        exact .nil
    | _ => exact .nil
  | _ => exact .nil

lemma reader_step (hi : Inv w) (h : step token w a = some v) (addr : ℕ) :
    (∃ b ch, a = .pc addr b ∧ (w.pcs addr).Effect w.ch b ch (v.pcs addr)) ∨
      (∀ b, a ≠ .pc addr b) ∧ (v.pcs addr).inReader = (w.pcs addr).inReader ∧
        (v.pcs addr).data = (w.pcs addr).data := by
  cases step_effect h with
  | op _ hd =>
    refine .inr ⟨nofun, ?_⟩
    cases hd with
    | recvKill | sendKill | sendRead | recvDead | sendOut =>
      exact ⟨Traffic.field_setPc PeerConn.inReader rfl, Traffic.field_setPc PeerConn.data rfl⟩
    | dial hd =>
      exact ⟨(Traffic.field_dial hi.traffic hd PeerConn.inReader rfl :),
        (Traffic.field_dial hi.traffic hd PeerConn.data rfl :)⟩
    | _ => exact ⟨rfl, rfl⟩
  | openConn hd =>
    exact .inr ⟨nofun, Traffic.field_dial hi.traffic hd PeerConn.inReader rfl,
      Traffic.field_dial hi.traffic hd PeerConn.data rfl⟩
  | @startRun addr' _ hr =>
    have hw : (w.pcs addr').start.inReader = (w.pcs addr').inReader := by
      rw [PeerConn.inReader, PeerConn.inReader, (hi.readers addr').idle hr]
      rfl
    exact .inr ⟨nofun, Traffic.field_setPc PeerConn.inReader hw,
      Traffic.field_setPc PeerConn.data rfl⟩
  | @pc addr' b ch pc he =>
    by_cases ha : addr = addr'
    · subst ha
      exact .inl ⟨b, ch, rfl, by rwa [setPc_self]⟩
    · rw [setPc_of_ne ha]
      exact .inr ⟨fun b hb => ha (by cases hb; rfl), rfl, rfl⟩
  | reconnect he => cases he <;> exact .inr ⟨nofun, rfl, rfl⟩
  | main he => cases he <;> exact .inr ⟨nofun, rfl, rfl⟩
  | _ => exact .inr ⟨nofun, rfl, rfl⟩

lemma flows_of_ne (ha : ∀ b, a ≠ .pc addr b) :
    datagrams addr w a = [] ∧ handed addr w a = [] := by
  cases a with
  | pc addr' b =>
    have hne : addr' ≠ addr := by
      rintro rfl
      exact ha b rfl
    exact ⟨if_neg hne, if_neg hne⟩
  | _ => exact ⟨rfl, rfl⟩

lemma reading_conserves (token : Token) (addr : ℕ) :
    (reading addr).Conserves (Steps (Network.step token)) Inv := by
  intro w a v hi h
  rcases reader_step hi h addr with ⟨b, ch, rfl, he⟩ | ⟨ha, hreader, -⟩
  · simpa [reading, arrived, datagrams, handed] using PeerConn.reader_effect he
  · obtain ⟨hd, hh⟩ := flows_of_ne (w := w) ha
    simp [reading, arrived, hd, hh, hreader]

lemma data_step (hi : Inv w) (h : step token w a = some v) (addr : ℕ) :
    (v.pcs addr).data = (datagrams addr w a).foldl overwrite (w.pcs addr).data := by
  rcases reader_step hi h addr with ⟨b, ch, rfl, he⟩ | ⟨ha, -, hdata⟩
  · rw [PeerConn.data_effect he, datagrams, if_pos rfl]
  · rw [(flows_of_ne ha).1, hdata]
    rfl

theorem run_arrives {handles : ℕ} {tr : List (World × Action)} {u : World}
    (h : Run (Steps (step token)) (Network.init handles) tr u) : Arrives tr u := by
  have hi := inv_init handles
  have hstep : ∀ s a t, Inv s → Steps (Network.step token) s a t → Inv t :=
    fun _ _ _ hi he => hi.step he
  have hu := h.invariant_last hstep hi
  have hentered : total entered tr = u.ch.localChan.buf := by
    have hc := (localChan_conserves token).run hstep h hi
    have hnone : total localChan.outflow tr = [] := List.flatMap_eq_nil_iff.mpr fun _ _ => rfl
    rwa [hnone] at hc
  have hqueue : List.Forall₂ Enters (total handedOn tr) u.ch.localChan.buf := by
    rw [← hentered]
    exact total_forall₂ (h.all_steps Inv hstep (fun _ a _ hi _ => enters_step hi a) hi)
  refine ⟨fun addr => (reading_conserves token addr).run hstep h hi, hqueue, fun addr => ?_, ?_,
    hu.injected⟩
  · exact foldl_total (fun w => (w.pcs addr).data) overwrite hstep
      (fun _ _ _ hi he => data_step hi he addr) h hi
  · rw [hqueue.length_eq]
    exact hu.length

section Samples

def twoArrive : List Action :=
  [.openConn friend true, .startRun 0, .pc 0 .connect, .pc 0 (.read Traffic.helloPacket.asUdpData),
    .pc 0 .sendLocal, .pc 0 (.read { Traffic.helloPacket with payload := [2] }.asUdpData)]

/-- The first packet now reads as the second one. -/
theorem twoArrive_arrives : ∃ tr u, tr.map Prod.snd = twoArrive ∧
    Run (Steps (step sampleToken)) (Network.init 1) tr u ∧ Arrives tr u ∧
    u.ch.localChan.buf.map (fun entry => entry.packet.view (u.pcs entry.addr).data) =
      [{ Traffic.helloPacket with payload := [2] }] := by
  have hend : (exec (step sampleToken) (Network.init 1) twoArrive).any (fun u => decide
      (u.ch.localChan.buf.map (fun entry => entry.packet.view (u.pcs entry.addr).data) =
        [{ Traffic.helloPacket with payload := [2] }])) = true := rfl
  obtain ⟨tr, u, ha, hr, hd⟩ := exec_any _ hend
  exact ⟨tr, u, ha, hr, run_arrives hr, of_decide_eq_true hd⟩

end Samples

end Inward

end XbTunnel.Daemon
