import XbTunnel.Daemon.Moves
import XbTunnel.Daemon.Lan

/-! The consoles that the daemon advertises. What `runpcap` hands on is the destination of a captured
broadcast, and every copy of it is appended. -/

namespace XbTunnel.Daemon.Advertise

open Common Udp StateManager Network Lib.Channels Lib.Runs

/-- The senders of the broadcast frames so far: `queued` in `lm.xboxes`, `announcing` by
`LocalManager.run`, `announced` in `newXboxChan` and `processed` by the state manager. -/
structure Senders where
  queued : List Xbox
  announcing : Option Xbox
  announced : List Xbox
  processed : List Xbox

structure Tracked where
  w : World
  senders : Senders

def start (handles : ℕ) : Tracked := ⟨init handles, [], none, [], []⟩

def sender (phase : LocalManager.PcapPhase) : List Xbox :=
  (Lan.registering phase).toList.map UdpPacket.src

def record (s : Tracked) : Action → Senders
  | .lm (.sendXbox i) =>
    { s.senders with queued := s.senders.queued ++ sender (s.w.lm.pcap i) }
  | .lm .recvXbox =>
    { s.senders with queued := s.senders.queued.tail, announcing := s.senders.queued.head? }
  | .lm .sendNewXbox =>
    { s.senders with
      announcing := none, announced := s.senders.announced ++ s.senders.announcing.toList }
  | .takeEvent (.newXbox _) _ =>
    { s.senders with
      announced := s.senders.announced.tail
      processed := s.senders.processed ++ s.senders.announced.head?.toList }
  | _ => s.senders

def step (token : Token) (s : Tracked) (a : Action) : Option Tracked :=
  (Network.step token s.w a).map fun w => ⟨w, record s a⟩

def advertised (w : World) : List Xbox := w.sm.localState.xboxes

structure Advertises (s : Tracked) : Prop where
  nodup : (advertised s.w).Nodup
  senders : ∀ x, x ∈ advertised s.w ↔ x ∈ s.senders.processed
  real : broadcast ∉ advertised s.w

def takesXbox : Action → Bool
  | .takeEvent (.newXbox _) _ => true
  | _ => false

def announcing : LocalManager.RunPhase → Option Xbox
  | .announcing x => some x
  | .selecting | .stopping _ | .returned => none

structure Inv (s : Tracked) : Prop where
  registers : ∀ i, ∀ packet ∈ Lan.registering (s.w.lm.pcap i), packet.dst = broadcast
  queued : s.w.lm.xboxes.buf.map XboxHandle.x = s.senders.queued.map fun _ => broadcast
  announcing : announcing s.w.lm.run = s.senders.announcing.map fun _ => broadcast
  announced : s.w.ch.newXboxChan.buf = s.senders.announced.map fun _ => broadcast
  advertised : advertised s.w = s.senders.processed.map fun _ => broadcast

variable {token : Token} {s t : Tracked} {w v : World} {a : Action}

section LocalManager

variable {ch ch' : Shared} {lm lm' : LocalManager} {b : LocalManager.Action}

lemma registers_effect (h : ∀ i, ∀ packet ∈ Lan.registering (lm.pcap i), packet.dst = broadcast)
    (he : lm.Effect ch b ch' lm') :
    ∀ i, ∀ packet ∈ Lan.registering (lm'.pcap i), packet.dst = broadcast := by
  intro j packet' hm
  cases he with
  | capture =>
    rcases Lan.mem_registering_setPcap hm with hm | hm
    · obtain ⟨rfl, hd⟩ := Lan.mem_registering_captured hm
      exact hd
    · exact h j packet' hm
  | sendXbox | recvStop | poll | miss | forward =>
    exact h j packet' ((Lan.mem_registering_setPcap hm).resolve_left nofun)
  | _ => exact h j packet' hm

end LocalManager

structure Apart (w v : World) : Prop where
  pcap : v.lm.pcap = w.lm.pcap
  xboxes : v.lm.xboxes = w.lm.xboxes
  run : v.lm.run = w.lm.run
  newXboxChan : v.ch.newXboxChan = w.ch.newXboxChan
  advertised : advertised v = advertised w

inductive Sides (w : World) : Action → World → Prop
  | lm {b ch lm} : w.lm.Effect w.ch b ch lm → Sides w (.lm b) { w with ch, lm }
  | newXbox {x o newXboxChan} : w.ch.newXboxChan.recv = some (x, newXboxChan) →
      Sides w (.takeEvent (.newXbox x) o) { w with
        ch := { w.ch with newXboxChan }
        sm := (turn w.sm (.newXbox x) o).1
        ops := (turn w.sm (.newXbox x) o).2 }
  | apart {b : Action} {v : World} : (∀ c, b ≠ .lm c) → takesXbox b = false → Apart w v →
      Sides w b v

lemma apart_dial {peerId : PeerId} {initiator : Bool} (h : dial peerId initiator w = some v) :
    Apart w v := by
  obtain ⟨_, -, rfl⟩ := dial_eq_some h
  exact ⟨rfl, rfl, rfl, rfl, rfl⟩

lemma apart_turn {ch : Shared} {e : Event} {o : Orders} (he : takesXbox (.takeEvent e o) = false)
    (h : recvEvent w.ch e = some ch) :
    Apart w { w with ch, sm := (turn w.sm e o).1, ops := (turn w.sm e o).2 } := by
  cases recvEvent_received h with
  | newXbox => cases he
  | _ => exact ⟨rfl, rfl, rfl, rfl, rfl⟩

lemma step_sides (h : Network.step token w a = some v) : Sides w a v := by
  cases step_effect h with
  | @takeEvent e o ch _ _ _ he =>
    have hr := recvEvent_received he
    cases hr with
    | newXbox hr => exact .newXbox hr
    | _ => exact .apart nofun rfl (apart_turn rfl he)
  | op _ hd =>
    refine .apart nofun rfl ?_
    cases hd with
    | dial hd =>
      have hap := apart_dial hd
      exact ⟨hap.pcap, hap.xboxes, hap.run, hap.newXboxChan, hap.advertised⟩
    | _ => exact ⟨rfl, rfl, rfl, rfl, rfl⟩
  | openConn hd => exact .apart nofun rfl (apart_dial hd)
  | pc he => exact .apart nofun rfl ⟨rfl, rfl, rfl, by cases he <;> rfl, rfl⟩
  | lm he => exact .lm he
  | client _ he => exact .apart nofun rfl ⟨rfl, rfl, rfl, by cases he <;> rfl, rfl⟩
  | reconnect he => exact .apart nofun rfl (by cases he <;> exact ⟨rfl, rfl, rfl, rfl, rfl⟩)
  | main he => exact .apart nofun rfl (by cases he <;> exact ⟨rfl, rfl, rfl, rfl, rfl⟩)
  | takeKill | startRun => exact .apart nofun rfl ⟨rfl, rfl, rfl, rfl, rfl⟩

lemma record_apart (hl : ∀ b, a ≠ .lm b) (hx : takesXbox a = false) :
    record s a = s.senders := by
  cases a with
  | takeEvent e o =>
    cases e with
    | newXbox x => cases hx
    | _ => rfl
  | lm b => exact absurd rfl (hl b)
  | _ => rfl

lemma sender_registering {packet : UdpPacket} {phase : LocalManager.PcapPhase}
    (h : phase = .registering packet) : sender phase = [packet.src] := by
  rw [h]
  rfl

lemma inv_lm {b : LocalManager.Action} {ch : Shared} {lm : LocalManager} (hs : Inv s)
    (he : s.w.lm.Effect s.w.ch b ch lm) : Inv ⟨{ s.w with ch, lm }, record s (.lm b)⟩ := by
  have hreg := registers_effect hs.registers he
  obtain ⟨hregs, hq, ha, hn, hx⟩ := hs
  cases he with
  | @recvXbox xh xboxes hr hc =>
    obtain ⟨rest, hb, rfl⟩ := Chan.recv_eq_some.mp hc
    rw [hb, List.map_cons] at hq
    obtain ⟨y, queued, hy, he, hrest⟩ := List.map_eq_cons_iff.mp hq.symm
    refine ⟨hreg, ?_, ?_, hn, hx⟩
    · simp only [record, hy, List.tail_cons, hrest]
    · simp only [record, hy, List.head?_cons, Option.map_some, announcing, he]
  | @sendNewXbox x newXboxChan hr hc =>
    rw [hr] at ha
    obtain ⟨y, hy, he⟩ := Option.map_eq_some_iff.mp ha.symm
    refine ⟨hreg, hq, rfl, ?_, hx⟩
    rw [Chan.send_buf hc, hn, ← he]
    simp only [record, hy, Option.toList_some, List.map_append, List.map_singleton]
  | @sendXbox i packet xboxes hr hc =>
    have hd := hregs i packet (hr ▸ rfl)
    refine ⟨hreg, ?_, ha, hn, hx⟩
    have hb : xboxes.buf.map XboxHandle.x =
        (s.senders.queued ++ [packet.src]).map fun _ => broadcast := by
      rw [Chan.send_buf hc, List.map_append, hq, List.map_append, List.map_singleton, hd]
      rfl
    simp only [record, sender_registering hr]
    exact hb
  | recvKill hr | stopChild hr | sendDead hr =>
    rw [hr] at ha
    exact ⟨hreg, hq, ha, hn, hx⟩
  | _ => exact ⟨hreg, hq, ha, hn, hx⟩

lemma Inv.step (hs : Inv s) (h : step token s a = some t) : Inv t := by
  obtain ⟨v, hv, rfl⟩ := Option.map_eq_some_iff.mp h
  cases step_sides hv with
  | lm he => exact inv_lm hs he
  | @newXbox x o newXboxChan hr =>
    obtain ⟨y, announced, hy, he, hrest⟩ := Chan.recv_history hr hs.announced
    refine ⟨hs.registers, hs.queued, hs.announcing, ?_, ?_⟩
    · simp only [record, hy, List.tail_cons, hrest]
    · have hx : Advertise.advertised s.w ++ [x] =
          (s.senders.processed ++ [y]).map fun _ => broadcast := by
        rw [hs.advertised, List.map_append, List.map_singleton, he]
      simp only [record, hy, List.head?_cons, Option.toList_some]
      exact hx
  | apart hl hx hap =>
    rw [record_apart hl hx]
    exact ⟨hap.pcap ▸ hs.registers, hap.xboxes ▸ hs.queued, hap.run ▸ hs.announcing,
      hap.newXboxChan ▸ hs.announced, hap.advertised.trans hs.advertised⟩

lemma inv_start (handles : ℕ) : Inv (start handles) where
  registers := (Lan.learns_init handles).registers
  queued := rfl
  announcing := rfl
  announced := rfl
  advertised := rfl

theorem run_advertises_broadcast {handles : ℕ} {tr : List (Tracked × Action)} {u : Tracked}
    (h : Run (Steps (step token)) (start handles) tr u) :
    advertised u.w = List.replicate u.senders.processed.length broadcast := by
  have hi : Inv u := h.invariant_last (fun _ _ _ hs he => hs.step he) (inv_start handles)
  rw [hi.advertised, List.map_const']

lemma Inv.advertises_iff_nil (hs : Inv s) : Advertises s ↔ s.senders.processed = [] := by
  constructor
  · intro h
    have hr := h.real
    rw [hs.advertised] at hr
    by_contra hne
    obtain ⟨x, hx⟩ := List.exists_mem_of_ne_nil _ hne
    exact hr (List.mem_map.mpr ⟨x, hx, rfl⟩)
  · intro hp
    have ha := hs.advertised
    rw [hp, List.map_nil] at ha
    exact ⟨by rw [ha]; exact .nil, fun x => by rw [ha, hp], by rw [ha]; exact List.not_mem_nil⟩

lemma takes_processed (hs : Inv s) (h : Advertise.step token s a = some t)
    (ha : takesXbox a = true) : t.senders.processed ≠ [] := by
  obtain ⟨v, hv, rfl⟩ := Option.map_eq_some_iff.mp h
  cases step_sides hv with
  | lm => cases ha
  | newXbox hr =>
    obtain ⟨y, announced, hy, -, -⟩ := Chan.recv_history hr hs.announced
    simp [record, hy]
  | apart _ hx => cases ha.symm.trans hx

lemma record_processed (ha : takesXbox a = false) :
    (record s a).processed = s.senders.processed := by
  cases a with
  | lm b => cases b <;> rfl
  | takeEvent e o =>
    cases e with
    | newXbox x => cases ha
    | _ => rfl
  | _ => rfl

theorem advertises_iff {handles : ℕ} {tr : List (Tracked × Action)} {u : Tracked}
    (h : Run (Steps (step token)) (start handles) tr u) :
    AllStates Advertises tr u ↔ AllSteps (fun _ a => takesXbox a = false) tr := by
  refine h.all_states_iff (fun s => Inv s ∧ s.senders.processed = [])
    (fun s hs => hs.1.advertises_iff_nil.mpr hs.2) ?_ ?_ ⟨inv_start handles, rfl⟩
  · rintro s a t ⟨hi, hp⟩ hs ha
    refine ⟨hi.step hs, ?_⟩
    obtain ⟨v, -, rfl⟩ := Option.map_eq_some_iff.mp hs
    exact (record_processed ha).trans hp
  · rintro s a t ⟨hi, -⟩ hs ha
    rw [(hi.step hs).advertises_iff_nil]
    exact takes_processed hi hs (Bool.of_not_eq_false ha)

def heard : List Action :=
  [.lm (.poll 0), .lm (.capture 0 Lan.hello), .lm (.sendXbox 0), .lm .recvXbox, .lm .sendNewXbox]

theorem heard_advertises : ∃ tr u, tr.map Prod.snd = heard ∧
    Run (Steps (step sampleToken)) (start 1) tr u ∧ AllStates Advertises tr u := by
  obtain ⟨tr, u, ha, hr, hs⟩ :=
    follow_decide (step sampleToken) (fun _ a => takesXbox a = false) (start 1) heard rfl
  exact ⟨tr, u, ha, hr, (advertises_iff hr).mpr hs⟩

def heardAndTaken : List Action := heard ++ [.takeEvent (.newXbox broadcast) ⟨[], []⟩]

theorem heardAndTaken_advertises_broadcast : ∃ tr u, tr.map Prod.snd = heardAndTaken ∧
    Run (Steps (step sampleToken)) (start 1) tr u ∧ ¬ Advertises u := by
  have hend : (exec (step sampleToken) (start 1) heardAndTaken).any (fun u =>
      decide (broadcast ∈ advertised u.w)) = true := rfl
  obtain ⟨tr, u, ha, hr, hd⟩ := exec_any _ hend
  exact ⟨tr, u, ha, hr, fun h => h.real (of_decide_eq_true hd)⟩

end XbTunnel.Daemon.Advertise
