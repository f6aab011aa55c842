import XbTunnel.Daemon.Moves
import XbTunnel.Daemon.Resolve

/-! Whether a call of `resolvePeerConns` returns. The state manager is the only receiver of
`newPeerConnChan`, and nothing calls `PeerConn.run`, so while the call lasts nobody else uses the
channels it operates on. -/

namespace XbTunnel.Daemon.Returning

open Common Udp Remote StateManager Network Lib.Channels Lib.Runs Lib.Maps

structure IdleConn (pc : PeerConn) : Prop where
  run : pc.run = .notStarted
  reader : pc.reader = .notStarted
  kill : pc.kill.Mailbox
  held : pc.kill.buf.length ≤ 1

structure Inbox (c : Chan PcRef) : Prop where
  cap : c.cap = 10
  open_ : c.closed = false
  queued : c.buf.length ≤ 10

structure Idle (w : World) : Prop where
  pcs : ∀ addr, IdleConn (w.pcs addr)
  fresh : ∀ addr, w.nextPc ≤ addr → (w.pcs addr).kill.buf = []
  inbox : Inbox w.ch.newPeerConnChan

/-- The state manager has entered the call, and `PeerConn.run` runs on no connection, as nothing
calls it; `rest` is what the state manager does afterwards. -/
structure Calls (w : World) (my : PeerId) (m : PeerConnMap) (peerList : Option (List Peer))
    (o : Orders) (rest : List Op) : Prop where
  idle : Idle w
  known : ∀ pid pc, m.lookup pid = some pc → Known w pc ∧ pc.peerId = pid
  orders : o.Valid m
  ops : w.ops = resolvePeerConns my m peerList o.first o.second ++ rest

def During (token : Token) (rest : List Op) (w : World) (a : Action) (v : World) : Prop :=
  step token w a = some v ∧ (a = .op ∧ w.ops ≠ rest ∨ a.other = true)

/-- Whatever the others do, none of the remaining operations blocks forever. -/
def Returns (token : Token) (rest : List Op) (w : World) : Prop :=
  ∀ tr v, Run (During token rest) w tr v → CanReach (During token rest) (fun u => u.ops = rest) v

variable {token : Token} {rest : List Op} {w v : World} {a : Action} {op : Op}

section Idle

variable {pc pc' : PeerConn} {ch ch' : Shared} {b : PeerConn.Action} {addr : ℕ}

lemma idleConn_new (addr : ℕ) (peerId : PeerId) (nat : PeerConn.DialPhase) :
    IdleConn (.new addr peerId nat) :=
  ⟨rfl, rfl, ⟨rfl, rfl⟩, Nat.zero_le _⟩

lemma IdleConn.of_same (h : IdleConn pc) (hr : pc'.run = pc.run) (hd : pc'.reader = pc.reader)
    (hk : pc'.kill = pc.kill) : IdleConn pc' :=
  ⟨hr.trans h.run, hd.trans h.reader, hk ▸ h.kill, hk ▸ h.held⟩

lemma IdleConn.effect (h : IdleConn pc) (he : pc.Effect ch b ch' pc') :
    IdleConn pc' ∧ pc'.kill = pc.kill ∧ ch'.newPeerConnChan = ch.newPeerConnChan := by
  cases he with
  | callRead | killRead | callWrite | connect | failConnect | sendRemovePeer =>
    exact ⟨h.of_same rfl rfl rfl, rfl, rfl⟩
  | recvOut hr | recvKill hr | write hr | closeKill hr | closeOut hr | killSideband hr
  | awaitSideband hr | reportDead hr => cases h.run.symm.trans hr
  | read hr | failRead hr | sendLocal hr | sendKill hr => cases h.reader.symm.trans hr

lemma IdleConn.killed {kill : Chan Unit} (h : IdleConn pc) (hs : pc.kill.send () = some kill) :
    IdleConn { pc with kill } := by
  have hm := h.kill.of_send hs
  exact ⟨h.run, h.reader, hm, (Chan.send_length hs).trans_eq hm.cap⟩

lemma IdleConn.dropped {kill : Chan Unit} (h : IdleConn pc) (hd : pc.kill.drop = some kill) :
    IdleConn { pc with kill } :=
  ⟨h.run, h.reader, h.kill.of_drop hd, (Chan.drop_length hd).trans h.held⟩

lemma IdleConn.moves (h : IdleConn (w.pcs addr)) (ha : ∀ addr, a ≠ .startRun addr)
    (hm : Moves w a addr pc) : IdleConn pc := by
  cases hm with
  | stays => exact h
  | starts hs => exact absurd hs (ha addr)
  | acts _ he => exact (h.effect he).1
  | takesKill _ _ _ hd => exact h.dropped hd
  | killed _ _ _ hs => exact h.killed hs
  | read | sent | takesDead => exact h.of_same rfl rfl rfl

lemma Inbox.sent {c d : Chan PcRef} {pc : PcRef} (h : Inbox c) (hs : c.send pc = some d) :
    Inbox d := by
  have hc := (Chan.send_cap hs).trans h.cap
  exact ⟨hc, (Chan.send_closed hs).trans h.open_, (Chan.send_length hs).trans_eq hc⟩

lemma Inbox.received {c d : Chan PcRef} {pc : PcRef} (h : Inbox c)
    (hr : c.recv = some (pc, d)) : Inbox d :=
  ⟨(Chan.recv_cap hr).trans h.cap, (Chan.recv_closed hr).trans h.open_,
    (Chan.recv_length hr).trans h.queued⟩

lemma recvEvent_inbox {e : Event} (h : Inbox ch.newPeerConnChan)
    (he : recvEvent ch e = some ch') : Inbox ch'.newPeerConnChan := by
  cases recvEvent_received he with
  | newPeerConn hr => exact h.received hr
  | _ => exact h

lemma dial_inbox {peerId : PeerId} {initiator : Bool} (h : Inbox w.ch.newPeerConnChan)
    (hd : dial peerId initiator w = some v) : Inbox v.ch.newPeerConnChan := by
  obtain ⟨_, hs, rfl⟩ := dial_eq_some hd
  exact h.sent hs

lemma Idle.inbox_step (hi : Idle w) (h : step token w a = some v) :
    Inbox v.ch.newPeerConnChan := by
  cases step_effect h with
  | takeEvent _ _ _ he => exact recvEvent_inbox hi.inbox he
  | op _ hd =>
    cases hd with
    | dial hd => exact (dial_inbox hi.inbox hd :)
    | _ => exact hi.inbox
  | openConn hd => exact dial_inbox hi.inbox hd
  | pc he => exact (((hi.pcs _).effect he).2.2 ▸ hi.inbox :)
  | lm he => exact (lm_aside he).newPeerConnChan ▸ hi.inbox
  | client _ he => exact (client_aside he).newPeerConnChan ▸ hi.inbox
  | reconnect he => exact (reconnect_aside he).newPeerConnChan ▸ hi.inbox
  | main he => exact (main_aside he).newPeerConnChan ▸ hi.inbox
  | _ => exact hi.inbox

lemma Idle.kill_moves (hi : Idle w)
    (hk : a = .op → ∀ op ∈ w.ops.head?, ∀ ref ∈ target op, Known w ref)
    (hn : w.nextPc ≤ addr) (hm : Moves w a addr pc) : pc.kill = (w.pcs addr).kill := by
  have hknown {op : Op} {ref : PcRef} (ha : a = .op) (ho : op ∈ w.ops.head?)
      (ht : ref ∈ target op) : ref.addr ≠ addr := by
    have hlt := (hk ha op ho ref ht).1
    omega
  cases hm with
  | acts _ he => exact ((hi.pcs addr).effect he).2.1
  | takesKill ha ho hr => exact absurd hr (hknown ha ho rfl)
  | killed ha ho hr => exact absurd hr (hknown ha ho rfl)
  | _ => rfl

lemma Idle.step (hi : Idle w)
    (hk : a = .op → ∀ op ∈ w.ops.head?, ∀ ref ∈ target op, Known w ref)
    (h : Network.step token w a = some v) (ha : ∀ addr, a ≠ .startRun addr) : Idle v where
  pcs addr := by
    rcases step_moves h addr with ho | hm
    · obtain ⟨peerId, initiator, hpc⟩ := ho.pc
      rw [hpc]
      exact idleConn_new ..
    · exact (hi.pcs addr).moves ha hm
  fresh addr hn := by
    have hn' := (step_nextPc h).trans hn
    rcases step_moves h addr with ho | hm
    · obtain ⟨peerId, initiator, hpc⟩ := ho.pc
      rw [hpc]
      rfl
    · rw [hi.kill_moves hk hn' hm]
      exact hi.fresh addr hn'
  inbox := hi.inbox_step h

lemma idle_init (handles : ℕ) : Idle (init handles) where
  pcs _ := idleConn_new ..
  fresh _ _ := rfl
  inbox := ⟨rfl, rfl, Nat.zero_le _⟩

end Idle

structure View where
  queued : ℕ
  held : ℕ → Bool

def view (w : World) : View :=
  ⟨w.ch.newPeerConnChan.buf.length, fun addr => decide ((w.pcs addr).kill.buf ≠ [])⟩

def View.doOp (s : View) : Op → Option View
  | .recvKill pc =>
    if s.held pc.addr then some { s with held := Function.update s.held pc.addr false } else none
  | .sendKill pc =>
    if s.held pc.addr then none else some { s with held := Function.update s.held pc.addr true }
  | .dial _ _ => if s.queued < 10 then some { s with queued := s.queued + 1 } else none
  | _ => none

def resolving : Op → Bool
  | .recvKill _ | .sendKill _ | .dial _ _ => true
  | _ => false

lemma view_setPc (w : World) (addr : ℕ) (pc : PeerConn) :
    view (setPc addr pc w) =
      { view w with
        held := Function.update (view w).held addr (decide (pc.kill.buf ≠ [])) } := by
  have hh : (view (setPc addr pc w)).held =
      Function.update (view w).held addr (decide (pc.kill.buf ≠ [])) := by
    funext addr'
    by_cases ha : addr' = addr
    · rw [ha, Function.update_self]
      simp only [view, setPc_self]
    · rw [Function.update_of_ne ha]
      simp only [view, setPc_of_ne ha]
  rw [← hh]
  rfl

lemma view_setPc_same {addr : ℕ} {pc : PeerConn} (hk : pc.kill.buf = (w.pcs addr).kill.buf) :
    view (setPc addr pc w) = view w := by
  rw [view_setPc, hk]
  exact congrArg (View.mk _) (Function.update_eq_self addr (view w).held)

lemma view_dial {peerId : PeerId} {initiator : Bool} (hi : Idle w) :
    (dial peerId initiator w).map view = (view w).doOp (.dial peerId initiator) := by
  by_cases hq : w.ch.newPeerConnChan.buf.length < 10
  · have hs : w.ch.newPeerConnChan.send ⟨w.nextPc, peerId⟩ =
        some { w.ch.newPeerConnChan with
          buf := w.ch.newPeerConnChan.buf ++ [⟨w.nextPc, peerId⟩] } :=
      Chan.send_eq_some.mpr ⟨⟨hi.inbox.open_, hq.trans_eq hi.inbox.cap.symm⟩, rfl⟩
    rw [View.doOp, if_pos (show (view w).queued < 10 from hq)]
    simp only [dial, hs, Option.bind_eq_bind, Option.bind_some, Option.map_some]
    rw [view_setPc_same (hi.fresh w.nextPc le_rfl).symm]
    simp [view]
  · have hf : w.ch.newPeerConnChan.Full := by
      refine ⟨hi.inbox.open_, ?_⟩
      rw [hi.inbox.cap]
      omega
    rw [View.doOp, if_neg (show ¬ (view w).queued < 10 from hq)]
    simp only [dial, Chan.send_full hf, Option.bind_eq_bind, Option.bind_none, Option.map_none]

lemma view_recvKill {pc : PcRef} (hi : Idle w) :
    (doOp w (.recvKill pc)).map view = (view w).doOp (.recvKill pc) := by
  have hc := (hi.pcs pc.addr).kill.open_
  have hl := (hi.pcs pc.addr).held
  cases hb : (w.pcs pc.addr).kill.buf with
  | nil =>
    have hd : (w.pcs pc.addr).kill.drop = none := by
      rw [Chan.drop, hb]
      exact if_neg (by rw [hc]; exact Bool.false_ne_true)
    have hv : (view w).held pc.addr = false := by simp [view, hb]
    simp only [doOp, hd, Option.bind_eq_bind, Option.bind_none, Option.map_none, View.doOp, hv]
    rfl
  | cons x rest =>
    have hr : rest = [] := by
      rw [hb, List.length_cons] at hl
      exact List.length_eq_zero_iff.mp (by omega)
    have hd : (w.pcs pc.addr).kill.drop = some { (w.pcs pc.addr).kill with buf := [] } := by
      rw [Chan.drop, hb, hr]
    have hv : (view w).held pc.addr = true := by simp [view, hb]
    simp only [doOp, hd, Option.bind_eq_bind, Option.bind_some, Option.map_some, View.doOp, hv,
      view_setPc]
    rfl

lemma view_sendKill {pc : PcRef} (hi : Idle w) :
    (doOp w (.sendKill pc)).map view = (view w).doOp (.sendKill pc) := by
  have hm := (hi.pcs pc.addr).kill
  cases hb : (w.pcs pc.addr).kill.buf with
  | nil =>
    obtain ⟨kill, hs⟩ := hm.send_of_empty hb ()
    have hv : (view w).held pc.addr = false := by simp [view, hb]
    have hk : decide (kill.buf ≠ []) = true := decide_eq_true (Chan.send_buf_ne_nil hs)
    simp only [doOp, hs, Option.bind_eq_bind, Option.bind_some, Option.map_some, View.doOp, hv,
      view_setPc, hk]
    rfl
  | cons x rest =>
    have hf : (w.pcs pc.addr).kill.Full := by
      refine ⟨hm.open_, ?_⟩
      rw [hm.cap, hb, List.length_cons]
      omega
    have hv : (view w).held pc.addr = true := by simp [view, hb]
    simp only [doOp, Chan.send_full hf, Option.bind_eq_bind, Option.bind_none, Option.map_none,
      View.doOp, hv, if_true]

lemma view_doOp (hi : Idle w) (hr : resolving op = true) :
    (doOp w op).map view = (view w).doOp op := by
  cases op with
  | recvKill pc => exact view_recvKill hi
  | sendKill pc => exact view_sendKill hi
  | dial peerId initiator => exact view_dial hi
  | _ => cases hr

structure Pending (w : World) (rest call : List Op) : Prop where
  idle : Idle w
  ops : w.ops = call ++ rest
  resolving : ∀ op ∈ call, resolving op = true
  known : ∀ op ∈ call, ∀ ref ∈ target op, Known w ref

def Fits (w : World) (call : List Op) : Prop := (exec View.doOp (view w) call).isSome

lemma other_view (hi : Idle w) (h : step token w a = some v) (ho : a.other = true) :
    view v = view w ∧ v.ops = w.ops := by
  have haside (h : Aside w v) : view v = view w ∧ v.ops = w.ops := by
    refine ⟨?_, h.ops⟩
    simp only [view, h.pcs, h.newPeerConnChan]
  cases step_effect h with
  | @pc addr _ ch pc he =>
    obtain ⟨-, hk, hc⟩ := (hi.pcs addr).effect he
    have hv : view (setPc addr pc { w with ch }) = view { w with ch } :=
      view_setPc_same (congrArg Chan.buf hk)
    refine ⟨hv.trans ?_, rfl⟩
    simp only [view, hc]
  | lm he => exact haside (lm_aside he)
  | client _ he => exact haside (client_aside he)
  | reconnect he => exact haside (reconnect_aside he)
  | main he => exact haside (main_aside he)
  | _ => cases ho

lemma step_op {ops : List Op} (ho : w.ops = op :: ops) :
    Network.step token w .op = (doOp w op).map fun w => { w with ops } := by
  simp only [Network.step, ho]

lemma During.not_start (h : During token rest w a v) (addr : ℕ) : a ≠ .startRun addr := by
  rintro rfl
  rcases h.2 with ⟨h, -⟩ | h <;> cases h

lemma Pending.step {call : List Op} (hp : Pending w rest call) (h : During token rest w a v) :
    ∃ call', Pending v rest call' ∧ (Fits w call ↔ Fits v call') := by
  have hs := h.1
  have hknown {ref : PcRef} (hk : Known w ref) : Known v ref := hk.step hs
  rcases h.2 with ⟨rfl, hne⟩ | ho
  · cases call with
    | nil => exact absurd hp.ops hne
    | cons op call =>
      have hops : w.ops = op :: (call ++ rest) := hp.ops
      have hi : Idle v := by
        refine hp.idle.step (fun _ op' ho ref ht => ?_) hs h.not_start
        rw [hops] at ho
        obtain rfl := Option.some.inj ho
        exact hp.known op List.mem_cons_self ref ht
      have hv := view_doOp hp.idle (hp.resolving op List.mem_cons_self)
      rw [step_op hops] at hs
      obtain ⟨u, hu, rfl⟩ := Option.map_eq_some_iff.mp hs
      refine ⟨call, ⟨hi, rfl, fun op' ho => hp.resolving op' (List.mem_cons_of_mem _ ho),
        fun op' ho ref ht => hknown (hp.known op' (List.mem_cons_of_mem _ ho) ref ht)⟩, ?_⟩
      rw [hu, Option.map_some] at hv
      rw [Fits, exec, ← hv]
      rfl
  · obtain ⟨hv, hops⟩ := other_view hp.idle hs ho
    have hi := hp.idle.step (fun ha => by subst ha; cases ho) hs h.not_start
    refine ⟨call, ⟨hi, hops.trans hp.ops, hp.resolving, fun op ho ref ht =>
      hknown (hp.known op ho ref ht)⟩, ?_⟩
    rw [Fits, Fits, hv]

lemma Pending.reaches (token : Token) {call : List Op} (hp : Pending w rest call)
    (hf : Fits w call) : CanReach (During token rest) (fun u => u.ops = rest) w := by
  induction call generalizing w with
  | nil => exact .now hp.ops
  | cons op call ih =>
    have hops : w.ops = op :: (call ++ rest) := hp.ops
    have hne : w.ops ≠ rest := by
      intro he
      have hlen := congrArg List.length (hops.symm.trans he)
      simp only [List.length_cons, List.length_append] at hlen
      omega
    have hv := view_doOp hp.idle (hp.resolving op List.mem_cons_self)
    have hsome : ((view w).doOp op).isSome := by
      obtain ⟨s, hs⟩ := Option.isSome_iff_exists.mp hf
      obtain ⟨t, ht, -⟩ := Option.bind_eq_some_iff.mp hs
      rw [ht, Option.isSome_some]
    rw [← hv, Option.isSome_map] at hsome
    obtain ⟨u, hu⟩ := Option.isSome_iff_exists.mp hsome
    have hs : During token rest w .op { u with ops := call ++ rest } :=
      ⟨by rw [step_op hops, hu, Option.map_some], .inl ⟨rfl, hne⟩⟩
    obtain ⟨call', hp', hiff⟩ := hp.step hs
    obtain rfl : call = call' := List.append_cancel_right hp'.ops
    exact .next hs (ih hp' (hiff.mp hf))

lemma Pending.fits_of_run {call : List Op} {tr : List (World × Action)}
    (hp : Pending w rest call) (h : Run (During token rest) w tr v) (hv : v.ops = rest) :
    Fits w call := by
  induction h generalizing call with
  | nil =>
    have hc : call = [] := List.append_left_eq_self.mp (hp.ops.symm.trans hv)
    rw [hc]
    rfl
  | cons he _ ih =>
    obtain ⟨call', hp', hiff⟩ := hp.step he
    exact hiff.mpr (ih hp' hv)

lemma Pending.returns_iff (token : Token) {call : List Op} (hp : Pending w rest call) :
    Returns token rest w ↔ Fits w call := by
  constructor
  · intro h
    obtain ⟨tr, v, hr, hv⟩ := h [] w .nil
    exact hp.fits_of_run hr hv
  · intro hf tr v hr
    have hstep : ∀ s a t, (∃ call, Pending s rest call ∧ Fits s call) →
        During token rest s a t → ∃ call, Pending t rest call ∧ Fits t call := by
      rintro s a t ⟨call, hp, hf⟩ he
      obtain ⟨call', hp', hiff⟩ := hp.step he
      exact ⟨call', hp', hiff.mp hf⟩
    obtain ⟨call', hp', hf'⟩ := hr.invariant_last hstep ⟨call, hp, hf⟩
    exact hp'.reaches token hf'

section View

variable {refs : List PcRef}

def View.without (s : View) (refs : List PcRef) : View :=
  { s with held := fun addr => s.held addr && decide (∀ pc ∈ refs, pc.addr ≠ addr) }

def View.with (s : View) (n : ℕ) : View := { s with queued := s.queued + n }

lemma recvKills_isSome (hn : (refs.map PcRef.addr).Nodup) (s : View) (ops : List Op) :
    (exec View.doOp s (refs.map Op.recvKill ++ ops)).isSome ↔
      (∀ pc ∈ refs, s.held pc.addr = true) ∧ (exec View.doOp (s.without refs) ops).isSome := by
  induction refs generalizing s with
  | nil => simp [View.without]
  | cons pc refs ih =>
    obtain ⟨hpc, hn⟩ := List.nodup_cons.mp hn
    have hne : ∀ pc' ∈ refs, pc'.addr ≠ pc.addr :=
      fun pc' hm ha => hpc (List.mem_map.mpr ⟨pc', hm, ha⟩)
    rw [List.map_cons, List.cons_append, exec, View.doOp, List.forall_mem_cons]
    by_cases hh : s.held pc.addr = true
    · have hheld : (∀ pc' ∈ refs, Function.update s.held pc.addr false pc'.addr = true) ↔
          ∀ pc' ∈ refs, s.held pc'.addr = true :=
        forall₂_congr fun pc' hm => by rw [Function.update_of_ne (hne pc' hm)]
      have hw : View.without { s with held := Function.update s.held pc.addr false } refs =
          s.without (pc :: refs) := by
        simp only [View.without, View.mk.injEq, true_and]
        funext addr
        by_cases ha : addr = pc.addr
        · simp [ha]
        · simp [Function.update_of_ne ha, Ne.symm ha]
      rw [if_pos hh, Option.bind_some, ih hn, hheld, hw]
      simp only [hh, true_and]
    · rw [if_neg hh, Option.bind_none]
      simp [hh]

lemma dials_isSome (my : PeerId) (ps : List Peer) (s : View) (hq : s.queued ≤ 10)
    (ops : List Op) :
    (exec View.doOp s (ps.map (dialOf my) ++ ops)).isSome ↔
      s.queued + ps.length ≤ 10 ∧ (exec View.doOp (s.with ps.length) ops).isSome := by
  induction ps generalizing s with
  | nil => simp [View.with, hq]
  | cons p ps ih =>
    rw [List.map_cons, List.cons_append, exec, dialOf, View.doOp, List.length_cons]
    by_cases hr : s.queued < 10
    · have hw : View.with { s with queued := s.queued + 1 } ps.length =
          s.with (ps.length + 1) := by
        simp only [View.with, Nat.add_assoc, Nat.add_comm 1]
      rw [if_pos hr, Option.bind_some, ih { s with queued := s.queued + 1 } hr, hw]
      simp only [Nat.add_assoc, Nat.add_comm 1]
    · rw [if_neg hr, Option.bind_none]
      simp only [Option.isSome_none, Bool.false_eq_true, false_iff, not_and]
      omega

lemma sendKills_isSome (hn : (refs.map PcRef.addr).Nodup) (s : View) :
    (exec View.doOp s (refs.map Op.sendKill)).isSome ↔ ∀ pc ∈ refs, s.held pc.addr = false := by
  induction refs generalizing s with
  | nil => simp [exec]
  | cons pc refs ih =>
    obtain ⟨hpc, hn⟩ := List.nodup_cons.mp hn
    have hne : ∀ pc' ∈ refs, pc'.addr ≠ pc.addr :=
      fun pc' hm ha => hpc (List.mem_map.mpr ⟨pc', hm, ha⟩)
    rw [List.map_cons, exec, View.doOp, List.forall_mem_cons]
    cases hh : s.held pc.addr with
    | true => simp
    | false =>
      have hheld : (∀ pc' ∈ refs, Function.update s.held pc.addr true pc'.addr = false) ↔
          ∀ pc' ∈ refs, s.held pc'.addr = false :=
        forall₂_congr fun pc' hm => by rw [Function.update_of_ne (hne pc' hm)]
      rw [if_neg Bool.false_ne_true, Option.bind_some, ih hn, hheld]
      simp

end View

section Calls

variable {my : PeerId} {m : PeerConnMap} {peerList : Option (List Peer)} {o : Orders}

structure Resolvable (w : World) (m : PeerConnMap) (peerList : Option (List Peer)) : Prop where
  held : peerList = none → ∀ pid pc, m.lookup pid = some pc → (w.pcs pc.addr).kill.buf ≠ []
  empty : peerList ≠ none → ∀ pid pc, m.lookup pid = some pc →
    hasId (peerList.getD []) pid = false → (w.pcs pc.addr).kill.buf = []
  room : w.ch.newPeerConnChan.buf.length + (redialed m peerList).length ≤ 10

lemma Calls.pending (hc : Calls w my m peerList o rest) :
    Pending w rest (resolvePeerConns my m peerList o.first o.second) where
  idle := hc.idle
  ops := hc.ops
  resolving op ho := by
    rw [resolvePeerConns_eq, List.mem_append, List.mem_append] at ho
    rcases ho with ho | ho | ho
    · split_ifs at ho
      · obtain ⟨e, -, rfl⟩ := List.mem_map.mp ho
        rfl
      · cases ho
    · obtain ⟨p, -, rfl⟩ := List.mem_map.mp ho
      rfl
    · obtain ⟨e, -, rfl⟩ := List.mem_map.mp ho
      rfl
  known op ho ref ht := by
    obtain ⟨pid, hl⟩ := (resolvePeerConns_issued hc.orders ho).target ht
    exact (hc.known pid ref hl).1

lemma Calls.addrs_nodup (hc : Calls w my m peerList o rest) {order : PcOrder}
    (ho : Iterates m order) : ((order.map Sigma.snd).map PcRef.addr).Nodup := by
  rw [List.map_map]
  apply ho.nodup.map_on
  rintro ⟨pid, pc⟩ hx ⟨pid', pc'⟩ hy ha
  have ha : pc.addr = pc'.addr := ha
  obtain ⟨⟨-, hk⟩, hp⟩ := hc.known pid pc (ho.mem_iff.mp hx)
  obtain ⟨⟨-, hk'⟩, hp'⟩ := hc.known pid' pc' (ho.mem_iff.mp hy)
  rw [ha, hk'] at hk
  obtain rfl : pid = pid' := hp.symm.trans (hk.symm.trans hp')
  have hl := (ho.mem_iff.mp hx).symm.trans (ho.mem_iff.mp hy)
  rw [Option.some.inj hl]

lemma forall_order {order : PcOrder} (ho : Iterates m order) {P : PcRef → Prop} :
    (∀ pc ∈ order.map Sigma.snd, P pc) ↔ ∀ pid pc, m.lookup pid = some pc → P pc := by
  constructor
  · intro h pid pc hl
    exact h pc (List.mem_map.mpr ⟨⟨pid, pc⟩, ho.mem_iff.mpr hl, rfl⟩)
  · intro h pc hm
    obtain ⟨⟨pid, pc⟩, he, rfl⟩ := List.mem_map.mp hm
    exact h pid pc (ho.mem_iff.mp he)

lemma forall_leaving {order : PcOrder} (ho : Iterates m order) {P : PcRef → Prop} :
    (∀ pc ∈ (leaving peerList order).map Sigma.snd, P pc) ↔
      ∀ pid pc, m.lookup pid = some pc → hasId (peerList.getD []) pid = false → P pc := by
  constructor
  · intro h pid pc hl hn
    refine h pc (List.mem_map.mpr ⟨⟨pid, pc⟩, ?_, rfl⟩)
    exact List.mem_filter.mpr ⟨ho.mem_iff.mpr hl, by rw [hn]; rfl⟩
  · intro h pc hm
    obtain ⟨⟨pid, pc⟩, he, rfl⟩ := List.mem_map.mp hm
    obtain ⟨hmem, hn⟩ := List.mem_filter.mp he
    exact h pid pc (ho.mem_iff.mp hmem) ((Bool.not_eq_true' _).mp hn)

lemma view_held {addr : ℕ} : (view w).held addr = true ↔ (w.pcs addr).kill.buf ≠ [] := by
  simp [view]

lemma view_not_held {addr : ℕ} : (view w).held addr = false ↔ (w.pcs addr).kill.buf = [] := by
  simp [view]

lemma leaving_nodup {order : PcOrder}
    (hn : ((order.map Sigma.snd).map PcRef.addr).Nodup) :
    (((leaving peerList order).map Sigma.snd).map PcRef.addr).Nodup :=
  hn.sublist ((List.filter_sublist.map _).map _)

lemma fits_none (hc : Calls w my m none o rest) :
    Fits w (resolvePeerConns my m none o.first o.second) ↔ Resolvable w m none := by
  have hn := hc.addrs_nodup hc.orders.1
  have hrw : resolvePeerConns my m none o.first o.second =
      (o.first.map Sigma.snd).map Op.recvKill ++
        ((leaving none o.second).map Sigma.snd).map Op.sendKill := by
    rw [resolvePeerConns_eq, List.map_map, List.map_map]
    rfl
  -- the kills received first make room for the kills sent afterwards
  have hk : ∀ pc ∈ (leaving none o.second).map Sigma.snd,
      ((view w).without (o.first.map Sigma.snd)).held pc.addr = false := by
    rw [forall_leaving hc.orders.2]
    intro pid pc hl _
    have hm : pc ∈ o.first.map Sigma.snd :=
      List.mem_map.mpr ⟨⟨pid, pc⟩, hc.orders.1.mem_iff.mpr hl, rfl⟩
    simp only [View.without, Bool.and_eq_false_iff, decide_eq_false_iff_not]
    exact .inr fun h => h pc hm rfl
  rw [Fits, hrw, recvKills_isSome hn,
    sendKills_isSome (leaving_nodup (hc.addrs_nodup hc.orders.2)), forall_order hc.orders.1]
  simp only [view_held]
  constructor
  · intro h
    exact ⟨fun _ => h.1, fun hne => absurd rfl hne, hc.idle.inbox.queued⟩
  · intro h
    exact ⟨h.held rfl, hk⟩

lemma fits_some {peers : List Peer} (hc : Calls w my m (some peers) o rest) :
    Fits w (resolvePeerConns my m (some peers) o.first o.second) ↔
      Resolvable w m (some peers) := by
  have hrw : resolvePeerConns my m (some peers) o.first o.second =
      (redialed m (some peers)).map (dialOf my) ++
        ((leaving (some peers) o.second).map Sigma.snd).map Op.sendKill := by
    rw [resolvePeerConns_eq, List.map_map]
    rfl
  rw [Fits, hrw, dials_isSome my _ _ hc.idle.inbox.queued,
    sendKills_isSome (leaving_nodup (hc.addrs_nodup hc.orders.2)), forall_leaving hc.orders.2]
  simp only [View.with, view_not_held]
  constructor
  · intro h
    exact ⟨nofun, fun _ => h.2, h.1⟩
  · intro h
    exact ⟨h.room, h.empty nofun⟩

lemma Calls.returns_iff (token : Token) (hc : Calls w my m peerList o rest) :
    Returns token rest w ↔ Resolvable w m peerList := by
  rw [hc.pending.returns_iff token]
  cases peerList with
  | none => exact fits_none hc
  | some peers => exact fits_some hc

structure Reconcilable (w : World) (my : PeerId) (m : PeerConnMap)
    (peerList : Option (List Peer)) : Prop where
  own : ∀ p ∈ peerList.getD [], p.id = my ∧ my ∉ m
  held : peerList = none → ∀ pid pc, m.lookup pid = some pc → (w.pcs pc.addr).kill.buf ≠ []
  empty : peerList ≠ none → ∀ pid pc, m.lookup pid = some pc → (w.pcs pc.addr).kill.buf = []

lemma resolvable_iff (hi : Idle w) (hown : ∀ p ∈ peerList.getD [], p.id = my ∧ my ∉ m) :
    Resolvable w m peerList ↔ Reconcilable w my m peerList := by
  have hr : redialed m peerList = [] := by
    rw [redialed, List.filter_eq_nil_iff]
    intro p hp hm
    obtain ⟨hmy, hn⟩ := hown p hp
    exact hn (hmy ▸ of_decide_eq_true hm)
  have hl {pid : PeerId} {pc : PcRef} (hl : m.lookup pid = some pc) :
      hasId (peerList.getD []) pid = false := by
    rw [Bool.eq_false_iff]
    intro hi
    obtain ⟨p, hp, rfl⟩ := hasId_iff.mp hi
    obtain ⟨hmy, hn⟩ := hown p hp
    exact hn (hmy ▸ Finmap.mem_of_lookup_eq_some hl)
  constructor
  · intro h
    exact ⟨hown, h.held, fun hne pid pc hm => h.empty hne pid pc hm (hl hm)⟩
  · intro h
    refine ⟨h.held, fun hne pid pc hm _ => h.empty hne pid pc hm, ?_⟩
    rw [hr]
    exact hi.inbox.queued

lemma Calls.reconciles_iff (hc : Calls w my m peerList o rest) :
    Reconciles my m peerList (resolvePeerConns my m peerList o.first o.second) ↔
      ∀ p ∈ peerList.getD [], p.id = my ∧ my ∉ m :=
  Remote.reconciles_iff (fun pid pc hl => (hc.known pid pc hl).2) hc.orders.2

end Calls

section Resolve

variable {my : PeerId} {m : PeerConnMap} {peerList : Option (List Peer)} {o : Orders}

theorem resolve_returns_iff (token : Token) (hc : Calls w my m peerList o rest) :
    Returns token rest w ↔ Resolvable w m peerList :=
  hc.returns_iff token

theorem resolve_reconciles_iff (token : Token) (hc : Calls w my m peerList o rest) :
    (Returns token rest w ∧
      Reconciles my m peerList (resolvePeerConns my m peerList o.first o.second)) ↔
      Reconcilable w my m peerList := by
  rw [hc.returns_iff token, hc.reconciles_iff]
  constructor
  · rintro ⟨hr, hown⟩
    exact (resolvable_iff hc.idle hown).mp hr
  · intro h
    exact ⟨(resolvable_iff hc.idle h.own).mpr h, h.own⟩

end Resolve

section Daemon

variable {handles : ℕ} {tr : List (World × Action)} {ls : LocalState} {o : Orders}

lemma idle_run (h : Run (Steps (Network.step token)) w tr v)
    (hn : AllSteps (fun _ a => ∀ addr, a ≠ .startRun addr) tr) (hi : Idle w) (hr : Refs w) :
    Idle v ∧ Refs v := by
  induction h with
  | nil => exact ⟨hi, hr⟩
  | cons he _ ih =>
    obtain ⟨ha, hn⟩ := (allSteps_cons _ _ _ _).mp hn
    have hs := hi.step (fun _ op ho => hr.pending op (List.mem_of_mem_head? ho)) he ha
    exact ih hn hs (hr.step he)

lemma calls_of_run (h : Run (Steps (Network.step token)) (init handles) tr w)
    (hn : AllSteps (fun _ a => ∀ addr, a ≠ .startRun addr) tr)
    (hs : Network.step token w (.takeEvent (.localState ls) o) = some v) :
    Calls v ls.userId v.sm.peerConnMap v.sm.localState.peers o [.sendServer .localState] := by
  obtain ⟨hi, hr⟩ := idle_run h hn (idle_init handles) (refs_init handles)
  have hi' := hi.step (fun ha => by cases ha) hs (fun _ ha => by cases ha)
  have hr' := hr.step hs
  cases step_effect hs with
  | takeEvent _ _ hv => exact ⟨hi', hr'.filed, hv, rfl⟩

theorem daemon_call_returns_iff (h : Run (Steps (Network.step token)) (init handles) tr w)
    (hn : AllSteps (fun _ a => ∀ addr, a ≠ .startRun addr) tr)
    (hs : Network.step token w (.takeEvent (.localState ls) o) = some v) :
    Returns token [.sendServer .localState] v ↔
      Resolvable v v.sm.peerConnMap v.sm.localState.peers :=
  (calls_of_run h hn hs).returns_iff token

end Daemon

section Samples

def me : PeerId := ⟨[1]⟩

def friends : PeerConnMap := (∅ : PeerConnMap).insert friend friendConn

def present (pid : PeerId) : Peer := ⟨pid, [], true⟩

def befriended (peerList : Option (List Peer)) : World :=
  setPc 0 (.new 0 friend (.connecting true)) { init 1 with
    nextPc := 1
    ops := resolvePeerConns me friends peerList friendOnly.first friendOnly.second }

lemma befriended_idle (peerList : Option (List Peer)) : Idle (befriended peerList) where
  pcs addr := by
    by_cases ha : addr = 0
    · rw [ha, befriended, setPc_self]
      exact idleConn_new ..
    · rw [befriended, setPc_of_ne ha]
      exact idleConn_new ..
  fresh addr hn := by
    have ha : addr ≠ 0 := Nat.ne_of_gt hn
    rw [befriended, setPc_of_ne ha]
    rfl
  inbox := ⟨rfl, rfl, Nat.zero_le _⟩

lemma friends_lookup {pid : PeerId} {pc : PcRef} (h : friends.lookup pid = some pc) :
    pid = friend ∧ pc = friendConn := by
  rcases lookup_insert_eq_some h with h | h
  · exact h
  · cases h

lemma befriended_calls (peerList : Option (List Peer)) :
    Calls (befriended peerList) me friends peerList friendOnly [] where
  idle := befriended_idle peerList
  known pid pc hl := by
    obtain ⟨rfl, rfl⟩ := friends_lookup hl
    exact ⟨⟨Nat.zero_lt_one, rfl⟩, rfl⟩
  orders := by decide
  ops := (List.append_nil _).symm

theorem redial_returns :
    Returns sampleToken [] (befriended (some [present friend])) := by
  refine (resolve_returns_iff sampleToken (befriended_calls _)).mpr ⟨nofun, ?_, by decide⟩
  intro _ pid pc hl hn
  obtain ⟨rfl, rfl⟩ := friends_lookup hl
  cases hn

theorem nil_list_hangs :
    Calls (befriended none) me friends none friendOnly [] ∧
      ¬ Returns sampleToken [] (befriended none) := by
  refine ⟨befriended_calls none, fun h => ?_⟩
  have hr := ((befriended_calls none).returns_iff sampleToken).mp h
  exact hr.held rfl friend friendConn (Finmap.lookup_insert _) rfl

theorem leaver_is_killed :
    Returns sampleToken [] (befriended (some [present me])) ∧
      Reconciles me friends (some [present me])
        (resolvePeerConns me friends (some [present me]) friendOnly.first friendOnly.second) := by
  refine (resolve_reconciles_iff sampleToken (befriended_calls _)).mpr ⟨?_, nofun, ?_⟩
  · intro p hp
    obtain rfl := List.mem_singleton.mp hp
    exact ⟨rfl, by decide⟩
  · intro _ pid pc hl
    obtain ⟨rfl, rfl⟩ := friends_lookup hl
    rfl

def newcomer : PeerId := ⟨[9]⟩

theorem newcomer_not_dialed :
    Calls (befriended (some [present friend, present newcomer])) me friends
        (some [present friend, present newcomer]) friendOnly [] ∧
      ¬ (Returns sampleToken [] (befriended (some [present friend, present newcomer])) ∧
        Reconciles me friends (some [present friend, present newcomer])
          (resolvePeerConns me friends (some [present friend, present newcomer])
            friendOnly.first friendOnly.second)) := by
  refine ⟨befriended_calls _, fun h => ?_⟩
  have hown := (befriended_calls _).reconciles_iff.mp h.2
  have hid := (hown (present friend) List.mem_cons_self).1
  exact absurd hid (by decide)

end Samples

end XbTunnel.Daemon.Returning
