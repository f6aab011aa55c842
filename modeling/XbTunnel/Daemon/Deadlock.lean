import XbTunnel.Daemon.Network

/-! Sends of the state manager that wait for room, and who can make it. Nobody receives from
`serverChan`. -/

namespace XbTunnel.Daemon.Network

open Common Udp Remote StateManager Lib.Channels Lib.Runs

variable {token : Token} {w v : World} {a : Action} {op : Op}

def Blocked (w : World) : Op → Prop
  | .sendServer _ => w.ch.serverChan.Full
  | .sendOut pc _ => (w.pcs pc.addr).out.Full
  | .sendRead pc _ => (w.pcs pc.addr).reads = 0
  | .recvKill _ | .sendKill _ | .dial _ _ | .recvDead _ | .sendDead => False

instance (w : World) : (op : Op) → Decidable (Blocked w op)
  | .sendServer _ | .sendOut _ _ => inferInstanceAs (Decidable (Chan.Full _))
  | .sendRead _ _ => inferInstanceAs (Decidable (_ = _))
  | .recvKill _ | .sendKill _ | .dial _ _ | .recvDead _ | .sendDead =>
    inferInstanceAs (Decidable False)

def Served (w : World) : Op → Prop
  | .sendServer _ => False
  | .sendOut pc _ => (w.pcs pc.addr).Draining
  | .sendRead pc _ => (w.pcs pc.addr).Connecting
  | .recvKill _ | .sendKill _ | .dial _ _ | .recvDead _ | .sendDead => True

instance (w : World) : (op : Op) → Decidable (Served w op)
  | .sendServer _ => inferInstanceAs (Decidable False)
  | .sendOut _ _ => inferInstanceAs (Decidable (PeerConn.Draining _))
  | .sendRead _ _ => inferInstanceAs (Decidable (PeerConn.Connecting _))
  | .recvKill _ | .sendKill _ | .dial _ _ | .recvDead _ | .sendDead =>
    inferInstanceAs (Decidable True)

def Others (token : Token) (w : World) (a : Action) (v : World) : Prop :=
  step token w a = some v ∧ a.other = true

/-- If the state manager waits for room, the other goroutines can make it. -/
def NeverStuck (token : Token) (w : World) : Prop :=
  ∀ op ∈ w.ops.head?, Blocked w op →
    ∃ tr v, Run (Others token) w tr v ∧ (step token v .op).isSome

def FindsReceiver (w : World) : Prop := ∀ op ∈ w.ops.head?, Blocked w op → Served w op

instance (w : World) : Decidable (FindsReceiver w) :=
  inferInstanceAs (Decidable (∀ op ∈ w.ops.head?, Blocked w op → Served w op))

structure Framed (w v : World) : Prop where
  ops : v.ops = w.ops
  serverChan : w.ch.serverChan.Grows v.ch.serverChan
  pcs : ∀ addr, PeerConn.Evolves (w.pcs addr) (v.pcs addr)

lemma evolves_refl (pc : PeerConn) : PeerConn.Evolves pc pc :=
  .of_same rfl rfl rfl rfl le_rfl

lemma Framed.of_same (ho : v.ops = w.ops) (hc : w.ch.serverChan.Grows v.ch.serverChan)
    (hp : v.pcs = w.pcs) : Framed w v :=
  ⟨ho, hc, fun _ => hp ▸ evolves_refl _⟩

lemma reconnect_framed {a : ReconnectAction} (h : ReconnectEffect w a v) : Framed w v := by
  cases h <;> exact .of_same rfl .same rfl

lemma main_framed {a : MainAction} (h : MainEffect w a v) : Framed w v := by
  cases h <;> exact .of_same rfl .same rfl

lemma other_framed (h : step token w a = some v) (ho : a.other = true) : Framed w v := by
  cases step_effect h with
  | @pc addr a ch pc he =>
    obtain ⟨hg, he⟩ := PeerConn.effect_evolves he
    refine ⟨rfl, hg, fun addr' => ?_⟩
    by_cases ha : addr' = addr
    · subst ha
      simpa only [setPc, Function.update_self] using he
    · simpa only [setPc, Function.update_of_ne ha] using evolves_refl _
  | @lm a ch lm he =>
    have hc : ch.serverChan = w.ch.serverChan := LocalManager.effect_serverChan he
    have hg : w.ch.serverChan.Grows ch.serverChan := by
      rw [hc]
      exact .same
    exact .of_same rfl hg rfl
  | client _ he => exact .of_same rfl (Client.effect_serverChan he) rfl
  | reconnect he => exact reconnect_framed he
  | main he => exact main_framed he
  | _ => cases ho

def Stranded (w : World) : Op → Prop
  | .sendServer _ => w.ch.serverChan.Full
  | .sendOut pc _ => ((w.pcs pc.addr).out.closed = true ∨ (w.pcs pc.addr).out.Full) ∧
      ¬ (w.pcs pc.addr).Draining
  | .sendRead pc _ => (w.pcs pc.addr).reads = 0 ∧ ¬ (w.pcs pc.addr).Connecting
  | .recvKill _ | .sendKill _ | .dial _ _ | .recvDead _ | .sendDead => False

lemma stranded_of_not_served (hb : Blocked w op) (hs : ¬ Served w op) : Stranded w op := by
  cases op with
  | sendServer req => exact hb
  | sendOut pc packet => exact ⟨.inr hb, hs⟩
  | sendRead pc payload => exact ⟨hb, hs⟩
  | _ => exact hb

lemma Stranded.framed (h : Stranded w op) (hf : Framed w v) : Stranded v op := by
  cases op with
  | sendServer req =>
    have hc := hf.serverChan.eq_of_full h
    rw [Stranded, hc]
    exact h
  | sendOut pc packet =>
    have he := hf.pcs pc.addr
    refine ⟨?_, he.draining h.2⟩
    rcases he.out h.2 with ho | ho
    · rw [ho]
      exact h.1
    · rw [ho]
      exact .inl rfl
  | sendRead pc payload =>
    have he := hf.pcs pc.addr
    exact ⟨Nat.le_zero.mp (h.1 ▸ he.reads h.2), he.connecting h.2⟩
  | _ => exact h

lemma Stranded.no_send (h : Stranded w op) : doOp w op = none := by
  cases op with
  | sendServer req => simp only [doOp, Chan.send_full h, Option.bind_eq_bind, Option.bind_none]
  | sendOut pc packet =>
    have hn : (w.pcs pc.addr).out.send packet = none := by
      rw [Chan.send, if_neg]
      rintro ⟨hc, hl⟩
      rcases h.1 with h | h
      · rw [hc] at h
        cases h
      · exact Nat.not_lt.mpr h.2 hl
    simp only [doOp, hn, Option.bind_eq_bind, Option.bind_none]
  | sendRead pc payload => rw [doOp, if_pos h.1]
  | _ => exact h.elim

lemma Stranded.run {tr : List (World × Action)} (hr : Run (Others token) w tr v)
    (h : Stranded w op) (ho : op ∈ w.ops.head?) : step token v .op = none := by
  have hstep : ∀ s a t, Stranded s op ∧ op ∈ s.ops.head? → Others token s a t →
      Stranded t op ∧ op ∈ t.ops.head? := by
    rintro s a t ⟨hs, ho⟩ ⟨hst, ha⟩
    have hf := other_framed hst ha
    exact ⟨hs.framed hf, hf.ops ▸ ho⟩
  obtain ⟨hv, hvo⟩ := hr.invariant_last hstep ⟨h, ho⟩
  obtain ⟨ops, hops⟩ := List.head?_eq_some_iff.mp hvo
  simp only [step, hops, hv.no_send, Option.map_none]

lemma stuck_of_stranded (h : Stranded w op) (hb : Blocked w op) (ho : op ∈ w.ops.head?) :
    ¬ NeverStuck token w := by
  intro hn
  obtain ⟨tr, v, hr, hv⟩ := hn op ho hb
  rw [h.run hr ho] at hv
  cases hv

lemma pc_others {addr : ℕ} {a : PeerConn.Action} {pc : PeerConn}
    (h : (w.pcs addr).step w.ch a = some (w.ch, pc)) :
    Others token w (.pc addr a) (setPc addr pc w) :=
  ⟨by simp only [step, h, Option.map_some], rfl⟩

@[simp] lemma setPc_self (addr : ℕ) (pc : PeerConn) (w : World) : (setPc addr pc w).pcs addr = pc :=
  Function.update_self ..

lemma setPc_of_ne {addr addr' : ℕ} (h : addr' ≠ addr) (pc : PeerConn) (w : World) :
    (setPc addr pc w).pcs addr' = w.pcs addr' :=
  Function.update_of_ne h ..

def Caps (w : World) : Prop :=
  ∀ addr, (w.pcs addr).out.cap = 10 ∧ (w.pcs addr).out.buf.length ≤ 10

lemma reaches_select (token : Token) {addr : ℕ} (hd : (w.pcs addr).Draining) :
    ∃ tr v, Run (Others token) w tr v ∧ v.ops = w.ops ∧ (v.pcs addr).run = .selecting ∧
      (v.pcs addr).out = (w.pcs addr).out := by
  have hwrites : ∀ w : World, (w.pcs addr).run.isWriting = true → (w.pcs addr).udpConn = true →
      ∃ tr v, Run (Others token) w tr v ∧ v.ops = w.ops ∧ (v.pcs addr).run = .selecting ∧
        (v.pcs addr).out = (w.pcs addr).out := by
    intro w hw hu
    have hs : (w.pcs addr).step w.ch (.write true) =
        some (w.ch, { w.pcs addr with run := .selecting }) := by
      cases hr : (w.pcs addr).run with
      | writing pkt => simp only [PeerConn.step, hr, hu, if_true]
      | _ =>
        rw [hr] at hw
        cases hw
    exact ⟨_, _, .single (pc_others hs), rfl, by rw [setPc_self], by rw [setPc_self]⟩
  rcases hd with hr | ⟨hw, hu | hc⟩
  · exact ⟨[], w, .nil, rfl, hr, rfl⟩
  · exact hwrites w hw hu
  · obtain ⟨i, hi⟩ := PeerConn.connecting_iff.mp hc
    have hs : (w.pcs addr).step w.ch .connect =
        some (w.ch, { w.pcs addr with udpConn := true, nat := .returned }) := by
      simp only [PeerConn.step, hi]
    obtain ⟨tr, v, hr, hops, hrun, hout⟩ := hwrites
      (setPc addr { w.pcs addr with udpConn := true, nat := .returned } w)
      (by rw [setPc_self]; exact hw) (by rw [setPc_self])
    rw [setPc_self] at hout
    exact ⟨_, v, .cons (pc_others hs) hr, hops, hrun, hout⟩

lemma op_isSome (ho : op ∈ w.ops.head?) (h : (doOp w op).isSome) : (step token w .op).isSome := by
  obtain ⟨ops, hops⟩ := List.head?_eq_some_iff.mp ho
  simp only [step, hops, Option.isSome_map, h]

lemma drained (token : Token) {addr : ℕ} (hd : (w.pcs addr).Draining)
    (hf : (w.pcs addr).out.Full) (hc : Caps w) :
    ∃ tr v, Run (Others token) w tr v ∧ v.ops = w.ops ∧ (v.pcs addr).out.closed = false ∧
      (v.pcs addr).out.buf.length < (v.pcs addr).out.cap := by
  obtain ⟨tr, v, hr, hops, hrun, hout⟩ := reaches_select token hd
  cases hb : (w.pcs addr).out.buf with
  | nil =>
    have hlen := hf.2
    rw [hb, (hc addr).1] at hlen
    cases hlen
  | cons pkt rest =>
    have hrecv : (v.pcs addr).out.recv = some (pkt, { (w.pcs addr).out with buf := rest }) := by
      rw [hout, Chan.recv, hb]
    have hs : (v.pcs addr).step v.ch .recvOut = some (v.ch, { v.pcs addr with
        out := { (w.pcs addr).out with buf := rest }, run := .writing pkt }) := by
      simp only [PeerConn.step, hrun, hrecv, Option.bind_eq_bind, Option.bind_some]
    refine ⟨_, _, hr.snoc (pc_others hs), hops, ?_⟩
    rw [setPc_self]
    refine ⟨hf.1, ?_⟩
    have hlen := (hc addr).2
    rw [hb] at hlen
    exact hlen.trans_eq (hc addr).1.symm

lemma served_continues (token : Token) (hc : Caps w)
    (ho : op ∈ w.ops.head?) (hb : Blocked w op) (hs : Served w op) :
    ∃ tr v, Run (Others token) w tr v ∧ (step token v .op).isSome := by
  cases op with
  | sendServer req => exact hs.elim
  | sendOut pc packet =>
    obtain ⟨tr, v, hr, hops, hroom⟩ := drained token hs hb hc
    refine ⟨tr, v, hr, op_isSome (hops ▸ ho) ?_⟩
    have hsend : ((v.pcs pc.addr).out.send packet).isSome := Chan.send_isSome.mpr hroom
    obtain ⟨out, hout⟩ := Option.isSome_iff_exists.mp hsend
    simp only [doOp, hout, Option.bind_eq_bind, Option.bind_some, Option.isSome_some]
  | sendRead pc payload =>
    obtain ⟨i, hi⟩ := PeerConn.connecting_iff.mp hs
    have hcall : (w.pcs pc.addr).step w.ch .callRead =
        some (w.ch, { w.pcs pc.addr with reads := (w.pcs pc.addr).reads + 1 }) := by
      simp only [PeerConn.step, hi]
    refine ⟨_, _, .single (pc_others hcall), op_isSome ho ?_⟩
    rw [doOp, setPc_self, if_neg (Nat.succ_ne_zero _), Option.isSome_some]
  | _ => exact hb.elim

lemma neverStuck_iff (token : Token) (hc : Caps w) :
    NeverStuck token w ↔ FindsReceiver w := by
  constructor
  · intro h op ho hb
    by_contra hs
    exact stuck_of_stranded (stranded_of_not_served hb hs) hb ho h
  · intro h op ho hb
    exact served_continues token hc ho hb (h op ho hb)

section Caps

lemma caps_setPc (h : Caps w) (addr : ℕ) {pc : PeerConn}
    (hc : pc.out.cap = 10 ∧ pc.out.buf.length ≤ 10) :
    Caps (setPc addr pc w) := by
  intro addr'
  by_cases ha : addr' = addr
  · rw [ha, setPc_self]
    exact hc
  · rw [setPc_of_ne ha]
    exact h addr'

lemma caps_dial (h : Caps w) {peerId : PeerId} {initiator : Bool}
    (hs : dial peerId initiator w = some v) : Caps v := by
  obtain ⟨_, -, rfl⟩ := dial_eq_some hs
  exact caps_setPc h _ ⟨rfl, Nat.zero_le _⟩

lemma caps_done (h : Caps w) (hd : Done w op v) : Caps v := by
  cases hd with
  | recvKill | sendKill | sendRead | recvDead => exact caps_setPc h _ (h _)
  | dial hs => exact caps_dial h hs
  | @sendOut pc _ _ ho =>
    have hcap := (Chan.send_cap ho).trans (h pc.addr).1
    exact caps_setPc h _ ⟨hcap, (Chan.send_length ho).trans_eq hcap⟩
  | sendServer | sendDead => exact h

lemma caps_step (h : Caps w) (hs : step token w a = some v) : Caps v := by
  by_cases ho : a.other = true
  · have hf := other_framed hs ho
    intro addr
    have he := hf.pcs addr
    exact ⟨he.cap.trans (h addr).1, he.length.trans (h addr).2⟩
  · cases step_effect hs with
    | takeEvent | takeKill => exact h
    | op _ hd =>
      have hcaps := caps_done h hd
      exact hcaps
    | openConn hd => exact caps_dial h hd
    | startRun => exact caps_setPc h _ (h _)
    | _ => exact absurd rfl ho

end Caps

theorem never_stuck_iff {handles : ℕ} {tr : List (World × Action)} {u : World}
    (h : Run (Steps (step token)) (init handles) tr u) :
    AllStates (NeverStuck token) tr u ↔ AllStates FindsReceiver tr u :=
  h.all_states_congr Caps (fun _ _ _ => caps_step) (fun _ => neverStuck_iff token)
    fun _ => ⟨rfl, Nat.zero_le _⟩

section Samples

def sampleToken : Token := ⟨[0x74]⟩

def connects : List Action :=
  [.reconnect .resolve, .reconnect .newClient, .client 0 (.dial true), .client 0 .sendToken]

def friendSignal : PcSignal := ⟨emptyPeerId, friend, [5]⟩

def signalWaits : List Action :=
  connects ++ [.openConn friend true, .takeEvent (.newPeerConn friendConn) ⟨[], []⟩, .op,
    .client 0 (.decode { pcSignal := some friendSignal }), .client 0 .sendPcSignal,
    .takeEvent (.pcSignal friendSignal) friendOnly, .pc 0 .callRead, .op, .pc 0 .connect]

theorem signalWaits_never_stuck : ∃ tr u, tr.map Prod.snd = signalWaits ∧
    Run (Steps (step sampleToken)) (init 1) tr u ∧ AllStates (NeverStuck sampleToken) tr u := by
  obtain ⟨tr, u, ha, hr, hs⟩ :=
    track_decide (step sampleToken) FindsReceiver (init 1) signalWaits rfl
  exact ⟨tr, u, ha, hr, (never_stuck_iff hr).mpr hs⟩

def receivesState : List Action :=
  [.client 0 (.decode { localState := some LocalState.zero }), .client 0 .sendLocalState,
    .takeEvent (.localState LocalState.zero) ⟨[], []⟩]

def tenStates : List Action :=
  connects ++ (List.replicate 9 (receivesState ++ [.op])).flatten ++ receivesState

theorem tenStates_stuck : ∃ tr u, tr.map Prod.snd = tenStates ∧
    Run (Steps (step sampleToken)) (init 1) tr u ∧ ¬ NeverStuck sampleToken u := by
  have hend : (exec (step sampleToken) (init 1) tenStates).any (fun u => u.ops.head?.any fun op =>
      decide (Blocked u op ∧ ¬ Served u op)) = true := rfl
  obtain ⟨tr, u, ha, hr, hd⟩ := exec_any _ hend
  obtain ⟨op, ho, hd⟩ := (Option.any_eq_true _ _).mp hd
  obtain ⟨hb, hs⟩ := of_decide_eq_true hd
  exact ⟨tr, u, ha, hr, stuck_of_stranded (stranded_of_not_served hb hs) hb ho⟩

end Samples

end XbTunnel.Daemon.Network
