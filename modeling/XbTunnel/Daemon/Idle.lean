import XbTunnel.Daemon.Commands
import XbTunnel.Daemon.Inward

/-! The daemon as nothing outside the state manager dials a peer. -/

namespace XbTunnel.Daemon.Idle

open Common Udp Remote StateManager Network Lib.Channels Lib.Flows Lib.Maps Lib.Runs

def Undialed : Action → Prop
  | .openConn _ _ => False
  | _ => True

instance : DecidablePred Undialed
  | .openConn _ _ => .isFalse id
  | .takeEvent _ _ | .takeKill _ | .op | .startRun _ | .pc _ _ | .lm _ | .client _ _
  | .reconnect _ | .main _ => .isTrue trivial

structure Inv (w : World) : Prop where
  traffic : Traffic.Inv w
  nextPc : w.nextPc = 0
  peerConnMap : w.sm.peerConnMap = ∅
  announced : w.ch.newPeerConnChan.buf = []
  ops : ∀ op ∈ w.ops, op = .sendDead ∨ ∃ req, op = .sendServer req

/-- No connection is ever made, whatever the server says, so nothing that is captured leaves. -/
structure Unopened (token : Token) (w : World) : Prop where
  nextPc : w.nextPc = 0
  peerConnMap : w.sm.peerConnMap = ∅
  still : ∀ addr b, Network.step token w (.pc addr b) = none
  unsent : ∀ pc packet, .sendOut pc packet ∉ w.ops

variable {token : Token} {w v : World} {a : Action}

section Turns

variable {s : State} {e : Event} {o : Orders}

lemma turn_ops (hi : StateManager.Inv s) (hm : s.peerConnMap = ∅) (ho : o.Valid s.peerConnMap) :
    (turn s e o).2 =
      if sendUpdate e then [.sendServer .localState] else [] := by
  rw [hm] at ho
  have hfirst := ho.1.empty
  have hsecond := ho.2.empty
  have hhandle : (handle s e o).2 = [] := by
    cases e with
    | localState ls => simp [handle, hm, hi.peers, resolvePeerConns, hfirst, hsecond]
    | pcSignal pcSignal => simp [handle, hm]
    | remote packet => simp [handle, hi.xboxPeerMap, hfirst]
    | newPeerConn | removePeer | newXbox => rfl
  have hturn : (turn s e o).2 =
    (handle s e o).2 ++ if sendUpdate e then [.sendServer .localState] else [] := rfl
  rw [hturn, hhandle, List.nil_append]

lemma turn_peerConnMap (hm : s.peerConnMap = ∅) (he : ∀ pc, e ≠ .newPeerConn pc) :
    (turn s e o).1.peerConnMap = ∅ := by
  cases e with
  | newPeerConn newPc => exact absurd rfl (he newPc)
  | removePeer pid => exact (congrArg (Finmap.erase pid) hm).trans rfl
  | _ => exact hm

end Turns

lemma Inv.step (hi : Inv w) (h : Network.step token w a = some v) (ha : Undialed a) : Inv v := by
  have ht := hi.traffic.step h
  cases step_effect h with
  | @takeEvent e o ch _ _ hv hr =>
    obtain ⟨hsuf, hnew⟩ := recvEvent_announced hr
    have hann : ch.newPeerConnChan.buf = [] := List.suffix_nil.mp (hi.announced ▸ hsuf)
    have he : ∀ pc, e ≠ .newPeerConn pc := fun pc he => by
      have hm := hnew pc he
      rw [hi.announced] at hm
      cases hm
    refine ⟨ht, hi.nextPc, turn_peerConnMap hi.peerConnMap he, hann, fun op ho => ?_⟩
    have hops := turn_ops (e := e) hi.traffic.sm hi.peerConnMap hv
    simp only [hops] at ho
    split_ifs at ho
    · exact .inr ⟨_, List.mem_singleton.mp ho⟩
    · cases ho
  | takeKill _ _ hv =>
    refine ⟨ht, hi.nextPc, hi.peerConnMap, hi.announced, fun op ho => .inl ?_⟩
    rw [hi.peerConnMap] at hv
    simpa [cleanup, hv.1.empty, hv.2.empty] using ho
  | @op op ops _ ho hd =>
    have hop := hi.ops op (ho ▸ List.mem_cons_self)
    have hrest : ∀ op' ∈ ops, op' = .sendDead ∨ ∃ req, op' = .sendServer req :=
      fun op' hm => hi.ops op' (ho ▸ List.mem_cons_of_mem _ hm)
    cases hd with
    | sendServer | sendDead => exact ⟨ht, hi.nextPc, hi.peerConnMap, hi.announced, hrest⟩
    | _ => simp at hop
  | openConn => exact ha.elim
  | startRun hlt =>
    rw [hi.nextPc] at hlt
    exact absurd hlt (Nat.not_lt_zero _)
  | @pc addr b ch pc he =>
    rw [hi.traffic.fresh addr (hi.nextPc ▸ Nat.zero_le addr)] at he
    exact (Traffic.fresh_still he).elim
  | lm he =>
    exact ⟨ht, hi.nextPc, hi.peerConnMap, (lm_aside he).newPeerConnChan ▸ hi.announced, hi.ops⟩
  | client _ he =>
    exact ⟨ht, hi.nextPc, hi.peerConnMap, (client_aside he).newPeerConnChan ▸ hi.announced, hi.ops⟩
  | reconnect he =>
    have hs := reconnect_aside he
    exact ⟨ht, hs.nextPc.trans hi.nextPc, hs.sm ▸ hi.peerConnMap, hs.newPeerConnChan ▸ hi.announced,
      hs.ops ▸ hi.ops⟩
  | main he =>
    have hs := main_aside he
    exact ⟨ht, hs.nextPc.trans hi.nextPc, hs.sm ▸ hi.peerConnMap, hs.newPeerConnChan ▸ hi.announced,
      hs.ops ▸ hi.ops⟩

lemma inv_init (handles : ℕ) : Inv (Network.init handles) :=
  ⟨Traffic.inv_init handles, rfl, rfl, rfl, nofun⟩

lemma Inv.unopened (hi : Inv w) (token : Token) : Unopened token w where
  nextPc := hi.nextPc
  peerConnMap := hi.peerConnMap
  still addr b := by
    rw [Option.eq_none_iff_forall_not_mem]
    intro v hv
    cases step_effect hv with
    | pc he =>
      rw [hi.traffic.fresh addr (hi.nextPc ▸ Nat.zero_le addr)] at he
      exact (Traffic.fresh_still he).elim
  unsent pc packet hm := by
    rcases hi.ops _ hm with h | ⟨req, h⟩ <;> cases h

theorem never_opens {handles : ℕ} {tr : List (World × Action)} {u : World}
    (h : Run (Steps (Network.step token)) (Network.init handles) tr u)
    (ha : AllSteps (fun _ a => Undialed a) tr) : AllStates (Unopened token) tr u := by
  have hstep : ∀ s a t, Inv s → Steps (Network.step token) s a t → Undialed a → Inv t :=
    fun _ _ _ hi he ha => hi.step he ha
  obtain ⟨htr, hu⟩ := h.invariant_along hstep ha (inv_init handles)
  exact ⟨fun p hp => (htr p hp).unopened token, hu.unopened token⟩

section Samples

def hearsOfFriend : List Action :=
  [.reconnect .resolve, .reconnect .newClient, .client 0 (.dial true),
    .client 0 (.decode { localState := some ⟨emptyPeerId, ⟨[1]⟩,
      some [⟨friend, [console], false⟩], []⟩ }),
    .client 0 .sendLocalState,
    .takeEvent (.localState ⟨emptyPeerId, ⟨[1]⟩, some [⟨friend, [console], false⟩], []⟩)
      ⟨[], []⟩, .op, .lm (.poll 0), .lm (.capture 0 Lan.hello), .lm (.sendXbox 0), .lm (.forward 0),
    .takeEvent (.remote Traffic.helloPacket) ⟨[], []⟩]

theorem hearsOfFriend_opens_nothing : ∃ tr u, tr.map Prod.snd = hearsOfFriend ∧
    Run (Steps (Network.step sampleToken)) (Network.init 1) tr u ∧
    AllStates (Unopened sampleToken) tr u := by
  obtain ⟨tr, u, ha, hr, hs⟩ := follow_decide (Network.step sampleToken)
    (fun _ a => Undialed a) (Network.init 1) hearsOfFriend rfl
  exact ⟨tr, u, ha, hr, never_opens hr hs⟩

end Samples

end XbTunnel.Daemon.Idle
