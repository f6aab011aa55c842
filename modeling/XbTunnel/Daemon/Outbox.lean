import XbTunnel.Daemon.Traffic

/-! `serverChan`, from which nothing takes the daemon's requests on to the server. -/

namespace XbTunnel.Daemon.Outbox

open Common Udp Remote StateManager Network Lib.Channels Lib.Flows Lib.Runs

def requestOf : Op → Option QueuedReq
  | .sendServer req => some req
  | _ => none

def updates : Action → Bool
  | .takeEvent e _ => sendUpdate e
  | _ => false

def written (pc : PeerConn) : PeerConn.Action → List QueuedReq
  | .callWrite bytes => [.own (pc.sideband.write bytes)]
  | _ => []

def puts (token : Token) (w : World) : Action → List QueuedReq
  | .op => performed requestOf w .op
  | .client _ .sendToken => [.own { token := some token }]
  | .pc addr a => written (w.pcs addr) a
  | _ => []

def serverChan (token : Token) : Stage World Action QueuedReq :=
  ⟨puts token, fun w => w.ch.serverChan.buf, fun _ _ => []⟩

def Shares : QueuedReq → Prop
  | .localState => True
  | .own req => req.localState = none

structure Inv (w : World) : Prop where
  sm : StateManager.Inv w.sm
  requests : (w.ops.filterMap requestOf).length ≤ 1
  pending : ∀ req ∈ w.ops.filterMap requestOf, Shares req
  queued : ∀ req ∈ w.ch.serverChan.buf, Shares req
  cap : w.ch.serverChan.cap = 10
  length : w.ch.serverChan.buf.length ≤ 10

/-- All that the daemon has for the server is still in the channel, so there is little of it, and
the state manager is over after the eleventh event that is no signal. Every update says what the last
one would. -/
structure Unheard (token : Token) (tr : List (World × Action)) (u : World) : Prop where
  kept : total (puts token) tr = u.ch.serverChan.buf
  shared : ∀ req ∈ u.ch.serverChan.buf, ∀ ls ∈ (req.read u.sm.localState).localState,
    ls = u.sm.localState
  few : (total (puts token) tr).length ≤ 10
  turns : tr.countP (fun p => updates p.2) ≤ 11

variable {token : Token} {w v : World} {a : Action}

section Requests

variable {s : State} {e : Event} {o : Orders}

lemma turn_requests (hp : s.localState.peers = none) : (turn s e o).2.filterMap requestOf =
    if sendUpdate e then [.localState] else [] := by
  have hhandle : (handle s e o).2.filterMap requestOf = [] := by
    cases e with
    | localState ls =>
      simp [handle, hp, resolvePeerConns, hasId, requestOf, List.filterMap_flatMap,
        List.filterMap_cons]
    | pcSignal pcSignal =>
      simp only [handle]
      split <;> simp [requestOf, List.filterMap_cons]
    | remote packet =>
      simp only [handle]
      split_ifs
      · simp [requestOf]
      · split
        · split <;> simp [requestOf, List.filterMap_cons]
        · rfl
    | newPeerConn | removePeer | newXbox => rfl
  have hturn : (turn s e o).2 =
    (handle s e o).2 ++ if sendUpdate e then [.sendServer .localState] else [] := rfl
  rw [hturn, List.filterMap_append, hhandle, List.nil_append]
  split_ifs <;> rfl

lemma cleanup_requests : (cleanup o).filterMap requestOf = [] := by
  simp [cleanup, requestOf, List.filterMap_cons]

end Requests

lemma serverChan_cases (h : step token w a = some v) :
    puts token w a = [] ∧ v.ch.serverChan = w.ch.serverChan ∨
    ∃ req, puts token w a = [req] ∧ w.ch.serverChan.send req = some v.ch.serverChan := by
  cases step_effect h with
  | takeEvent _ _ _ he => exact .inl (by cases recvEvent_received he <;> exact ⟨rfl, rfl⟩)
  | op ho hd =>
    rw [puts, performed_op ho]
    cases hd with
    | sendServer hs => exact .inr ⟨_, rfl, hs⟩
    | dial hd =>
      obtain ⟨_, -, rfl⟩ := dial_eq_some hd
      exact .inl ⟨rfl, rfl⟩
    | _ => exact .inl ⟨rfl, rfl⟩
  | openConn hd =>
    obtain ⟨_, -, rfl⟩ := dial_eq_some hd
    exact .inl ⟨rfl, rfl⟩
  | pc he =>
    cases he with
    | callWrite _ hs => exact .inr ⟨_, rfl, hs⟩
    | _ => exact .inl ⟨rfl, rfl⟩
  | lm he => exact .inl ⟨rfl, LocalManager.effect_serverChan he⟩
  | client _ he =>
    cases he with
    | sendToken _ hs => exact .inr ⟨_, rfl, hs⟩
    | _ => exact .inl ⟨rfl, rfl⟩
  | reconnect he => exact .inl (by cases he <;> exact ⟨rfl, rfl⟩)
  | main he => exact .inl (by cases he <;> exact ⟨rfl, rfl⟩)
  | takeKill | startRun => exact .inl ⟨rfl, rfl⟩

lemma serverChan_conserves (token : Token) :
    (serverChan token).Conserves (Steps (step token)) Inv := by
  intro w a v _ h
  simp only [serverChan]
  rcases serverChan_cases h with ⟨hp, hc⟩ | ⟨req, hp, hs⟩
  · rw [hp, hc, List.append_nil, List.nil_append]
  · rw [hp, Chan.send_buf hs, List.nil_append]

lemma Shares.read {req : QueuedReq} (h : Shares req) (localState : LocalState) :
    ∀ ls ∈ (req.read localState).localState, ls = localState := by
  intro ls hls
  cases req with
  | localState => exact (Option.some.inj hls).symm
  | own req =>
    rw [QueuedReq.read, show req.localState = none from h] at hls
    cases hls

lemma puts_shares (hi : Inv w) : ∀ req ∈ puts token w a, Shares req := by
  intro req hm
  cases a with
  | op =>
    cases ho : w.ops with
    | nil => simp [puts, performed, ho] at hm
    | cons op ops =>
      rw [puts, performed_op ho, Option.mem_toList] at hm
      exact hi.pending req (by rw [ho]; exact List.mem_filterMap.mpr ⟨op, List.mem_cons_self, hm⟩)
  | client k b =>
    cases b with
    | sendToken =>
      obtain rfl := List.mem_singleton.mp hm
      exact rfl
    | _ => cases hm
  | pc addr b =>
    cases b with
    | callWrite bytes =>
      obtain rfl := List.mem_singleton.mp hm
      exact rfl
    | _ => cases hm
  | _ => cases hm

lemma requests_step (hi : Inv w) (h : step token w a = some v) :
    (v.ops.filterMap requestOf).Sublist [.localState] ∨
      (v.ops.filterMap requestOf).Sublist (w.ops.filterMap requestOf) := by
  rw [step_ops h]
  cases a with
  | takeEvent e o =>
    refine .inl ?_
    rw [opsAfter, turn_requests hi.sm.peers]
    split_ifs
    · exact .refl _
    · exact List.nil_sublist _
  | takeKill o =>
    rw [opsAfter, cleanup_requests]
    exact .inl (List.nil_sublist _)
  | op => exact .inr ((List.tail_sublist _).filterMap _)
  | _ => exact .inr (.refl _)

lemma Inv.step (hi : Inv w) (h : Network.step token w a = some v) : Inv v := by
  have hsm := Traffic.sm_step hi.sm h
  have hreq : (v.ops.filterMap requestOf).length ≤ 1 := by
    rcases requests_step hi h with hs | hs
    · exact hs.length_le
    · exact hs.length_le.trans hi.requests
  have hpending : ∀ req ∈ v.ops.filterMap requestOf, Shares req := by
    intro req hm
    rcases requests_step hi h with hs | hs
    · rw [List.mem_singleton.mp (hs.subset hm)]
      trivial
    · exact hi.pending req (hs.subset hm)
  rcases serverChan_cases h with ⟨-, hc⟩ | ⟨req, hp, hs⟩
  · exact ⟨hsm, hreq, hpending, hc ▸ hi.queued, hc ▸ hi.cap, hc ▸ hi.length⟩
  · have hcap := (Chan.send_cap hs).trans hi.cap
    have hnew := puts_shares hi req (hp ▸ List.mem_singleton_self req)
    refine ⟨hsm, hreq, hpending, ?_, hcap, (Chan.send_length hs).trans_eq hcap⟩
    rw [Chan.send_buf hs]
    exact List.forall_mem_append.mpr ⟨hi.queued, List.forall_mem_singleton.mpr hnew⟩

lemma inv_init (handles : ℕ) : Inv (Network.init handles) :=
  ⟨init_inv, Nat.zero_le _, List.forall_mem_nil _, List.forall_mem_nil _, rfl, Nat.zero_le _⟩

lemma performed_sublist (token : Token) (w : World) (a : Action) :
    (performed requestOf w a).Sublist (puts token w a) := by
  cases a with
  | op => exact .refl _
  | _ => exact List.nil_sublist _

theorem run_unheard {handles : ℕ} {tr : List (World × Action)} {u : World}
    (h : Run (Steps (step token)) (Network.init handles) tr u) : Unheard token tr u := by
  have hi := inv_init handles
  have hstep : ∀ s a t, Inv s → Steps (Network.step token) s a t → Inv t :=
    fun _ _ _ hi he => hi.step he
  have hu := h.invariant_last hstep hi
  have hkept : total (puts token) tr = u.ch.serverChan.buf := by
    have hc := (serverChan_conserves token).run hstep h hi
    have hnone : total (serverChan token).outflow tr = [] :=
      List.flatMap_eq_nil_iff.mpr fun _ _ => rfl
    rwa [hnone] at hc
  have hfew : (total (puts token) tr).length ≤ 10 := by
    rw [hkept]
    exact hu.length
  refine ⟨hkept, fun req hm => (hu.queued req hm).read _, hfew, ?_⟩
  have hturns : tr.countP (fun p => updates p.2) ≤ (total (issued requestOf) tr).length := by
    refine countP_le_length_total (h.all_steps Inv hstep (fun s a t hi _ hup => ?_) hi)
    cases a with
    | takeEvent e o => simp [issued, turn_requests hi.sm.peers, show sendUpdate e = true from hup]
    | _ => cases hup
  have hpend : total (issued requestOf) tr =
      total (performed requestOf) tr ++ u.ops.filterMap requestOf :=
    (pending_conserves token requestOf Inv).run hstep h hi
  have hperf : (total (performed requestOf) tr).length ≤ (total (puts token) tr).length :=
    (total_sublist fun p _ => performed_sublist token p.1 p.2).length_le
  have hone := hu.requests
  rw [hpend, List.length_append] at hturns
  omega

section Samples

theorem tenStates_unheard : ∃ tr u, tr.map Prod.snd = tenStates ∧
    Run (Steps (step sampleToken)) (Network.init 1) tr u ∧ Unheard sampleToken tr u := by
  have hend : (exec (step sampleToken) (Network.init 1) tenStates).any (fun _ => true) = true := rfl
  obtain ⟨tr, u, ha, hr, -⟩ := exec_any _ hend
  exact ⟨tr, u, ha, hr, run_unheard hr⟩

end Samples

end XbTunnel.Daemon.Outbox
