import XbTunnel.Server.Invariant

/-! The relay of signals between users. A signal names its receiver by a user id, and the relay
looks it up among the session ids. -/

namespace XbTunnel.Server.Relay

open Common Lib.Effects Lib.Maps Lib.Runs

variable {env : Env} {s t : State} {a : Action}

def afterToken (env : Env) (c : ConnId) (req : ServerReq) (order : List SessionId) (s : State) :
    State :=
  (selectSession env c req.token order s).state

def Reaches (s : State) (b : PeerId) (e : ConnId) : Prop :=
  ∃ sid se, s.ss.lookup sid = some se ∧ se.localState.userId = b ∧ se.encoder = some e

structure RelayedOnce (v t : State) (pc : PcSignal) : Prop where
  online : (∃ e, Reaches v pc.toId e) →
    ∃ e, Reaches v pc.toId e ∧ t.sent = v.sent ++ [(e, { pcSignal := some pc })]
  offline : (¬ ∃ e, Reaches v pc.toId e) → t.sent = v.sent

def Signals (env : Env) (s : State) (a : Action) (v : State) (user : PeerId) (pc : PcSignal) : Prop :=
  ∃ c req order sid se, a = .request c req order ∧ v = afterToken env c req order s ∧
    req.pcSignal = some pc ∧ pc.toId ∈ env.users.map User.id ∧
    (v.conns c).s = some sid ∧ v.ss.lookup sid = some se ∧ se.localState.userId = user

def RelaysSignals (env : Env) (s : State) (a : Action) : Prop :=
  ∀ t v user pc, step env s a = some t → Signals env s a v user pc →
    RelayedOnce v t { pc with fromId := user }

def ReceiverOffline (env : Env) (s : State) (a : Action) : Prop :=
  ∀ v user pc, Signals env s a v user pc → ∀ e, ¬ Reaches v pc.toId e

lemma afterToken_sound {c : ConnId} {req : ServerReq} {order : List SessionId} {v : State}
    (hs : Sound env s) (hp : (s.conns c).phase = .reading)
    (hv : selectSession env c req.token order s = .ok () v) : Sound env v := by
  have h := selectSession_ensures env c req.token order hs.readable
  obtain ⟨-, rfl⟩ | ⟨-, tok, sid, -, hf, rfl⟩ := h.of_ok hv
  · exact hs
  · obtain ⟨se, hl, -⟩ := passes_iff.mp (List.find?_some hf)
    exact hs.attach (fun h => nomatch hp.symm.trans h) (Finmap.mem_of_lookup_eq_some hl)

lemma request_sends_nothing {c : ConnId} {req : ServerReq} {order : List SessionId} {pc : PcSignal}
    (hs : Sound env s) (hp : (s.conns c).phase = .reading)
    (h : request env c req order s = some t) (hpc : req.pcSignal = some pc)
    (hb : pc.toId ∈ env.users.map User.id) : t.sent = (afterToken env c req order s).sent := by
  have hr : handleReq env c req order s =
      Go.bind (selectSession env c req.token order) (fun _ => relaySignal c req.pcSignal) s := rfl
  rw [request, hr, Go.bind] at h
  rw [afterToken]
  cases hsel : selectSession env c req.token order s with
  | ok _ v =>
    have hsound := afterToken_sound hs hp hsel
    have he := relaySignal_ensures c req.pcSignal hsound.readable
    have habsent : ∀ m, ¬ Relayed v c req.pcSignal m := by
      rintro m ⟨-, -, pc', to_s, -, -, hpc', hto, -⟩
      obtain rfl := Option.some.inj (hpc.symm.trans hpc')
      obtain ⟨user, hu, hid⟩ := List.mem_map.mp hb
      exact hsound.apart _ (Finmap.mem_of_lookup_eq_some hto) user hu (congrArg PeerId.oid hid)
    simp only [hsel] at h
    cases hrel : relaySignal c req.pcSignal v with
    | ok _ w =>
      rw [hrel] at h
      obtain rfl := Option.some.inj h
      obtain ⟨new, rfl, hnew⟩ := he.of_ok hrel
      have hnil : new = [] := List.eq_nil_iff_forall_not_mem.mpr fun m hm => habsent m (hnew m hm)
      exact hnil ▸ List.append_nil v.sent
    | panic w => exact (he.of_panic hrel).elim
    | hang w =>
      rw [hrel] at h
      obtain rfl := Option.some.inj h
      have hw : w.sent = v.sent := congrArg State.sent (he.of_hang hrel).1
      exact hw
  | panic v =>
    rw [hsel] at h
    cases h
  | hang v =>
    rw [hsel] at h
    obtain rfl := Option.some.inj h
    rfl

lemma relaysSignals_iff (hs : Sound env s) (h : step env s a = some t) :
    RelaysSignals env s a ↔ ReceiverOffline env s a := by
  have hsent : ∀ v user pc, Signals env s a v user pc → t.sent = v.sent := by
    rintro v user pc ⟨c, req, order, sid, se, rfl, rfl, hpc, hb, -⟩
    obtain ⟨⟨hp, -⟩, h⟩ := Option.ite_none_right_eq_some.mp h
    exact request_sends_nothing hs hp h hpc hb
  constructor
  · intro hrel v user pc hsig e hreach
    obtain ⟨e', -, hone⟩ := (hrel t v user pc h hsig).online ⟨e, hreach⟩
    rw [hsent v user pc hsig] at hone
    exact absurd (congrArg List.length hone) (by simp)
  · intro hoff t' v user pc h' hsig
    obtain rfl := Option.some.inj (h.symm.trans h')
    refine ⟨?_, fun _ => hsent v user pc hsig⟩
    rintro ⟨e, hreach⟩
    exact absurd hreach (hoff v user pc hsig e)

theorem relays_signals_iff {tr : List (State × Action)} {u : State}
    (h : Run (Steps (step env)) init tr u) :
    AllSteps (RelaysSignals env) tr ↔ AllSteps (ReceiverOffline env) tr :=
  h.all_steps_iff (Sound env) (fun _ _ _ => Sound.step) (fun _ _ _ => relaysSignals_iff)
    (sound_init env)

section Samples

def signalTo (user : User) : ServerReq :=
  { pcSignal := some { fromId := emptyPeerId, toId := user.id, payload := [5] } }

def receiverIsOffline (s : State) : Action → Bool
  | .request c req order => req.pcSignal.all fun pc =>
      let v := afterToken sampleEnv c req order s
      decide (∀ sid ∈ v.ss.keys, (v.ss.lookup sid).all fun se =>
        decide (se.localState.userId = pc.toId → se.encoder = none))
  | _ => true

lemma receiverOffline_of_receiverIsOffline (h : receiverIsOffline s a = true) :
    ReceiverOffline sampleEnv s a := by
  rintro v user pc ⟨c, req, order, -, -, rfl, rfl, hpc, -⟩ e ⟨sid, se, hl, hu, he⟩
  simp only [receiverIsOffline, hpc, Option.all_some, decide_eq_true_eq] at h
  have hse := h sid (Finmap.mem_keys.mpr (Finmap.mem_of_lookup_eq_some hl))
  rw [hl, Option.all_some, decide_eq_true_eq] at hse
  cases he.symm.trans (hse hu)

def aliceConnects : List Action :=
  bothLogIn ++ [.connect 0, .request 0 (tokenReq alice) [aliceSession, bobSession]]

def bobConnects : List Action :=
  [.connect 1, .request 1 (tokenReq bob) [aliceSession, bobSession]]

def aliceSignals : Action := .request 0 (signalTo bob) [aliceSession, bobSession]

theorem signal_to_offline_user : ∃ tr u, tr.map Prod.snd = aliceConnects ++ [aliceSignals] ∧
    Run (Steps (step sampleEnv)) init tr u ∧ AllSteps (RelaysSignals sampleEnv) tr := by
  obtain ⟨tr, u, ha, hr, hs⟩ := follow_run (step sampleEnv) receiverIsOffline
    (fun _ _ => receiverOffline_of_receiverIsOffline) init (aliceConnects ++ [aliceSignals]) rfl
  exact ⟨tr, u, ha, hr, (relays_signals_iff hr).mpr hs⟩

theorem signal_to_online_user_is_lost : ∃ tr u, tr.map Prod.snd = aliceConnects ++ bobConnects ∧
    Run (Steps (step sampleEnv)) init tr u ∧ ¬ RelaysSignals sampleEnv u aliceSignals := by
  have hend : (exec (step sampleEnv) init (aliceConnects ++ bobConnects)).any (fun u =>
      let v := afterToken sampleEnv 0 (signalTo bob) [aliceSession, bobSession] u
      decide ((v.conns 0).s = some aliceSession ∧
        (v.ss.lookup aliceSession).map (·.localState.userId) = some alice.id ∧
        (v.ss.lookup bobSession).map (fun se => (se.localState.userId, se.encoder)) =
          some (bob.id, some 1) ∧
        (step sampleEnv u aliceSignals).map State.sent = some v.sent)) = true := rfl
  obtain ⟨tr, u, has, hr, hd⟩ := exec_any _ hend
  obtain ⟨hc, ha, hb, ht⟩ := of_decide_eq_true hd
  refine ⟨tr, u, has, hr, fun hrel => ?_⟩
  obtain ⟨t, hstep, hsent⟩ := Option.map_eq_some_iff.mp ht
  obtain ⟨sea, hla, hua⟩ := Option.map_eq_some_iff.mp ha
  obtain ⟨seb, hlb, hub⟩ := Option.map_eq_some_iff.mp hb
  rw [Prod.mk.injEq] at hub
  have hsig : Signals sampleEnv u aliceSignals
      (afterToken sampleEnv 0 (signalTo bob) [aliceSession, bobSession] u) alice.id
      ⟨emptyPeerId, bob.id, [5]⟩ :=
    ⟨0, signalTo bob, [aliceSession, bobSession], aliceSession, sea, rfl, rfl, rfl, by decide, hc,
      hla, hua⟩
  obtain ⟨e, -, hone⟩ := (hrel t _ _ _ hstep hsig).online ⟨1, bobSession, seb, hlb, hub.1, hub.2⟩
  rw [hsent] at hone
  exact absurd (congrArg List.length hone) (by simp)

end Samples

end XbTunnel.Server.Relay
