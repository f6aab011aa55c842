import XbTunnel.Server.Invariant

/-! Who a relayed signal says it is from. The server fills the sender in itself. -/

namespace XbTunnel.Server.Spoofing

open Common Lib.Effects Lib.Maps Lib.Runs

variable {env : Env} {s t : State} {a : Action}

def Silent (s t : State) : Prop := ∃ new, t.sent = s.sent ++ new ∧ ∀ m ∈ new, m.2.pcSignal = none

lemma Silent.of_eq (h : t.sent = s.sent) : Silent s t := ⟨[], by simp [h], by simp⟩

instance : IsPreorder State Silent where
  refl _ := .of_eq rfl
  trans := by
    rintro s t u ⟨new, ht, hn⟩ ⟨new', hu, hn'⟩
    refine ⟨new ++ new', by rw [hu, ht, List.append_assoc], fun m hm => ?_⟩
    exact (List.mem_append.mp hm).elim (hn m) (hn' m)

section Quiet

open Go Mutex

lemma silent_ss (l : RWMutex) (s : State) : Silent s (ssMutex.set l s) := .of_eq rfl

lemma silent_rms (l : RWMutex) (s : State) : Silent s (rmsMutex.set l s) := .of_eq rfl

lemma silent_session (sid : SessionId) (l : RWMutex) (s : State) :
    Silent s ((sessionMutex sid).set l s) :=
  .of_eq rfl

lemma silent_encode (encoder : Option ConnId) {resp : ServerResp} (h : resp.pcSignal = none) :
    Relates Silent (encode encoder resp) := by
  cases encoder with
  | none => exact relates_panic
  | some c =>
    apply relates_modify
    intro s
    refine ⟨[(c, resp)], rfl, fun m hm => ?_⟩
    rw [List.mem_singleton.mp hm, h]

lemma silent_scan (test : Session → Option Bool) (order : List SessionId) :
    Relates Silent (scan test order) := by
  induction order with
  | nil => exact relates_pure none
  | cons sid rest ih =>
    rw [scan]
    refine relates_get.bind fun s => ?_
    split
    · exact ih
    · refine (relates_rLock (silent_session sid)).bind fun _ => ?_
      refine (relates_rUnlock (silent_session sid)).deferred ?_
      split
      · exact relates_panic
      · exact relates_pure _
      · exact ih

lemma silent_getSessionByRequest (sessionid : Option String) (order : List SessionId) :
    Relates Silent (getSessionByRequest sessionid order) := by
  cases sessionid with
  | none => exact relates_pure none
  | some value =>
    refine (relates_rLock silent_ss).bind fun _ => ?_
    exact (relates_rUnlock silent_ss).deferred (silent_scan _ order)

lemma silent_notifyLoop (env : Env) (id : RoomId) (order : List SessionId) :
    Relates Silent (notifyLoop env id order) := by
  induction order with
  | nil => exact relates_pure ()
  | cons sid rest ih =>
    rw [notifyLoop]
    refine relates_get.bind fun s => ?_
    split
    · exact ih
    · split
      · exact (silent_encode _ rfl).bind fun _ => ih
      · exact ih

lemma silent_notifyRoom (env : Env) (id : RoomId) (order : List SessionId) :
    Relates Silent (notifyRoom env id order) := by
  refine (relates_rLock silent_ss).bind fun _ => ?_
  refine (silent_notifyLoop env id order).bind fun _ => ?_
  exact relates_rUnlock silent_ss

lemma silent_newRoom (name desc : String) (id : RoomId) : Relates Silent (newRoom name desc id) := by
  refine (relates_lock silent_rms).bind fun _ => ?_
  refine (relates_unlock silent_rms).deferred ?_
  apply Relates.bind
  · rw [nextRoomId]
    refine relates_get.bind fun s => ?_
    split
    · exact relates_hang
    · exact (relates_modify fun s => .of_eq rfl).bind fun _ => relates_pure id
  · intro id
    exact (relates_modify fun s => .of_eq rfl).bind fun _ => relates_pure _

lemma silent_makeAndChangeRoom (env : Env) (sid : SessionId) (name desc : String) (id : RoomId)
    (order : List SessionId) : Relates Silent (makeAndChangeRoom env sid name desc id order) := by
  refine (silent_newRoom name desc id).bind fun r => ?_
  apply Relates.bind
  · apply relates_modify
    intro s
    rw [setCurRoom_eq sid r s s rfl]
    exact .of_eq rfl
  · intro _
    exact silent_notifyRoom env r.id order

lemma silent_postRooms (env : Env) (sessionid name description : Option String) (id : RoomId)
    (order₁ order₂ : List SessionId) :
    Relates Silent (postRooms env sessionid name description id order₁ order₂) := by
  refine (silent_getSessionByRequest sessionid order₁).bind fun found => ?_
  split
  · exact relates_pure ()
  · split
    · exact silent_makeAndChangeRoom env _ _ _ id order₂
    · exact relates_panic

lemma silent_changeUserRoom (env : Env) (pid : PeerId) (r : Option Room)
    (order₁ order₂ : List SessionId) :
    Relates Silent (changeUserRoom env pid r order₁ order₂) := by
  refine (relates_lock silent_rms).bind fun _ => ?_
  apply Relates.bind
  · rw [leaveRoom]
    refine relates_get.bind fun s => ?_
    split
    · exact (relates_modify fun s => .of_eq rfl).bind fun _ => silent_notifyRoom env _ order₁
    · exact relates_pure ()
  · intro _
    apply Relates.bind
    · cases r with
      | none => exact relates_pure ()
      | some r =>
        exact (relates_modify fun s => .of_eq rfl).bind fun _ => silent_notifyRoom env r.id order₂
    · intro _
      exact relates_unlock silent_rms

lemma silent_changeroom (env : Env) (sessionid : Option String) (roomId : RoomId)
    (order₁ order₂ order₃ : List SessionId) :
    Relates Silent (changeroom env sessionid roomId order₁ order₂ order₃) := by
  refine (silent_getSessionByRequest sessionid order₁).bind fun found => ?_
  split
  · exact relates_pure ()
  · apply Relates.bind
    · refine (relates_rLock silent_rms).bind fun _ => ?_
      exact (relates_rUnlock silent_rms).deferred (relates_get.bind fun s => relates_pure _)
    · intro room
      split
      · exact relates_pure ()
      · refine relates_get.bind fun s => ?_
        split
        · exact relates_pure ()
        · exact silent_changeUserRoom env _ _ order₂ order₃

end Quiet

section Selection

def selects (env : Env) (c : ConnId) : State × Action → Option (Option SessionId)
  | (s, .request c' req order) =>
    if c' = c then
      req.token.bind fun token =>
        match getSessionByToken env token order s with
        | .ok found _ => some found
        | .panic _ | .hang _ => none
    else none
  | _ => none

def selected (env : Env) (c : ConnId) (tr : List (State × Action)) : Option SessionId :=
  tr.foldl (fun s p => (selects env c p).getD s) none

variable {token : Token} {order : List SessionId} {c : ConnId}

lemma getSessionByToken_found {sid : SessionId} (hs : SessionsReadable s)
    (hr : s.ssLock.Readable) (hf : order.find? (passes (ofToken env.users token) s) = some sid) :
    getSessionByToken env token order s = .ok (some sid) s := by
  have h := findSession_ensures (ofToken env.users token) order hs
  rw [getSessionByToken]
  cases ho : findSession (ofToken env.users token) order s with
  | ok found t =>
    obtain ⟨rfl, -, rfl⟩ := h.of_ok ho
    rw [hf]
  | panic t =>
    obtain ⟨-, -, sid', se', -, hn⟩ := h.of_panic ho
    obtain ⟨se, -, hse⟩ := passes_iff.mp (List.find?_some hf)
    obtain ⟨user, hu, -⟩ := Option.map_eq_some_iff.mp hse
    rw [ofToken, hu] at hn
    cases hn
  | hang t => exact absurd hr (h.of_hang ho).2

lemma getSessionByToken_waits (hs : SessionsReadable s) (hr : ¬ s.ssLock.Readable) :
    getSessionByToken env token order s = .hang s := by
  have h := findSession_ensures (ofToken env.users token) order hs
  rw [getSessionByToken]
  cases ho : findSession (ofToken env.users token) order s with
  | ok found t => exact absurd (h.of_ok ho).2.1 hr
  | panic t => exact absurd (h.of_panic ho).2.1 hr
  | hang t => rw [(h.of_hang ho).1]

lemma setConn_s {conn : Conn} {c' : ConnId} (h : conn.s = (s.conns c').s) :
    ((setConn c' conn s).conns c).s = (s.conns c).s := by
  by_cases hc : c = c'
  · rw [hc, setConn_conns_self, h]
  · rw [setConn_conns_of_ne hc]

lemma effect_selects (hs : Sound env s) (h : Effect env s a t) :
    (t.conns c).s = (selects env c (s, a)).getD (s.conns c).s := by
  cases h with
  | found | missed | checkWaits | created | createWaits | refused | blocked | stayed | ticked => rfl
  | made _ h => rw [h.kept.conns]; rfl
  | moved _ h => rw [h.kept.conns]; rfl
  | connected => exact setConn_s rfl
  | broke => exact setConn_s rfl
  | finished =>
    rw [detach_eq]
    exact setConn_s rfl
  | @waits c' req order _ hr =>
    have hn : selects env c (s, .request c' req order) = none := by
      rw [selects]
      split_ifs
      · cases req.token with
        | none => rfl
        | some token => simp only [Option.bind_some, getSessionByToken_waits hs.readable hr]
      · rfl
    rw [hn]
    exact setConn_s rfl
  | @served c' req order sent hn =>
    have hnone : selects env c (s, .request c' req order) = none := by
      simp only [selects, hn, Option.bind_none, ite_self]
    rw [hnone]
    rfl
  | @selected c' req order sent token sid _ hr ht hf =>
    simp only [selects, ht, Option.bind_some, getSessionByToken_found hs.readable hr hf]
    rw [attach_eq]
    by_cases hc : c = c'
    · rw [hc, if_pos rfl]
      exact congrArg Conn.s setConn_conns_self
    · rw [if_neg (Ne.symm hc)]
      exact congrArg Conn.s (setConn_conns_of_ne hc)

lemma run_selects {tr : List (State × Action)} {u : State} (h : Run (Steps (step env)) s tr u)
    (hs : Sound env s) :
    (u.conns c).s = tr.foldl (fun s p => (selects env c p).getD s) (s.conns c).s := by
  induction h with
  | nil => rfl
  | cons he _ ih =>
    rw [ih (hs.step he), List.foldl_cons, effect_selects hs (step_effect hs he)]

lemma conn_s_eq_selected {tr : List (State × Action)} {u : State}
    (h : Run (Steps (step env)) init tr u) : (u.conns c).s = selected env c tr :=
  run_selects h (sound_init env)

end Selection

structure Honest (env : Env) (tr : List (State × Action)) (s : State) (a : Action) (t : State) :
    Prop where
  signed : ∃ new, t.sent = s.sent ++ new ∧ ∀ m ∈ new, ∀ pc, m.2.pcSignal = some pc →
    ∃ c req order sid se given, a = .request c req order ∧
      selected env c (tr ++ [(s, a)]) = some sid ∧
      t.ss.lookup sid = some se ∧ pc.fromId = se.localState.userId ∧
      req.pcSignal = some given ∧ pc.toId = given.toId ∧ pc.payload = given.payload
  unselected : ∀ c req order, a = .request c req order →
    selected env c (tr ++ [(s, a)]) = none → Silent s t

def hideFrom : Action → Action
  | .request c req order => .request c
    { req with pcSignal := req.pcSignal.map fun pc => { pc with fromId := emptyPeerId } } order
  | a => a

section Emission

lemma request_emits {c : ConnId} {req : ServerReq} {order : List SessionId}
    (hs : SessionsReadable s) (h : request env c req order s = some t) :
    ∃ new, t.sent = s.sent ++ new ∧ ∀ m ∈ new, Relayed t c req.pcSignal m := by
  have he : (handleReq env c req order).Ensures s
      (fun _ t => ∃ new, t.sent = s.sent ++ new ∧ ∀ m ∈ new, Relayed t c req.pcSignal m)
      (fun _ => True) (fun t => t.sent = s.sent) := by
    rw [handleReq, Go.ensures_bind]
    refine (selectSession_ensures env c req.token order hs).mono ?_ (fun _ h => h) ?_
    · intro _ v hv
      have hread : SessionsReadable v := by
        rcases hv with ⟨-, rfl⟩ | ⟨-, tok, sid, -, -, rfl⟩
        · exact hs
        · rw [attach_eq]
          exact hs
      have hsent : v.sent = s.sent := by
        rcases hv with ⟨-, rfl⟩ | ⟨-, tok, sid, -, -, rfl⟩
        · rfl
        · rw [attach_eq]
          rfl
      refine (relaySignal_ensures c req.pcSignal hread).mono ?_ (fun _ _ => trivial) ?_
      · rintro _ t ⟨new, rfl, hnew⟩
        exact ⟨new, congrArg (· ++ new) hsent, hnew⟩
      · rintro t ⟨rfl, -⟩
        exact hsent
    · rintro t ⟨rfl, -⟩
      rfl
  rw [request] at h
  cases ho : handleReq env c req order s with
  | ok _ u =>
    rw [ho] at h
    obtain rfl := Option.some.inj h
    exact he.of_ok ho
  | panic u =>
    rw [ho] at h
    cases h
  | hang u =>
    rw [ho] at h
    obtain rfl := Option.some.inj h
    have hu := he.of_hang ho
    refine ⟨[], ?_, by simp⟩
    rw [List.append_nil]
    exact hu

lemma step_silent (hs : Sound env s) (h : step env s a = some t)
    (ha : ∀ c req order, a ≠ .request c req order) : Silent s t := by
  cases a with
  | request c req order => exact absurd rfl (ha c req order)
  | postRooms sessionid name description id order₁ order₂ =>
    obtain ⟨-, h⟩ := Option.ite_none_right_eq_some.mp h
    obtain rfl := Option.some.inj h
    exact silent_postRooms env sessionid name description id order₁ order₂ s
  | changeroom sessionid roomId order₁ order₂ order₃ =>
    obtain ⟨-, h⟩ := Option.ite_none_right_eq_some.mp h
    obtain rfl := Option.some.inj h
    exact silent_changeroom env sessionid roomId order₁ order₂ order₃ s
  | tick c =>
    obtain ⟨-, h⟩ := Option.ite_none_right_eq_some.mp h
    obtain rfl := Option.some.inj h
    exact (silent_encode (some c) rfl : Go.Relates Silent (encode (some c) {})) s
  | finish c =>
    cases step_effect hs h
    rw [detach_eq]
    exact .of_eq rfl
  | _ => cases step_effect hs h <;> exact .of_eq rfl

lemma honest {tr : List (State × Action)} (hr : Run (Steps (step env)) init tr s)
    (h : step env s a = some t) : Honest env tr s a t := by
  have hs := sound_run hr
  by_cases ha : ∀ c req order, a ≠ .request c req order
  · obtain ⟨new, hsent, hnew⟩ := step_silent hs h ha
    refine ⟨⟨new, hsent, fun m hm pc hpc => ?_⟩, fun c req order he => absurd he (ha c req order)⟩
    cases (hnew m hm).symm.trans hpc
  · push Not at ha
    obtain ⟨c, req, order, rfl⟩ := ha
    have hsel := conn_s_eq_selected (c := c) (hr.snoc h)
    obtain ⟨new, hsent, hnew⟩ :=
      request_emits hs.readable (Option.ite_none_right_eq_some.mp h).2
    refine ⟨⟨new, hsent, fun m hm pc hpc => ?_⟩, fun c' req' order' he hnone => ?_⟩
    · obtain ⟨sid, se, given, -, hsid, hse, hgiven, -, -, hresp⟩ := hnew m hm
      rw [hresp] at hpc
      obtain rfl := Option.some.inj hpc
      exact ⟨c, req, order, sid, se, given, rfl, hsel ▸ hsid, hse, rfl, hgiven, rfl, rfl⟩
    · cases he
      refine ⟨new, hsent, fun m hm => ?_⟩
      obtain ⟨sid, -, -, -, hsid, -⟩ := hnew m hm
      rw [hsel, hnone] at hsid
      cases hsid

lemma relaySignal_hideFrom (c : ConnId) (pcSignal : Option PcSignal) :
    relaySignal c (pcSignal.map fun pc => { pc with fromId := emptyPeerId }) =
      relaySignal c pcSignal := by
  cases pcSignal with
  | none => rfl
  | some pc =>
    rw [relaySignal, relaySignal, Option.map_some]
    congr 1
    funext st
    cases (st.conns c).s.bind st.ss.lookup <;> rfl

lemma step_hideFrom (s : State) (a : Action) : step env s (hideFrom a) = step env s a := by
  cases a with
  | request c req order =>
    simp only [hideFrom, step, request, handleReq, relaySignal_hideFrom]
  | _ => rfl

lemma exec_hideFrom (s : State) (as : List Action) :
    exec (step env) s (as.map hideFrom) = exec (step env) s as := by
  induction as generalizing s with
  | nil => rfl
  | cons a as ih => simp only [List.map_cons, exec, step_hideFrom, ih]

end Emission

theorem no_spoofing (env : Env) :
    (∀ tr s a t, Run (Steps (step env)) init tr s → step env s a = some t →
      Honest env tr s a t) ∧
    ∀ s as as', as.map hideFrom = as'.map hideFrom →
      exec (step env) s as = exec (step env) s as' := by
  refine ⟨fun tr s a t => honest, fun s as as' h => ?_⟩
  rw [← exec_hideFrom s as, h, exec_hideFrom]

section Samples

def claimsToBe (user : PeerId) : Action :=
  .request 0 { pcSignal := some ⟨user, ⟨bobSession.oid⟩, [5]⟩ } [aliceSession, bobSession]

def bothConnect : List Action :=
  bothLogIn ++ [.connect 0, .request 0 (tokenReq alice) [aliceSession, bobSession], .connect 1,
    .request 1 (tokenReq bob) [aliceSession, bobSession]]

theorem alice_claims_to_be_bob : ∃ tr s t, tr.map Prod.snd = bothConnect ∧
    Run (Steps (step sampleEnv)) init tr s ∧ step sampleEnv s (claimsToBe bob.id) = some t ∧
    t.sent = [(1, { pcSignal := some ⟨alice.id, ⟨bobSession.oid⟩, [5]⟩ })] ∧
    Honest sampleEnv tr s (claimsToBe bob.id) t ∧
    exec (step sampleEnv) init (bothConnect ++ [claimsToBe bob.id]) =
      exec (step sampleEnv) init (bothConnect ++ [claimsToBe alice.id]) := by
  have hend : (exec (step sampleEnv) init bothConnect).any (fun s =>
      (step sampleEnv s (claimsToBe bob.id)).any fun t =>
        decide (t.sent = [(1, { pcSignal := some ⟨alice.id, ⟨bobSession.oid⟩, [5]⟩ })])) = true :=
    rfl
  obtain ⟨tr, s, ha, hr, hany⟩ := exec_any _ hend
  obtain ⟨t, ht, hsent⟩ := (Option.any_eq_true _ _).mp hany
  refine ⟨tr, s, t, ha, hr, ht, of_decide_eq_true hsent, ?_, ?_⟩
  · exact (no_spoofing sampleEnv).1 tr s _ t hr ht
  · exact (no_spoofing sampleEnv).2 init _ _ rfl

end Samples

end XbTunnel.Server.Spoofing
