import XbTunnel.Server.Entry

/-! The steps of a login that nothing interrupts, and the login in one step. -/

namespace XbTunnel.Server.Api

open Common Lib.Effects Lib.Maps Lib.Runs Accounts Cookies Logins

variable {B : Bcrypt} {C : String → String} {makeLocalState : State → LocalState} {env : Env}
  {db : Db} {w w' : Web} {s t : State} {pid : PeerId} {sid : SessionId}

def answer (kind : Kind) : Outcome State (Except String SessionId) → Option Response
  | .ok (.ok sid) _ => some { cookie := some (Cookies.setSessionCookie sid) }
  | .ok (.error err) _ => some (failed kind err)
  | .panic _ | .hang _ => none

lemma createSession_eq (pid : PeerId) (sid : SessionId) (s : State) : createSession pid sid s =
    if Lockable s.ssLock then .ok sid { s with ss := s.ss.insert sid (newSession pid sid) }
    else .hang { s with ssLock := { s.ssLock with waiting := true } } := by
  have h := createSession_ensures pid sid s
  cases hc : createSession pid sid s with
  | ok r t =>
    obtain ⟨rfl, hk, rfl⟩ := h.of_ok hc
    rw [if_pos hk]
  | panic t => exact (h.of_panic hc).elim
  | hang t =>
    obtain ⟨hk, rfl⟩ := h.of_hang hc
    rw [if_neg hk]

lemma setSessionCookie_eq (pid : PeerId) (order : List SessionId) (sid : SessionId) (s : State) :
    setSessionCookie pid order sid s = match getSessionByPeerId pid order s with
      | .ok (some r) t => .ok r t
      | .ok none t => createSession pid sid t
      | .panic t => .panic t
      | .hang t => .hang t := by
  change Go.bind (getSessionByPeerId pid order) _ s = _
  rw [Go.bind]
  cases getSessionByPeerId pid order s with
  | ok r t => cases r <;> rfl
  | panic t | hang t => rfl

def issued : Outcome State SessionId → Option Response
  | .ok sid _ => some { cookie := some (Cookies.setSessionCookie sid) }
  | .panic _ | .hang _ => none

lemma login_admits {n p : Bytes} {pick : ℕ} {user : User} (ha : Admits B C db n p pick user)
    (kind : Kind) (order : List SessionId) (sid : SessionId) (s : State) :
    (login B C db n p pick order sid s).state = (setSessionCookie user.id order sid s).state ∧
      answer kind (login B C db n p pick order sid s) =
        issued (setSessionCookie user.id order sid s) := by
  have hlog : login B C db n p pick order sid =
      setSessionCookie user.id order sid >>= fun r => pure (.ok r) := by
    simp only [login, ha.found, if_neg ha.id, ha.password, Bool.true_eq_false, if_false]
  rw [hlog]
  refine ⟨Go.state_bind_pure _ s, ?_⟩
  change answer kind (Go.bind (setSessionCookie user.id order sid) _ s) = _
  rw [Go.bind]
  cases setSessionCookie user.id order sid s <;> rfl

lemma loginCreate_setLogin (l : LoginId) (login : Login) (pid : PeerId) (sid : SessionId)
    (s : State) : loginCreate l pid sid (setLogin l login s) = match createSession pid sid s with
      | .ok sid t => setLogin l (.done sid) t
      | .panic t => t
      | .hang t => setLogin l .stuck t := by
  rw [loginCreate, createSession_eq, createSession_eq]
  by_cases hk : Lockable s.ssLock
  · rw [if_pos hk, if_pos (show Lockable (setLogin l login s).ssLock from hk)]
    simp only [setLogin, Function.update_idem]
  · rw [if_neg hk, if_neg (show ¬ Lockable (setLogin l login s).ssLock from hk)]
    simp only [setLogin, Function.update_idem]

lemma step_check {l : LoginId} {kind : Kind} {n p : Bytes} {order : List SessionId}
    (hc : w.calls l = .admitted kind n p pid) (hi : w.server.logins l = .idle)
    (hm : pid ∈ (w.db.users (C "xbtusers")).map User.id) (hv : Visits w.server.ss order) :
    step B C makeLocalState w (.check l order) =
      some { w with server := loginCheck l pid order w.server } := by
  have ht : Server.step (w.env C makeLocalState) w.server (.loginCheck l pid order) =
      some (loginCheck l pid order w.server) := if_pos ⟨hi, hm, hv⟩
  simp only [step, hc, serverStep, ht, Option.map_some]

lemma step_create {l : LoginId} (hm : w.server.logins l = .missed pid)
    (hf : Fresh (w.env C makeLocalState) w.server sid.oid) :
    step B C makeLocalState w (.create l sid) =
      some { w with server := loginCreate l pid sid w.server } := by
  simp only [step, serverStep, Server.step, hm, if_pos hf, Option.map_some]

lemma response_admitted {l : LoginId} {kind : Kind} {n p : Bytes}
    (hc : w.calls l = .admitted kind n p pid) (t : State) :
    response { w with server := t } l = match t.logins l with
      | .done sid => some { cookie := some (Cookies.setSessionCookie sid) }
      | _ => none := by
  simp only [response, hc]
  cases t.logins l <;> rfl

lemma admitted_uninterrupted {l : LoginId} {kind : Kind} {n p : Bytes} {order : List SessionId}
    (hc : w.calls l = .admitted kind n p pid) (hi : w.server.logins l = .idle)
    (hm : pid ∈ (w.db.users (C "xbtusers")).map User.id) (hs : SessionsReadable w.server)
    (hv : Visits w.server.ss order) (hf : Fresh (w.env C makeLocalState) w.server sid.oid) :
    ∃ tr u, Run (Steps (step B C makeLocalState)) w tr u ∧
      tr.map Prod.snd <+: [.check l order, .create l sid] ∧
      u.server = { (setSessionCookie pid order sid w.server).state with
        logins := u.server.logins } ∧
      response u l = issued (setSessionCookie pid order sid w.server) := by
  have hcheck : step B C makeLocalState w (.check l order) =
      some { w with server := loginCheck l pid order w.server } := step_check hc hi hm hv
  have hget := getSessionByPeerId_eq hs pid order
  rw [setSessionCookie_eq]
  rw [loginCheck] at hcheck
  by_cases hr : w.server.ssLock.Readable
  · rw [hget, if_pos hr] at hcheck ⊢
    cases ho : order.find? (passes (ofPeerId pid) w.server) with
    | some r =>
      rw [ho] at hcheck
      refine ⟨_, _, .single hcheck, ⟨[_], rfl⟩, rfl, ?_⟩
      simp only [response_admitted hc, setLogin_self]
      rfl
    | none =>
      rw [ho] at hcheck
      have hcreate : step B C makeLocalState { w with
          server := setLogin l (.missed pid) w.server } (.create l sid) = some { w with
            server := loginCreate l pid sid (setLogin l (.missed pid) w.server) } :=
        step_create setLogin_self hf
      rw [loginCreate_setLogin] at hcreate
      have hall := createSession_ensures pid sid w.server
      cases hcs : createSession pid sid w.server with
      | ok r t | hang t =>
        rw [hcs] at hcreate
        refine ⟨_, _, .cons hcheck (.single hcreate), ⟨[], rfl⟩, ?_, ?_⟩
        · simp only [hcs]
          rfl
        · simp only [hcs, response_admitted hc, setLogin_self]
          rfl
      | panic t => exact (hall.of_panic hcs).elim
  · rw [hget, if_neg hr] at hcheck ⊢
    refine ⟨_, _, .single hcheck, ⟨[_], rfl⟩, rfl, ?_⟩
    simp only [response_admitted hc, setLogin_self]
    rfl

theorem login_uninterrupted (db : Db) {tr : List (Web × Op)}
    (h : Run (Steps (step B C makeLocalState)) (start C db) tr w) {l : LoginId} {kind : Kind}
    {n p : Bytes} (hc : w.calls l = .sent kind n p) {order : List SessionId}
    (hv : Visits w.server.ss order) (hf : Fresh (w.env C makeLocalState) w.server sid.oid)
    (pick : ℕ) :
    ∃ tr' u, Run (Steps (step B C makeLocalState)) w tr' u ∧
      tr'.map Prod.snd <+: [.find l pick, .check l order, .create l sid] ∧
      u.server = { (login B C w.db n p pick order sid w.server).state with
        logins := u.server.logins } ∧
      response u l = answer kind (login B C w.db n p pick order sid w.server) := by
  have hi : Inv B C makeLocalState w := h.invariant_last (fun _ _ _ => Inv.step) (inv_start db)
  have hidle : w.server.logins l = .idle := (hi.fits l).eq_idle (by simp [hc])
  have hfind : ∀ call, findUser B C w.db kind n p pick = call →
      step B C makeLocalState w (.find l pick) = some (setCall l call w) := by
    rintro _ rfl
    simp only [step, hc]
  obtain ⟨user, ha, he⟩ | ⟨err, he, hlog⟩ := findUser_cases (B := B) (C := C) w.db kind n p pick
  · obtain ⟨hstate, hanswer⟩ := login_admits ha kind order sid w.server
    rw [hstate, hanswer]
    have hcall : (setCall l (.admitted kind n p user.id) w).calls l =
        .admitted kind n p user.id := setCall_calls_self ..
    obtain ⟨tr', u, hr, hp, hu⟩ := admitted_uninterrupted hcall hidle
      (List.mem_map_of_mem ha.mem) hi.sound.readable hv hf
    exact ⟨_, u, .cons (hfind _ he) hr, List.cons_prefix_cons.mpr ⟨rfl, hp⟩, hu⟩
  · refine ⟨_, _, .single (hfind _ he), ⟨_, rfl⟩, ?_, ?_⟩
    · rw [hlog]
      rfl
    · rw [hlog, response, setCall_calls_self]
      rfl

section Samples

theorem aliceRegisters_uninterrupted : ∃ tr w, tr.map Prod.snd = [aliceRegisters] ∧
    Run (Steps (sampleSite oneCollection)) (start oneCollection emptyDb) tr w ∧
    ∃ tr' u, Run (Steps (sampleSite oneCollection)) w tr' u ∧
      tr'.map Prod.snd <+: [.find 0 0, .check 0 [], .create 0 aliceSession] ∧
      u.server = { (login sampleBcrypt oneCollection w.db alice.nickname [0x70] 0 []
        aliceSession w.server).state with logins := u.server.logins } ∧
      response u 0 = answer .register (login sampleBcrypt oneCollection w.db alice.nickname [0x70]
        0 [] aliceSession w.server) := by
  have hend : (exec (sampleSite oneCollection) (start oneCollection emptyDb)
      [aliceRegisters]).any (fun w => decide (w.calls 0 = .sent .register alice.nickname [0x70] ∧
        Visits w.server.ss [] ∧
        Fresh (w.env oneCollection fun _ => LocalState.zero) w.server aliceSession.oid)) = true :=
    rfl
  obtain ⟨tr, w, ha, hr, hd⟩ := exec_any _ hend
  obtain ⟨hc, hv, hf⟩ := of_decide_eq_true hd
  exact ⟨tr, w, ha, hr, login_uninterrupted emptyDb hr hc hv hf 0⟩

end Samples

end XbTunnel.Server.Api
