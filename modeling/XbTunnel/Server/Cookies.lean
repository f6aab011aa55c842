import XbTunnel.Server.Invariant

/-! The session cookie: `_setSessionCookie` writes it for the session of a login, and
`getSessionByRequest` looks the session up by it. -/

namespace XbTunnel.Server.Cookies

open Common Lib.Effects Lib.Maps Lib.Runs

structure Cookie where
  name : String
  value : String
deriving DecidableEq

def setSessionCookie (sid : SessionId) : Cookie := ⟨"sessionid", hex sid.oid⟩

/-- `r.Cookie(name)`: the first cookie of that name. -/
def namedCookie (cookies : List Cookie) (name : String) : Option Cookie :=
  cookies.find? fun c => c.name = name

def resolve (cookies : List Cookie) (order : List SessionId) : Go State (Option SessionId) :=
  getSessionByRequest ((namedCookie cookies "sessionid").map Cookie.value) order

def Issued (s : State) (sid : SessionId) : Prop := ∃ l, s.logins l = .done sid

def isLogin : Action → Bool
  | .loginCheck _ _ _ | .loginCreate _ _ => true
  | _ => false

variable {env : Env} {s t : State} {a : Action} {sid : SessionId}

structure Inv (env : Env) (s : State) : Prop where
  sound : Sound env s
  free : s.ssLock = .free
  issued : ∀ sid, sid ∈ s.ss ↔ Issued s sid

lemma inv_init (env : Env) : Inv env init where
  sound := sound_init env
  free := rfl
  issued sid := by
    constructor
    · intro h
      exact absurd h Finmap.notMem_empty
    · rintro ⟨l, h⟩
      cases h

lemma issued_setLogin {l : LoginId} {login : Login} (hl : ∀ sid, s.logins l ≠ .done sid) :
    Issued (setLogin l login s) sid ↔ login = .done sid ∨ Issued s sid := by
  constructor
  · rintro ⟨l', h⟩
    rcases setLogin_eq_iff.mp h with ⟨-, h⟩ | ⟨-, h⟩
    · exact .inl h
    · exact .inr ⟨l', h⟩
  · rintro (h | ⟨l', h⟩)
    · exact ⟨l, setLogin_eq_iff.mpr (.inl ⟨rfl, h⟩)⟩
    · exact ⟨l', setLogin_eq_iff.mpr (.inr ⟨fun he => hl sid (he ▸ h), h⟩)⟩

lemma login_idle {l : LoginId} {pid : PeerId} {order : List SessionId}
    (h : step env s (.loginCheck l pid order) = some t) : s.logins l = .idle := by
  obtain ⟨⟨hi, -⟩, -⟩ := Option.ite_none_right_eq_some.mp h
  exact hi

lemma Inv.step (h : Inv env s) (hs : step env s a = some t) (ha : isLogin a = true) :
    Inv env t := by
  have hsound := h.sound.step hs
  have hfree := h.free
  cases step_effect h.sound hs with
  | @found l pid order sid se hl hu =>
    have hn : ∀ sid, s.logins l ≠ .done sid := fun sid he => by
      cases (login_idle hs).symm.trans he
    refine ⟨hsound, hfree, fun sid' => ?_⟩
    rw [issued_setLogin hn, ← h.issued]
    constructor
    · exact .inr
    · rintro (he | hm)
      · obtain rfl := Login.done.inj he
        exact Finmap.mem_of_lookup_eq_some hl
      · exact hm
  | missed hi =>
    refine ⟨hsound, hfree, fun sid' => ?_⟩
    have hn : ∀ sid, s.logins _ ≠ .done sid := fun sid he => by cases hi.symm.trans he
    rw [issued_setLogin hn, ← h.issued]
    exact ⟨.inr, fun hm => hm.resolve_left nofun⟩
  | checkWaits hr =>
    rw [hfree] at hr
    exact absurd RWMutex.free_readable hr
  | @created l pid sid hl _ _ =>
    refine ⟨hsound, hfree, fun sid' => ?_⟩
    have hn : ∀ sid', s.logins l ≠ .done sid' := fun sid' he => by cases hl.symm.trans he
    have hi : Issued (setLogin l (.done sid) s) sid' ↔ _ := issued_setLogin hn
    refine (Finmap.mem_insert.trans (or_congr ?_ (h.issued sid'))).trans hi.symm
    exact ⟨fun he => he ▸ rfl, fun he => (Login.done.inj he).symm⟩
  | createWaits hk =>
    rw [hfree] at hk
    exact absurd ⟨rfl, rfl⟩ hk
  | _ => cases ha

lemma inv_run {tr : List (State × Action)} (h : Run (Steps (step env)) s tr t)
    (hl : AllSteps (fun _ a => isLogin a = true) tr) (hs : Inv env s) : Inv env t := by
  induction h with
  | nil => exact hs
  | cons he _ ih =>
    obtain ⟨ha, hl⟩ := (allSteps_cons _ _ _ _).mp hl
    exact ih hl (hs.step he ha)

lemma Inv.resolves (h : Inv env s) {order : List SessionId} (hv : Visits s.ss order)
    (sessionid : Option String) : ∃ r, getSessionByRequest sessionid order s = .ok r s ∧
      ∀ sid, r = some sid ↔ sessionid = some sid.toString ∧ Issued s sid := by
  have hr : s.ssLock.Readable := by
    rw [h.free]
    exact RWMutex.free_readable
  have he := getSessionByRequest_ensures sessionid h.sound hv
  cases hg : getSessionByRequest sessionid order s with
  | ok r t =>
    obtain ⟨rfl, hiff⟩ := he.of_ok hg
    refine ⟨r, rfl, fun sid => (hiff sid).trans ?_⟩
    rw [h.issued]
    exact and_congr_right fun _ => ⟨And.left, fun hi => ⟨hi, hr⟩⟩
  | panic t => exact (he.of_panic hg).elim
  | hang t => exact absurd hr (he.of_hang hg).2

theorem session_cookie_resolves {tr : List (State × Action)}
    (h : Run (Steps (step env)) init tr s) (hl : AllSteps (fun _ a => isLogin a = true) tr)
    {order : List SessionId} (hv : Visits s.ss order) (cookies : List Cookie) :
    (∀ l sid, s.logins l = .done sid →
      namedCookie cookies "sessionid" = some (setSessionCookie sid) →
      resolve cookies order s = .ok (some sid) s) ∧
    ∀ value, namedCookie cookies "sessionid" = some ⟨"sessionid", value⟩ →
      (∀ l sid, s.logins l = .done sid → (setSessionCookie sid).value ≠ value) →
      resolve cookies order s = .ok none s := by
  have hi := inv_run h hl (inv_init env)
  constructor
  · intro l sid hd hc
    obtain ⟨r, hr, hiff⟩ := hi.resolves hv (some sid.toString)
    obtain rfl := (hiff sid).mpr ⟨rfl, l, hd⟩
    rw [resolve, hc]
    exact hr
  · intro value hc hn
    obtain ⟨r, hr, hiff⟩ := hi.resolves hv (some value)
    rw [resolve, hc]
    cases r with
    | none => exact hr
    | some sid =>
      obtain ⟨he, l, hd⟩ := (hiff sid).mp rfl
      exact absurd (Option.some.inj he).symm (hn l sid hd)

theorem bob_cookie_resolves : ∃ tr s, tr.map Prod.snd = bothLogIn ∧
    Run (Steps (step sampleEnv)) init tr s ∧
    resolve [⟨"lang", "en"⟩, setSessionCookie bobSession] [bobSession, aliceSession] s =
      .ok (some bobSession) s := by
  have hend : (exec (step sampleEnv) init bothLogIn).any (fun s =>
      decide (Visits s.ss [bobSession, aliceSession] ∧ s.logins 1 = .done bobSession)) = true := rfl
  obtain ⟨tr, s, ha, hr, hd⟩ := exec_any _ hend
  obtain ⟨hv, hl⟩ := of_decide_eq_true hd
  have hlogin : AllSteps (fun _ a => isLogin a = true) tr :=
    allSteps_of_map (by rw [ha]; simp [bothLogIn, isLogin])
  exact ⟨tr, s, ha, hr, (session_cookie_resolves hr hlogin hv _).1 1 bobSession hl rfl⟩

end XbTunnel.Server.Cookies
