import Mathlib.Data.Fintype.EquivFin
import XbTunnel.Server.Invariant

/-! Concurrent logins. The search for a user's session and the creation of one are two steps. -/

namespace XbTunnel.Server.Logins

open Common Lib.Effects Lib.Maps Lib.Runs

variable {env : Env} {s t : State} {a : Action} {pid : PeerId} {sid sid' : SessionId}

def HasSession (s : State) (pid : PeerId) (sid : SessionId) : Prop :=
  ∃ se, s.ss.lookup sid = some se ∧ se.localState.userId = pid

structure SharedSessions (s : State) : Prop where
  unique : ∀ pid sid sid', HasSession s pid sid → HasSession s pid sid' → sid = sid'
  search : ∀ pid order order', Visits s.ss order → Visits s.ss order' →
    getSessionByPeerId pid order s = getSessionByPeerId pid order' s

def Completes (env : Env) (s : State) (a : Action) (t : State) : Prop :=
  step env s a = some t ∧ ∃ l sid, a = .loginCreate l sid

def StaysShared (env : Env) (s : State) : Prop :=
  ∀ tr t, Run (Completes env) s tr t → AllStates SharedSessions tr t

/-- Unless a lost read lock keeps any session from being created, a login searches the store only
while no other login of the user is between its two steps. -/
def TakesTurns (s : State) : Action → Prop
  | .loginCheck _ pid _ => s.ssLock.readers = 0 → ∀ l, s.logins l ≠ .missed pid
  | _ => True

structure Inv (env : Env) (s : State) : Prop where
  sound : Sound env s
  unique : ∀ pid sid sid', HasSession s pid sid → HasSession s pid sid' → sid = sid'
  pending : s.ssLock.readers = 0 → ∀ l l' pid, s.logins l = .missed pid →
    s.logins l' = .missed pid → l = l'
  missing : s.ssLock.readers = 0 → ∀ l pid, s.logins l = .missed pid → ∀ sid, ¬ HasSession s pid sid

lemma passes_iff_hasSession : passes (ofPeerId pid) s sid = true ↔ HasSession s pid sid :=
  passes_ofPeerId

lemma find_session_eq (hu : ∀ sid sid', HasSession s pid sid → HasSession s pid sid' → sid = sid')
    {order order' : List SessionId} (hv : Visits s.ss order) (hv' : Visits s.ss order') :
    order.find? (passes (ofPeerId pid) s) = order'.find? (passes (ofPeerId pid) s) := by
  cases h : order.find? (passes (ofPeerId pid) s) with
  | none =>
    rw [find_passes_eq_none hv] at h
    exact ((find_passes_eq_none hv').mpr h).symm
  | some sid =>
    have hsid := passes_iff_hasSession.mp (List.find?_some h)
    cases h' : order'.find? (passes (ofPeerId pid) s) with
    | none =>
      have hn := (find_passes_eq_none hv').mp h' sid
      rw [passes_iff_hasSession.mpr hsid] at hn
      cases hn
    | some sid' => rw [hu sid sid' hsid (passes_iff_hasSession.mp (List.find?_some h'))]

lemma getSessionByPeerId_eq (hs : SessionsReadable s) (pid : PeerId) (order : List SessionId) :
    getSessionByPeerId pid order s = if s.ssLock.Readable then
      .ok (order.find? (passes (ofPeerId pid) s)) s else .hang s := by
  have h := findSession_ensures (ofPeerId pid) order hs
  rw [getSessionByPeerId]
  cases hf : findSession (ofPeerId pid) order s with
  | ok r t =>
    obtain ⟨rfl, hr, rfl⟩ := h.of_ok hf
    rw [if_pos hr]
  | panic t => exact absurd (h.of_panic hf).2.2 (ofPeerId_not_fails pid s)
  | hang t =>
    obtain ⟨rfl, hr⟩ := h.of_hang hf
    rw [if_neg hr]

lemma Inv.sharedSessions (h : Inv env s) : SharedSessions s where
  unique := h.unique
  search pid order order' hv hv' := by
    rw [getSessionByPeerId_eq h.sound.readable, getSessionByPeerId_eq h.sound.readable,
      find_session_eq (h.unique pid) hv hv']

lemma inv_init (env : Env) : Inv env init where
  sound := sound_init env
  unique pid sid sid' h := by
    obtain ⟨se, hl, -⟩ := h
    simp [init] at hl
  pending _ l l' pid h := by simp [init] at h
  missing _ l pid h := by simp [init] at h

lemma hasSession_iff_of_users
    (hu : ∀ sid, (t.ss.lookup sid).map (·.localState.userId) =
      (s.ss.lookup sid).map (·.localState.userId)) :
    HasSession t pid sid ↔ HasSession s pid sid := by
  have h : ∀ u : State, HasSession u pid sid ↔
      (u.ss.lookup sid).map (·.localState.userId) = some pid :=
    fun u => Option.map_eq_some_iff.symm
  rw [h, h, hu]

lemma Inv.of_users (h : Inv env s) (hsound : Sound env t) (hl : t.logins = s.logins)
    (hu : ∀ sid, (t.ss.lookup sid).map (·.localState.userId) =
      (s.ss.lookup sid).map (·.localState.userId))
    (hr : t.ssLock.readers = 0 → s.ssLock.readers = 0) : Inv env t where
  sound := hsound
  unique pid sid sid' h₁ h₂ :=
    h.unique pid sid sid' ((hasSession_iff_of_users hu).mp h₁) ((hasSession_iff_of_users hu).mp h₂)
  pending h0 l l' pid h₁ h₂ := h.pending (hr h0) l l' pid (hl ▸ h₁) (hl ▸ h₂)
  missing h0 l pid h₁ sid h₂ :=
    h.missing (hr h0) l pid (hl ▸ h₁) sid ((hasSession_iff_of_users hu).mp h₂)

lemma Notified.readers {l : RWMutex} (h : Notified l t) (h0 : t.ssLock.readers = 0) :
    l.readers = 0 := by
  rcases h with h | ⟨h, -⟩
  · rw [← h, h0]
  · rw [h] at h0
    cases h0

lemma Inv.login_over (h : Inv env s) {l : LoginId} {login : Login}
    (hl : ∀ pid, login ≠ .missed pid) (hsound : Sound env (setLogin l login s)) :
    Inv env (setLogin l login s) := by
  have hm : ∀ {l' pid}, (setLogin l login s).logins l' = .missed pid →
      s.logins l' = .missed pid := by
    intro l' pid h'
    rcases setLogin_eq_iff.mp h' with ⟨-, h'⟩ | ⟨-, h'⟩
    · exact absurd h' (hl pid)
    · exact h'
  exact ⟨hsound, h.unique, fun h0 l₁ l₂ pid h₁ h₂ => h.pending h0 l₁ l₂ pid (hm h₁) (hm h₂),
    fun h0 l' pid h' => h.missing h0 l' pid (hm h')⟩

lemma hasSession_insert {new : PeerId} {s' : State}
    (hs : s'.ss = s.ss.insert sid' (newSession new sid')) (hf : sid' ∉ s.ss) :
    HasSession s' pid sid ↔ sid = sid' ∧ pid = new ∨ HasSession s pid sid := by
  rw [HasSession, HasSession, hs]
  by_cases he : sid = sid'
  · subst he
    simp [Finmap.lookup_insert, Finmap.lookup_eq_none.mpr hf, newSession, eq_comm]
  · simp [Finmap.lookup_insert_of_ne _ he, he]

lemma Inv.misses (h : Inv env s) {l : LoginId} (hsound : Sound env (setLogin l (.missed pid) s))
    (hn : ∀ sid, ¬ HasSession s pid sid)
    (ha : s.ssLock.readers = 0 → ∀ l, s.logins l ≠ .missed pid) :
    Inv env (setLogin l (.missed pid) s) where
  sound := hsound
  unique := h.unique
  pending h0 l₁ l₂ pid' h₁ h₂ := by
    rcases setLogin_eq_iff.mp h₁ with ⟨rfl, he₁⟩ | ⟨-, hm₁⟩ <;>
      rcases setLogin_eq_iff.mp h₂ with ⟨rfl, he₂⟩ | ⟨-, hm₂⟩
    · rfl
    · obtain rfl := Login.missed.inj he₁
      exact absurd hm₂ (ha h0 l₂)
    · obtain rfl := Login.missed.inj he₂
      exact absurd hm₁ (ha h0 l₁)
    · exact h.pending h0 l₁ l₂ pid' hm₁ hm₂
  missing h0 l' pid' h' sid := by
    rcases setLogin_eq_iff.mp h' with ⟨-, he⟩ | ⟨-, h'⟩
    · obtain rfl := Login.missed.inj he
      exact hn sid
    · exact h.missing h0 l' pid' h' sid

lemma Inv.creates (h : Inv env s) {l : LoginId} (hl : s.logins l = .missed pid)
    (hf : sid ∉ s.ss) (h0 : s.ssLock.readers = 0)
    (hsound : Sound env (setLogin l (.done sid)
      { s with ss := s.ss.insert sid (newSession pid sid) })) :
    Inv env (setLogin l (.done sid) { s with ss := s.ss.insert sid (newSession pid sid) }) := by
  have hsess : ∀ pid' sid', HasSession (setLogin l (.done sid)
      { s with ss := s.ss.insert sid (newSession pid sid) }) pid' sid' ↔
      sid' = sid ∧ pid' = pid ∨ HasSession s pid' sid' := fun _ _ => hasSession_insert rfl hf
  have hother : ∀ {l' pid'}, (setLogin l (.done sid)
      { s with ss := s.ss.insert sid (newSession pid sid) }).logins l' = .missed pid' →
      l' ≠ l ∧ s.logins l' = .missed pid' := by
    intro l' pid' h'
    exact (setLogin_eq_iff.mp h').resolve_left fun h' => by cases h'.2
  refine ⟨hsound, fun pid' sid₁ sid₂ h₁ h₂ => ?_, fun _ l₁ l₂ pid' h₁ h₂ => ?_,
    fun _ l' pid' h' sid' => ?_⟩
  · rw [hsess] at h₁ h₂
    rcases h₁ with ⟨rfl, rfl⟩ | h₁ <;> rcases h₂ with ⟨rfl, hp⟩ | h₂
    · rfl
    · exact absurd h₂ (h.missing h0 l _ hl sid₂)
    · exact absurd (hp ▸ h₁) (h.missing h0 l _ hl sid₁)
    · exact h.unique pid' sid₁ sid₂ h₁ h₂
  · exact h.pending h0 l₁ l₂ pid' (hother h₁).2 (hother h₂).2
  · obtain ⟨hne, hm⟩ := hother h'
    rw [hsess]
    rintro (⟨-, rfl⟩ | hold)
    · exact hne (h.pending h0 l' l _ hm hl)
    · exact h.missing h0 l' pid' hm sid' hold

lemma Inv.step (h : Inv env s) (hs : step env s a = some t) (ha : TakesTurns s a) : Inv env t := by
  have hsound := h.sound.step hs
  cases step_effect h.sound hs with
  | found => exact h.login_over nofun hsound
  | checkWaits => exact h.login_over nofun hsound
  | missed _ _ hn => exact h.misses hsound (fun sid ⟨se, hl, hu⟩ => hn sid se hl hu) ha
  | created hl hf hk => exact h.creates hl hf.1 hk.2 hsound
  | createWaits hk =>
    have hr : s.ssLock.readers ≠ 0 := fun h0 => hk ⟨h.sound.writer, h0⟩
    exact ⟨hsound, h.unique, fun h0 => absurd h0 hr, fun h0 => absurd h0 hr⟩
  | made _ hmade =>
    obtain ⟨r, -, hss, -⟩ := hmade.ss
    refine h.of_users hsound hmade.kept.logins (fun sid => ?_) (Notified.readers hmade.notified)
    rw [hss]
    exact map_lookup_setCurRoom _ sid r s (·.localState.userId) fun _ => rfl
  | moved _ hm =>
    exact h.of_users hsound hm.kept.logins (fun sid => by rw [hm.ss]) (Notified.readers hm.notified)
  | @selected c _ _ _ _ sid =>
    have hu := map_lookup_attach (·.localState.userId) (fun _ _ => rfl) c sid s
    rw [attach_eq] at hsound hu ⊢
    exact h.of_users hsound rfl hu id
  | @finished c =>
    have hu := map_lookup_detach (·.localState.userId) (fun _ _ => rfl) c s
    rw [detach_eq] at hsound hu ⊢
    exact h.of_users hsound rfl hu id
  | _ => exact h.of_users hsound rfl (fun _ => rfl) id

lemma Inv.staysShared (h : Inv env s) : StaysShared env s := by
  intro tr t hr
  have hstep : ∀ s a t, Inv env s → Completes env s a t → Inv env t := by
    rintro s _ t hi ⟨hs, l, sid, rfl⟩
    exact hi.step hs trivial
  have hinv := hr.invariant hstep h
  exact ⟨fun p hp => (hinv.1 p hp).sharedSessions, hinv.2.sharedSessions⟩

lemma exists_fresh (env : Env) (s : State) : ∃ oid, Fresh env s oid := by
  obtain ⟨oid, ho⟩ := Infinite.exists_notMem_finset (s.ss.keys.image SessionId.oid ∪
    s.rooms.keys.image RoomId.oid ∪ (env.users.map fun u => u.id.oid).toFinset)
  simp only [Finset.mem_union, Finset.mem_image, List.mem_toFinset, List.mem_map, not_or,
    Finmap.mem_keys] at ho
  exact ⟨oid, fun hm => ho.1.1 ⟨_, hm, rfl⟩, fun hm => ho.1.2 ⟨_, hm, rfl⟩,
    fun u hu he => ho.2 ⟨u, hu, he⟩⟩

lemma completes_create (sid : SessionId) {l : LoginId} (hs : Sound env s)
    (h0 : s.ssLock.readers = 0) (hl : s.logins l = .missed pid) (hf : Fresh env s sid.oid) :
    Completes env s (.loginCreate l sid)
      (setLogin l (.done sid) { s with ss := s.ss.insert sid (newSession pid sid) }) := by
  have hstep : step env s (.loginCreate l sid) = some (loginCreate l pid sid s) := by
    simp only [step, hl, if_pos hf]
  refine ⟨hstep.trans (congrArg some ?_), l, sid, rfl⟩
  have hc := createSession_ensures pid sid s
  rw [loginCreate]
  cases ho : createSession pid sid s with
  | ok r t =>
    obtain ⟨rfl, -, rfl⟩ := hc.of_ok ho
    rfl
  | panic t => exact (hc.of_panic ho).elim
  | hang t => exact absurd ⟨hs.writer, h0⟩ (hc.of_hang ho).1

lemma not_staysShared {l l' : LoginId} (hs : Sound env s) (h0 : s.ssLock.readers = 0)
    (hl : s.logins l = .missed pid) (hl' : s.logins l' = .missed pid) (hne : l ≠ l') :
    ¬ StaysShared env s := by
  obtain ⟨oid, hf⟩ := exists_fresh env s
  have hfirst := completes_create ⟨oid⟩ hs h0 hl hf
  have hs' := hs.step hfirst.1
  generalize ht : setLogin l (.done ⟨oid⟩)
    { s with ss := s.ss.insert ⟨oid⟩ (newSession pid ⟨oid⟩) } = t at hfirst hs'
  obtain ⟨oid', hf'⟩ := exists_fresh env t
  have hmiss : t.logins l' = .missed pid := by
    rw [← ht, setLogin_of_ne hne.symm]
    exact hl'
  have hsecond := completes_create ⟨oid'⟩ hs' (ht ▸ h0) hmiss hf'
  intro hshared
  have hu := (hshared _ _ (.cons hfirst (.cons hsecond .nil))).2.unique pid ⟨oid⟩ ⟨oid'⟩
  have hold : HasSession t pid ⟨oid⟩ := by
    rw [← ht]
    exact (hasSession_insert rfl hf.1).mpr (.inl ⟨rfl, rfl⟩)
  have heq := hu ((hasSession_insert rfl hf'.1).mpr (.inr hold))
    ((hasSession_insert rfl hf'.1).mpr (.inl ⟨rfl, rfl⟩))
  obtain ⟨se, hlookup, -⟩ := hold
  exact hf'.1 (heq ▸ Finmap.mem_of_lookup_eq_some hlookup)

lemma overlap_not_staysShared (h : Inv env s) (hs : step env s a = some t)
    (ha : ¬ TakesTurns s a) : ¬ StaysShared env t := by
  have hsound := h.sound.step hs
  have hread : s.ssLock.readers = 0 → s.ssLock.Readable := fun h0 =>
    ⟨h.sound.writer, Bool.eq_false_of_not_eq_true fun hw => h.sound.waiting hw h0⟩
  cases step_effect h.sound hs with
  | @found l pid order sid se hl hu =>
    simp only [TakesTurns, not_forall, not_not] at ha
    obtain ⟨h0, l', hl'⟩ := ha
    exact absurd ⟨se, hl, hu⟩ (h.missing h0 l' pid hl' sid)
  | checkWaits hr =>
    simp only [TakesTurns, not_forall] at ha
    exact absurd (hread ha.1) hr
  | @missed l pid order hi hr hn =>
    simp only [TakesTurns, not_forall, not_not] at ha
    obtain ⟨h0, l', hl'⟩ := ha
    have hne : l' ≠ l := by
      rintro rfl
      cases hi.symm.trans hl'
    exact not_staysShared hsound h0 setLogin_self ((setLogin_of_ne hne).trans hl') hne.symm
  | _ => exact absurd trivial ha

theorem stays_shared_iff {tr : List (State × Action)} {u : State}
    (h : Run (Steps (step env)) init tr u) :
    AllStates (StaysShared env) tr u ↔ AllSteps TakesTurns tr :=
  h.all_states_iff (Inv env) (fun _ => Inv.staysShared) (fun _ _ _ => Inv.step)
    (fun _ _ _ => overlap_not_staysShared) (inv_init env)

section Samples

def otherSession : SessionId := ⟨[13]⟩

def searched : State := loginCheck 0 alice.id [] init

def loggedIn : State := loginCreate 0 alice.id aliceSession searched

def twiceInTurn : List (State × Action) :=
  [(init, .loginCheck 0 alice.id []), (searched, .loginCreate 0 aliceSession),
    (loggedIn, .loginCheck 1 alice.id [aliceSession])]

theorem twiceInTurn_stays_shared :
    Run (Steps (step sampleEnv)) init twiceInTurn (loginCheck 1 alice.id [aliceSession] loggedIn) ∧
    AllStates (StaysShared sampleEnv) twiceInTurn
      (loginCheck 1 alice.id [aliceSession] loggedIn) := by
  have hr : Run (Steps (step sampleEnv)) init twiceInTurn
      (loginCheck 1 alice.id [aliceSession] loggedIn) := .cons rfl (.cons rfl (.cons rfl .nil))
  refine ⟨hr, (stays_shared_iff hr).mpr ?_⟩
  simp only [twiceInTurn, allSteps_cons, allSteps_nil, and_true]
  have hidle : Login.idle ≠ .missed alice.id := by decide
  have hdone : Login.done aliceSession ≠ .missed alice.id := by decide
  refine ⟨fun _ _ => hidle, trivial, fun _ l => ?_⟩
  change Function.update (Function.update init.logins 0 (.missed alice.id)) 0
    (.done aliceSession) l ≠ _
  by_cases hl : l = 0
  · rw [hl, Function.update_self]
    exact hdone
  · rw [Function.update_of_ne hl, Function.update_of_ne hl]
    exact hidle

def twiceAtOnce : List Action :=
  [.loginCheck 0 alice.id [], .loginCheck 1 alice.id [], .loginCreate 0 aliceSession,
    .loginCreate 1 otherSession]

theorem twiceAtOnce_makes_two : ∃ tr u, tr.map Prod.snd = twiceAtOnce ∧
    Run (Steps (step sampleEnv)) init tr u ∧ ¬ SharedSessions u := by
  have hend : (exec (step sampleEnv) init twiceAtOnce).any (fun u =>
      decide ((u.ss.lookup aliceSession).map (·.localState.userId) = some alice.id ∧
        (u.ss.lookup otherSession).map (·.localState.userId) = some alice.id)) = true := rfl
  obtain ⟨tr, u, ha, hr, hd⟩ := exec_any _ hend
  obtain ⟨h₁, h₂⟩ := of_decide_eq_true hd
  refine ⟨tr, u, ha, hr, fun h => ?_⟩
  have heq := h.unique alice.id aliceSession otherSession (Option.map_eq_some_iff.mp h₁)
    (Option.map_eq_some_iff.mp h₂)
  exact absurd heq (by decide)

end Samples

end XbTunnel.Server.Logins
