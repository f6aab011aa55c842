import XbTunnel.Server.Api

/-! Who gets past the pages that ask for a session, and who is given a cookie. -/

namespace XbTunnel.Server.Api

open Common Lib.Effects Lib.Maps Lib.Runs Accounts Cookies Logins

variable {B : Bcrypt} {C : String → String} {makeLocalState : State → LocalState} {env : Env}
  {db : Db} {w w' : Web} {s t : State} {a : Server.Action} {pid : PeerId} {sid : SessionId}

def Earned (w : Web) (nickname password : Bytes) (pid : PeerId) : Prop :=
  ∃ r ∈ w.registered, Matches nickname password r ∧ r.user.id = pid

def Authenticated (w : Web) (sid : SessionId) : Prop :=
  ∃ l kind n p pid, w.calls l = .admitted kind n p pid ∧ Earned w n p pid ∧
    HasSession w.server pid sid

def Settled (w : Web) : Call → Prop
  | .admitted _ n p pid => Earned w n p pid
  | .answered _ r => r.cookie = none
  | .idle | .sent _ _ _ | .aborted => True

def Hashed (B : Bcrypt) (r : Registration) : Prop :=
  r.user.nickname = r.nickname ∧
    ∃ salt, B.generateFromPassword salt r.password = .ok r.user.password

inductive Fits (s : State) : Call → Login → Prop
  | idle {call} : Fits s call .idle
  | missed {kind n p pid} : Fits s (.admitted kind n p pid) (.missed pid)
  | done {kind n p pid sid} : HasSession s pid sid → Fits s (.admitted kind n p pid) (.done sid)
  | stuck {kind n p pid} : Fits s (.admitted kind n p pid) .stuck

variable (B C makeLocalState) in
structure Inv (w : Web) : Prop where
  sound : Sound (w.env C makeLocalState) w.server
  docs : ∀ u ∈ w.db.users (C "xbtusers"), ∃ r ∈ w.registered, r.user = u ∧ Hashed B r
  settled : ∀ l, Settled w (w.calls l)
  fits : ∀ l, Fits w.server (w.calls l) (w.server.logins l)
  sessions : ∀ pid sid, HasSession w.server pid sid →
    ∃ l kind n p, w.calls l = .admitted kind n p pid

lemma Settled.mono {call : Call} (h : Settled w call)
    (hr : ∀ r ∈ w.registered, r ∈ w'.registered) : Settled w' call := by
  cases call with
  | admitted kind n p pid =>
    obtain ⟨r, hm, hd⟩ := h
    exact ⟨r, hr r hm, hd⟩
  | answered kind r => exact h
  | idle | sent | aborted => trivial

lemma afterRegister_cases (n p : Bytes) (res : Except String User) :
    afterRegister n p res = .sent .register n p ∨
      afterRegister n p res = .answered .register denied := by
  cases res with
  | ok user => exact .inl rfl
  | error err => exact .inr rfl

lemma settled_afterRegister (w : Web) (n p : Bytes) (res : Except String User) :
    Settled w (afterRegister n p res) := by
  rcases afterRegister_cases n p res with he | he <;> rw [he]
  · trivial
  · rfl

lemma Fits.mono {call : Call} {login : Login} (h : Fits s call login)
    (hs : ∀ pid sid, HasSession s pid sid → HasSession t pid sid) : Fits t call login := by
  cases h with
  | idle => exact .idle
  | missed => exact .missed
  | done h => exact .done (hs _ _ h)
  | stuck => exact .stuck

lemma Fits.eq_idle {call : Call} {login : Login} (h : Fits s call login)
    (hn : ∀ kind n p pid, call ≠ .admitted kind n p pid) : login = .idle := by
  cases h with
  | idle => rfl
  | missed | done | stuck => exact absurd rfl (hn _ _ _ _)

lemma quiet_effect (h : Effect env s a t) (ha : isLogin a = false) :
    t.logins = s.logins ∧ ∀ pid sid, HasSession t pid sid ↔ HasSession s pid sid := by
  cases h with
  | found | missed | checkWaits | created | createWaits => cases ha
  | made _ h =>
    obtain ⟨r, -, hss, -⟩ := h.ss
    refine ⟨h.kept.logins, fun pid sid => hasSession_iff_of_users fun sid' => ?_⟩
    rw [hss]
    exact map_lookup_setCurRoom _ sid' r s (·.localState.userId) fun _ => rfl
  | moved _ h =>
    exact ⟨h.kept.logins, fun _ _ => hasSession_iff_of_users fun _ => by rw [h.ss]⟩
  | @selected c _ _ _ _ sid =>
    have hu := map_lookup_attach (·.localState.userId) (fun _ _ => rfl) c sid s
    rw [attach_eq] at hu ⊢
    exact ⟨rfl, fun _ _ => hasSession_iff_of_users hu⟩
  | @finished c =>
    have hu := map_lookup_detach (·.localState.userId) (fun _ _ => rfl) c s
    rw [detach_eq] at hu ⊢
    exact ⟨rfl, fun _ _ => hasSession_iff_of_users hu⟩
  | _ => exact ⟨rfl, fun _ _ => Iff.rfl⟩

lemma isLogin_eq_false (h : isTcp a = true) : isLogin a = false := by
  cases a <;> first | rfl | cases h

lemma inv_start (db : Db) : Inv B C makeLocalState (start C db) where
  sound := sound_init _
  docs u hu := by
    rw [start, initMgo_xbtusers] at hu
    cases hu
  settled l := trivial
  fits l := .idle
  sessions pid sid h := by
    obtain ⟨se, hl, -⟩ := h
    cases hl

lemma Inv.quiet (h : Inv B C makeLocalState w) (ha : isLogin a = false)
    (he : Effect (w.env C makeLocalState) w.server a t) :
    Inv B C makeLocalState { w with server := t } := by
  obtain ⟨hl, hs⟩ := quiet_effect he ha
  refine ⟨h.sound.effect he, h.docs, h.settled, fun l => ?_, fun pid sid hp => ?_⟩
  · rw [hl]
    exact (h.fits l).mono fun pid sid => (hs pid sid).mpr
  · exact h.sessions pid sid ((hs pid sid).mp hp)

lemma Inv.setCall (h : Inv B C makeLocalState w) {l : LoginId} {call : Call}
    (hl : ∀ kind n p pid, w.calls l ≠ .admitted kind n p pid)
    (hc : Settled w call) : Inv B C makeLocalState (setCall l call w) := by
  refine ⟨h.sound, h.docs, fun l' => ?_, fun l' => ?_, fun pid sid hp => ?_⟩
  · by_cases he : l' = l
    · rw [he, setCall_calls_self]
      exact hc
    · rw [setCall_calls_of_ne he]
      exact h.settled l'
  · by_cases he : l' = l
    · obtain rfl := he
      rw [show (Api.setCall l' call w).server.logins l' = .idle from (h.fits l').eq_idle hl]
      exact .idle
    · rw [setCall_calls_of_ne he]
      exact h.fits l'
  · obtain ⟨l', kind, n, p, ha⟩ := h.sessions pid sid hp
    refine ⟨l', kind, n, p, ?_⟩
    rw [setCall_calls_of_ne _ call w]
    · exact ha
    · rintro rfl
      exact hl kind n p pid ha

lemma Inv.registers (h : Inv B C makeLocalState w) (n p salt : Bytes)
    {inserted : Except String PeerId} (hu : Unused w.server inserted) : Inv B C makeLocalState { w with
      db := (register B C n p salt inserted w.db).1
      registered := w.registered ++
        record n p inserted (register B C n p salt inserted w.db).2 } := by
  refine ⟨h.sound.of_users fun sid hm u hmem => ?_, fun u hmem => ?_,
    fun l => (h.settled l).mono fun r hr => List.mem_append_left _ hr, h.fits, h.sessions⟩
  · rcases register_users hmem with hmem | rfl
    · exact h.sound.apart sid hm u hmem
    · intro he
      obtain rfl : (⟨u.id.oid⟩ : SessionId) = sid := congrArg SessionId.mk he
      exact hu.1 hm
  · obtain ⟨id, hash, hg, rfl, he⟩ | ⟨-, err, he⟩ :=
      register_cases (B := B) (C := C) n p salt inserted w.db
    · simp only [he] at hmem ⊢
      by_cases hc : C "xbtusers" = C "Users"
      · rw [hc, insertUser_users_self, List.mem_append, List.mem_singleton, ← hc] at hmem
        rcases hmem with hmem | rfl
        · obtain ⟨r, hr, hd⟩ := h.docs u hmem
          exact ⟨r, List.mem_append_left _ hr, hd⟩
        · exact ⟨_, List.mem_append_right _ (List.mem_singleton_self _), rfl, rfl, salt, hg⟩
      · rw [insertUser_users_of_ne hc] at hmem
        obtain ⟨r, hr, hd⟩ := h.docs u hmem
        exact ⟨r, List.mem_append_left _ hr, hd⟩
    · simp only [he] at hmem ⊢
      obtain ⟨r, hr, hd⟩ := h.docs u hmem
      exact ⟨r, List.mem_append_left _ hr, hd⟩

lemma findUser_cases (db : Db) (kind : Kind) (n p : Bytes) (pick : ℕ) :
    (∃ user, Admits B C db n p pick user ∧
      findUser B C db kind n p pick = .admitted kind n p user.id) ∨
    ∃ err, findUser B C db kind n p pick = .answered kind (failed kind err) ∧
      ∀ order sid, login B C db n p pick order sid = pure (.error err) := by
  simp only [findUser, login]
  cases ho : one pick ((db.users (C "xbtusers")).filter fun u => u.nickname = n) with
  | error err => exact .inr ⟨_, rfl, fun _ _ => rfl⟩
  | ok user =>
    by_cases hid : user.id = emptyPeerId
    · simp only [if_pos hid]
      exact .inr ⟨_, rfl, fun _ _ => rfl⟩
    · simp only [if_neg hid]
      cases hp : B.compareHashAndPassword user.password p with
      | false => exact .inr ⟨_, rfl, fun _ _ => rfl⟩
      | true => exact .inl ⟨user, ⟨ho, hid, hp⟩, rfl⟩

lemma Inv.admits (h : Inv B C makeLocalState w) {n p : Bytes} {pick : ℕ} {user : User}
    (ha : Admits B C w.db n p pick user) : Earned w n p user.id := by
  obtain ⟨r, hr, rfl, hn, salt, hg⟩ := h.docs user ha.mem
  refine ⟨r, hr, ⟨?_, ?_⟩, rfl⟩
  · have hm := one_eq_ok ha.found
    rw [← hn]
    exact of_decide_eq_true (List.mem_filter.mp hm).2
  · exact ((B.compare_iff salt r.password r.user.password hg p).mp ha.password).symm

lemma Inv.login (h : Inv B C makeLocalState w) {l : LoginId} {login : Login}
    (hsound : Sound (w.env C makeLocalState) t)
    (hl : t.logins = (setLogin l login w.server).logins) (hf : Fits t (w.calls l) login)
    (hold : ∀ pid sid, HasSession w.server pid sid → HasSession t pid sid)
    (hnew : ∀ pid sid, HasSession t pid sid → HasSession w.server pid sid ∨
      ∃ kind n p, w.calls l = .admitted kind n p pid) :
    Inv B C makeLocalState { w with server := t } := by
  refine ⟨hsound, h.docs, h.settled, fun l' => ?_, fun pid sid hp => ?_⟩
  · rw [hl]
    by_cases he : l' = l
    · rw [he, setLogin_self]
      exact hf
    · rw [setLogin_of_ne he]
      exact (h.fits l').mono hold
  · rcases hnew pid sid hp with hp | ⟨kind, n, p, hc⟩
    · exact h.sessions pid sid hp
    · exact ⟨l, kind, n, p, hc⟩

lemma Inv.checks (h : Inv B C makeLocalState w) {l : LoginId} {order : List SessionId}
    {kind : Kind} {n p : Bytes} (hc : w.calls l = .admitted kind n p pid)
    (he : Effect (w.env C makeLocalState) w.server (.loginCheck l pid order) t) :
    Inv B C makeLocalState { w with server := t } := by
  have hsound := h.sound.effect he
  cases he with
  | found hl hu => exact h.login hsound rfl (hc ▸ .done ⟨_, hl, hu⟩) (fun _ _ => id) fun _ _ => .inl
  | missed => exact h.login hsound rfl (hc ▸ .missed) (fun _ _ => id) fun _ _ => .inl
  | checkWaits => exact h.login hsound rfl (hc ▸ .stuck) (fun _ _ => id) fun _ _ => .inl

lemma Inv.creates (h : Inv B C makeLocalState w) {l : LoginId}
    (hm : w.server.logins l = .missed pid)
    (he : Effect (w.env C makeLocalState) w.server (.loginCreate l sid) t) :
    Inv B C makeLocalState { w with server := t } := by
  have hsound := h.sound.effect he
  obtain ⟨kind, n, p, hc⟩ : ∃ kind n p, w.calls l = .admitted kind n p pid := by
    have hf := h.fits l
    rw [hm] at hf
    generalize w.calls l = call at hf ⊢
    cases hf with
    | missed => exact ⟨_, _, _, rfl⟩
  cases he with
  | @created _ pid' _ hl hf _ =>
    obtain rfl := Login.missed.inj (hm.symm.trans hl)
    have hs : ∀ pid' sid', HasSession (setLogin l (.done sid) { w.server with
        ss := w.server.ss.insert sid (newSession pid sid) }) pid' sid' ↔
        sid' = sid ∧ pid' = pid ∨ HasSession w.server pid' sid' :=
      fun _ _ => hasSession_insert rfl hf.1
    refine h.login hsound rfl ?_ (fun _ _ hp => (hs _ _).mpr (.inr hp)) fun pid' sid' hp => ?_
    · rw [hc]
      exact .done ((hs _ _).mpr (.inl ⟨rfl, rfl⟩))
    · rcases (hs _ _).mp hp with ⟨-, rfl⟩ | hp
      · exact .inr ⟨kind, n, p, hc⟩
      · exact .inl hp
  | createWaits => exact h.login hsound rfl (hc ▸ .stuck) (fun _ _ => id) fun _ _ => .inl

lemma Inv.step {op : Op} (h : Inv B C makeLocalState w)
    (hs : step B C makeLocalState w op = some w') : Inv B C makeLocalState w' := by
  cases op with
  | tcp a =>
    obtain ⟨ha, hs⟩ := Option.ite_none_right_eq_some.mp hs
    obtain ⟨t, ht, rfl⟩ := Option.map_eq_some_iff.mp hs
    exact h.quiet (isLogin_eq_false ha) (step_effect h.sound ht)
  | register l n p salt inserted =>
    obtain ⟨⟨hi, -, hu⟩, hs⟩ := Option.ite_none_right_eq_some.mp hs
    have hn : ∀ kind n p pid, w.calls l ≠ .admitted kind n p pid := by simp [hi]
    split at hs
    · rename_i n p _
      obtain rfl := Option.some.inj hs
      exact (h.registers n p salt hu).setCall hn (settled_afterRegister ..)
    · obtain rfl := Option.some.inj hs
      exact h.setCall hn trivial
  | login l n p =>
    obtain ⟨hi, hs⟩ := Option.ite_none_right_eq_some.mp hs
    have hn : ∀ kind n p pid, w.calls l ≠ .admitted kind n p pid := by simp [hi]
    split at hs <;> obtain rfl := Option.some.inj hs
    · exact h.setCall hn trivial
    · exact h.setCall hn trivial
  | find l pick =>
    simp only [Api.step] at hs
    split at hs
    · rename_i kind n p hc
      obtain rfl := Option.some.inj hs
      refine h.setCall (by simp [hc]) ?_
      obtain ⟨user, ha, hf⟩ | ⟨err, hf, -⟩ :=
        findUser_cases (B := B) (C := C) w.db kind n p pick <;> rw [hf]
      · exact h.admits ha
      · cases kind <;> rfl
    · cases hs
  | check l order =>
    simp only [Api.step] at hs
    split at hs
    · rename_i hc
      obtain ⟨t, ht, rfl⟩ := Option.map_eq_some_iff.mp hs
      exact h.checks hc (step_effect h.sound ht)
    · cases hs
  | create l sid =>
    obtain ⟨t, ht, rfl⟩ := Option.map_eq_some_iff.mp hs
    have he := step_effect h.sound ht
    simp only [Server.step] at ht
    split at ht
    · rename_i hm
      exact h.creates hm he
    all_goals cases ht
  | visit page cookies ch =>
    obtain ⟨⟨hf, hv₁, hv₂, hv₃⟩, hs⟩ := Option.ite_none_right_eq_some.mp hs
    obtain rfl := Option.some.inj hs
    rcases visit_step C w.db cookies page h.sound hf hv₁ hv₂ hv₃ with he | ⟨a, ha, ht⟩
    · rw [he]
      exact h
    · exact h.quiet ha (step_effect h.sound ht)

inductive Advances : Call → Call → Prop
  | same {call} : Advances call call
  | begins {call} : Advances .idle call
  | admitted {kind n p pid} : Advances (.sent kind n p) (.admitted kind n p pid)
  | answered {kind n p r} : Advances (.sent kind n p) (.answered kind r)

structure Keeps (w w' : Web) : Prop where
  calls : ∀ l, Advances (w.calls l) (w'.calls l)
  registered : ∀ r ∈ w.registered, r ∈ w'.registered
  sessions : ∀ pid sid, HasSession w.server pid sid → HasSession w'.server pid sid

lemma setCall_advances {l : LoginId} {call : Call} (h : Advances (w.calls l) call) (l' : LoginId) :
    Advances (w.calls l') ((setCall l call w).calls l') := by
  by_cases he : l' = l
  · rw [he, setCall_calls_self]
    exact h
  · rw [setCall_calls_of_ne he]
    exact .same

lemma keeps_setCall {l : LoginId} {call : Call} (h : Advances (w.calls l) call) :
    Keeps w (setCall l call w) :=
  ⟨setCall_advances h, fun _ => id, fun _ _ => id⟩

lemma effect_keeps_sessions (h : Effect env s a t) (hs : HasSession s pid sid) :
    HasSession t pid sid := by
  cases ha : isLogin a with
  | false => exact ((quiet_effect h ha).2 pid sid).mpr hs
  | true =>
    cases h with
    | found | missed | checkWaits | createWaits => exact hs
    | created _ hf => exact (hasSession_insert rfl hf.1).mpr (.inr hs)
    | _ => cases ha

lemma keeps_server (h : Effect (w.env C makeLocalState) w.server a t) :
    Keeps w { w with server := t } :=
  ⟨fun _ => .same, fun _ => id, fun _ _ => effect_keeps_sessions h⟩

lemma step_keeps {op : Op} (h : Inv B C makeLocalState w)
    (hs : Api.step B C makeLocalState w op = some w') : Keeps w w' := by
  cases op with
  | tcp a =>
    obtain ⟨-, hs⟩ := Option.ite_none_right_eq_some.mp hs
    obtain ⟨t, ht, rfl⟩ := Option.map_eq_some_iff.mp hs
    exact keeps_server (step_effect h.sound ht)
  | register l n p salt inserted =>
    obtain ⟨⟨hi, -⟩, hs⟩ := Option.ite_none_right_eq_some.mp hs
    split at hs <;> obtain rfl := Option.some.inj hs
    · refine ⟨fun l' => ?_, fun r hr => List.mem_append_left _ hr, fun _ _ => id⟩
      exact setCall_advances (hi ▸ .begins) l'
    · exact keeps_setCall (hi ▸ .begins)
  | login l n p =>
    obtain ⟨hi, hs⟩ := Option.ite_none_right_eq_some.mp hs
    split at hs <;> obtain rfl := Option.some.inj hs
    · exact keeps_setCall (hi ▸ .begins)
    · exact keeps_setCall (hi ▸ .begins)
  | find l pick =>
    simp only [Api.step] at hs
    split at hs
    · rename_i kind n p hc
      obtain rfl := Option.some.inj hs
      apply keeps_setCall
      obtain ⟨user, -, hf⟩ | ⟨err, hf, -⟩ :=
        findUser_cases (B := B) (C := C) w.db kind n p pick <;> rw [hf, hc]
      · exact .admitted
      · exact .answered
    · cases hs
  | check l order =>
    simp only [Api.step] at hs
    split at hs
    · obtain ⟨t, ht, rfl⟩ := Option.map_eq_some_iff.mp hs
      exact keeps_server (step_effect h.sound ht)
    · cases hs
  | create l sid =>
    obtain ⟨t, ht, rfl⟩ := Option.map_eq_some_iff.mp hs
    exact keeps_server (step_effect h.sound ht)
  | visit page cookies ch =>
    obtain ⟨⟨hf, hv₁, hv₂, hv₃⟩, hs⟩ := Option.ite_none_right_eq_some.mp hs
    obtain rfl := Option.some.inj hs
    rcases visit_step C w.db cookies page h.sound hf hv₁ hv₂ hv₃ with he | ⟨a, -, ht⟩
    · rw [he]
      exact ⟨fun _ => .same, fun _ => id, fun _ _ => id⟩
    · exact keeps_server (step_effect h.sound ht)

lemma Inv.authenticated_iff (h : Inv B C makeLocalState w) :
    Authenticated w sid ↔ sid ∈ w.server.ss := by
  constructor
  · rintro ⟨_, _, _, _, _, -, -, se, hl, -⟩
    exact Finmap.mem_of_lookup_eq_some hl
  · intro hm
    obtain ⟨se, hl⟩ := Finmap.mem_iff.mp hm
    obtain ⟨l, kind, n, p, hc⟩ := h.sessions se.localState.userId sid ⟨se, hl, rfl⟩
    have hd := h.settled l
    rw [hc] at hd
    exact ⟨l, kind, n, p, _, hc, hd, se, hl, rfl⟩

def Served (r : Response) : Prop := r.status ≠ 403 ∧ r.cookie = none

variable (C db) in
/-- What a page answers to a session of the store, and how it leaves the server. Nobody is answered
by `/api/download`, whose user stays nil. -/
def Answers (s : State) (sid : SessionId) : Page → Response → State → Prop
  | .download, _, _ => False
  | .rooms .get _ _, r, t => r = { content := .rooms (listRooms C db) } ∧ t = s
  | .rooms .post name description, r, _ => name.isSome ∧ description.isSome ∧ r = {}
  | .rooms .other _ _, r, t => r = {} ∧ t = s
  | .status, r, t => (∃ se, s.ss.lookup sid = some se ∧ r = { content := .session se }) ∧ t = s
  | .changeroom roomId, r, t => if roomId ∈ s.rooms then r = {} else r = { status := 502 } ∧ t = s

def Panics (s : State) : Page → State → Prop
  | .download, t => t = s
  | .rooms .post name description, t => name.isSome ∧ description.isSome ∨ t = s
  | .rooms _ _ _, _ | .status, _ => False
  | .changeroom roomId, _ => roomId ∈ s.rooms

def Waits (s : State) : Page → State → Prop
  | .rooms .post (some _) (some _), _ => True
  | .changeroom roomId, t =>
    roomId ∈ s.rooms ∨ t = s ∧ ¬ (s.ssLock.Readable ∧ s.rmsLock.Readable)
  | _, t => t = s ∧ ¬ s.ssLock.Readable

variable (C makeLocalState) in
/-- Without the cookie of a session that somebody has opened with the nickname and the password of
a registration, a page is denied and changes nothing; with one it does what it is for. -/
def Guarded (w : Web) : Op → Prop
  | .visit page cookies ch =>
    ((∀ sid, Presents cookies sid → ¬ Authenticated w sid) →
      (visit C (w.env C makeLocalState) w.db page cookies ch).Ensures w.server
        (fun r t => r = denied ∧ t = w.server) (fun _ => False)
        fun t => t = w.server ∧ ¬ w.server.ssLock.Readable) ∧
    ∀ sid, Presents cookies sid → Authenticated w sid →
      (visit C (w.env C makeLocalState) w.db page cookies ch).Ensures w.server
        (Answers C w.db w.server sid page) (Panics w.server page) (Waits w.server page)
  | _ => True

lemma Answers.served {page : Page} {r : Response} (h : Answers C db s sid page r t) :
    Served r := by
  cases page with
  | download => exact h.elim
  | rooms method =>
    cases method with
    | get =>
      obtain ⟨rfl, -⟩ := h
      exact ⟨(by decide : 200 ≠ 403), rfl⟩
    | post =>
      obtain ⟨-, -, rfl⟩ := h
      exact ⟨by decide, rfl⟩
    | other =>
      obtain ⟨rfl, -⟩ := h
      exact ⟨by decide, rfl⟩
  | status =>
    obtain ⟨⟨se, -, rfl⟩, -⟩ := h
    exact ⟨(by decide : 200 ≠ 403), rfl⟩
  | changeroom roomId =>
    simp only [Answers] at h
    split at h
    · obtain rfl := h
      exact ⟨by decide, rfl⟩
    · obtain ⟨rfl, -⟩ := h
      exact ⟨by decide, rfl⟩

lemma waits_of_not_readable (page : Page) (h : ¬ s.ssLock.Readable) : Waits s page s := by
  cases page with
  | download | status => exact ⟨rfl, h⟩
  | rooms method name description =>
    cases method with
    | get | other => exact ⟨rfl, h⟩
    | post =>
      cases name with
      | none => exact ⟨rfl, h⟩
      | some name =>
        cases description with
        | none => exact ⟨rfl, h⟩
        | some desc => trivial
  | changeroom roomId => exact .inr ⟨rfl, fun hr => h hr.1⟩

lemma changeroomPage_ensures (roomId : RoomId) (order₂ order₃ : List SessionId)
    (hm : sid ∈ s.ss) : (changeroomPage env roomId order₂ order₃ sid).Ensures s
      (Answers C db s sid (.changeroom roomId)) (Panics s (.changeroom roomId))
      (Waits s (.changeroom roomId)) := by
  obtain ⟨se, hl⟩ := Finmap.mem_iff.mp hm
  rw [changeroomPage, Go.ensures_bind]
  refine (getRoom_ensures roomId s).mono ?_ (fun _ h => h.elim) ?_
  · rintro room t ⟨rfl, rfl⟩
    cases hr : t.rooms.lookup roomId with
    | none =>
      have hn : roomId ∉ t.rooms := Finmap.lookup_eq_none.mp hr
      change if roomId ∈ t.rooms then _ else _
      rw [if_neg hn]
      exact ⟨rfl, rfl⟩
    | some room =>
      have hroom : roomId ∈ t.rooms := Finmap.mem_of_lookup_eq_some hr
      rw [Go.ensures_bind, Go.ensures_get, hl, Go.ensures_bind]
      refine Go.ensures_of_forall (fun _ _ => ?_) (fun _ => hroom) fun _ => .inl hroom
      change if roomId ∈ t.rooms then _ else _
      rw [if_pos hroom]
  · rintro t ⟨rfl, hr⟩
    exact .inr ⟨rfl, fun h => hr h.2⟩

lemma servePage_ensures (page : Page) (ch : Choices) (hm : sid ∈ s.ss) :
    (servePage C env db page ch sid).Ensures s (Answers C db s sid page) (Panics s page)
      (Waits s page) := by
  obtain ⟨se, hl⟩ := Finmap.mem_iff.mp hm
  cases page with
  | download =>
    rw [servePage, downloadPage, Go.ensures_bind, Go.ensures_get, hl]
    rfl
  | rooms method name description =>
    cases method with
    | get | other => exact ⟨rfl, rfl⟩
    | post =>
      cases name with
      | none => exact .inr rfl
      | some name =>
        cases description with
        | none => exact .inr rfl
        | some desc =>
          rw [servePage, roomsPage, Go.ensures_bind]
          exact Go.ensures_of_forall (fun _ _ => ⟨rfl, rfl, rfl⟩) (fun _ => .inl ⟨rfl, rfl⟩)
            fun _ => trivial
  | status =>
    rw [servePage, statusPage, Go.ensures_bind, Go.ensures_get, hl]
    exact ⟨⟨se, hl, rfl⟩, rfl⟩
  | changeroom roomId => exact changeroomPage_ensures roomId ch.order₂ ch.order₃ hm

lemma Inv.guarded {op : Op} (h : Inv B C makeLocalState w)
    (hs : Api.step B C makeLocalState w op = some w') : Guarded C makeLocalState w op := by
  cases op with
  | visit page cookies ch =>
    obtain ⟨⟨-, hv₁, -, -⟩, -⟩ := Option.ite_none_right_eq_some.mp hs
    constructor
    · intro hn
      refine withSession_ensures h.sound hv₁ (fun _ => ⟨rfl, rfl⟩) (fun sid hp hm _ => ?_)
        fun hr => ⟨rfl, hr⟩
      exact absurd (h.authenticated_iff.mpr hm) (hn sid hp)
    · intro sid hp ha
      refine withSession_ensures h.sound hv₁ (fun hn => ?_) (fun sid' hp' hm _ => ?_)
        (waits_of_not_readable page)
      · exact absurd (h.authenticated_iff.mp ha) (hn sid hp)
      · obtain rfl := hp.inj hp'
        exact servePage_ensures page ch hm
  | _ => trivial

theorem pages_guarded (db : Db) {tr : List (Web × Op)} {u : Web}
    (h : Run (Steps (step B C makeLocalState)) (start C db) tr u) :
    AllSteps (Guarded C makeLocalState) tr :=
  h.all_steps (Inv B C makeLocalState) (fun _ _ _ => Inv.step) (fun _ _ _ => Inv.guarded)
    (inv_start db)

def CookieEarned (w : Web) : Prop := ∀ l r c, response w l = some r → r.cookie = some c →
  ∃ kind n p pid sid, w.calls l = .admitted kind n p pid ∧ c = Cookies.setSessionCookie sid ∧
    Earned w n p pid ∧ HasSession w.server pid sid

lemma Inv.cookieEarned (h : Inv B C makeLocalState w) : CookieEarned w := by
  intro l r c hr hc
  have hd := h.settled l
  have hf := h.fits l
  rw [response] at hr
  split at hr
  · rename_i kind r' hcall
    obtain rfl := Option.some.inj hr
    rw [hcall] at hd
    cases hc.symm.trans hd
  · rename_i kind n p pid sid hcall hl
    obtain rfl := Option.some.inj hr
    obtain rfl := Option.some.inj hc
    rw [hcall] at hd hf
    rw [hl] at hf
    cases hf with
    | done hf => exact ⟨kind, n, p, pid, sid, hcall, rfl, hd, hf⟩
  · cases hr

theorem cookies_earned (db : Db) {tr : List (Web × Op)} {u : Web}
    (h : Run (Steps (step B C makeLocalState)) (start C db) tr u) : AllStates CookieEarned tr u := by
  have hall : AllStates (Inv B C makeLocalState) tr u :=
    h.invariant (fun _ _ _ => Inv.step) (inv_start db)
  exact ⟨fun x hx => (hall.1 x hx).cookieEarned, hall.2.cookieEarned⟩

section Samples

theorem aliceEnters_guarded : ∃ tr u, tr.map Prod.snd = aliceEnters ∧
    Run (Steps (sampleSite oneCollection)) (start oneCollection emptyDb) tr u ∧
    AllSteps (Guarded oneCollection fun _ => LocalState.zero) tr := by
  have hend : (exec (sampleSite oneCollection) (start oneCollection emptyDb) aliceEnters).any
      (fun _ => true) = true := rfl
  obtain ⟨tr, u, ha, hr, -⟩ := exec_any _ hend
  exact ⟨tr, u, ha, hr, pages_guarded emptyDb hr⟩

theorem aliceEnters_earned : ∃ tr u, tr.map Prod.snd = aliceEnters ∧
    Run (Steps (sampleSite oneCollection)) (start oneCollection emptyDb) tr u ∧
    response u 0 = some { cookie := some (Cookies.setSessionCookie aliceSession) } ∧
    AllStates CookieEarned tr u := by
  have hend : (exec (sampleSite oneCollection) (start oneCollection emptyDb) aliceEnters).any
      (fun u => decide (response u 0 =
        some { cookie := some (Cookies.setSessionCookie aliceSession) })) = true := rfl
  obtain ⟨tr, u, ha, hr, hd⟩ := exec_any _ hend
  exact ⟨tr, u, ha, hr, of_decide_eq_true hd, cookies_earned emptyDb hr⟩

end Samples

end XbTunnel.Server.Api
