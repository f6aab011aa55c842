import XbTunnel.Server.Accounts

/-! What a token says about its bearer. Registration issues one and the same token to everybody. -/

namespace XbTunnel.Server.Tokens

open Common Lib.Effects Lib.Maps Lib.Runs Logins Accounts

variable (B : Bcrypt) (C : String → String) (makeLocalState : State → LocalState)

def withToken (db : Db) (token : Token) : List User :=
  (db.users (C "xbtusers")).filter fun u => u.token = token

def tokenEnv (db : Db) (token : Token) (pick : ℕ) : Env where
  users := (one pick (withToken C db token)).toOption.toList
  makeLocalState := makeLocalState

def Presents (w : Backend) (user : User) (found : Option SessionId) : Prop :=
  ∃ pick order t, Visits w.server.ss order ∧
    getSessionByToken (tokenEnv C makeLocalState w.db user.token pick) user.token order w.server =
      .ok found t

def Binds (db : Db) (s : State) (user : User) (c : ConnId) (sid : SessionId) (t : State) : Prop :=
  ∃ pick order, Visits s.ss order ∧
    selectSession (tokenEnv C makeLocalState db user.token pick) c (some user.token) order s =
      .ok () t ∧ (t.conns c).s = some sid

structure TokensIdentify (w : Backend) : Prop where
  own : ∀ r ∈ w.registered, ∀ sid, Presents C makeLocalState w r.user (some sid) →
    HasSession w.server r.user.id sid
  missing : ∀ r ∈ w.registered, Presents C makeLocalState w r.user none →
    ∀ sid, ¬ HasSession w.server r.user.id sid
  apart : ∀ r ∈ w.registered, ∀ r' ∈ w.registered, r.user.id ≠ r'.user.id →
    ∀ c c' sid sid' t t', Binds C makeLocalState w.db w.server r.user c sid t →
      Binds C makeLocalState w.db t r'.user c' sid' t' → sid ≠ sid'

def StaysSingle (w : Backend) : Call → Prop
  | .register _ p salt inserted => w.server.ss = ∅ ∨ w.registered = [] ∨
      (∀ hash, B.generateFromPassword salt p ≠ .ok hash) ∨ ∀ id, inserted ≠ .ok id
  | .login n p pick _ _ => w.registered.length ≤ 1 ∨ ∀ user, ¬ Admits B C w.db n p pick user

structure Base (w : Backend) : Prop where
  server : w.server = { init with ss := w.server.ss }
  kept : ∀ r ∈ w.registered, r.user ∈ w.db.users (C "Users")
  stored : C "Users" = C "xbtusers" → w.db.users (C "xbtusers") = w.registered.map (·.user)
  separate : C "Users" ≠ C "xbtusers" → w.db.users (C "xbtusers") = []
  issued : ∀ r ∈ w.registered, r.user.token = issuedToken
  nodup : (w.registered.map (·.user.id)).Nodup
  owned : ∀ pid sid, HasSession w.server pid sid → ∃ user ∈ w.db.users (C "xbtusers"), user.id = pid

structure Single (w : Backend) : Prop extends Base C w where
  few : w.server.ss = ∅ ∨ w.registered.length ≤ 1

variable {B C makeLocalState} {w w' : Backend} {s : State}

lemma mem_withToken {db : Db} {token : Token} {doc : User} :
    doc ∈ withToken C db token ↔ doc ∈ db.users (C "xbtusers") ∧ doc.token = token := by
  rw [withToken, List.mem_filter, decide_eq_true_eq]

lemma hasSession_unique {pid pid' : PeerId} {sid : SessionId} (h : HasSession s pid sid)
    (h' : HasSession s pid' sid) : pid = pid' := by
  obtain ⟨se, hse, rfl⟩ := h
  obtain ⟨se', hse', rfl⟩ := h'
  obtain rfl := Option.some.inj (hse.symm.trans hse')
  rfl

lemma getSessionByToken_eq {db : Db} {token : Token} {pick : ℕ} {doc : User}
    (ho : one pick (withToken C db token) = .ok doc) (order : List SessionId) :
    getSessionByToken (tokenEnv C makeLocalState db token pick) token order =
      getSessionByPeerId doc.id order := by
  have ht : doc.token = token := by simpa using (List.mem_filter.mp (one_eq_ok ho)).2
  have htest : ofToken (tokenEnv C makeLocalState db token pick).users token =
      ofPeerId doc.id := by
    funext se
    simp only [tokenEnv, ho, ofToken, ofPeerId]
    simp [Except.toOption, ht]
  rw [getSessionByToken, htest, getSessionByPeerId]

lemma Presents.exists_doc {user : User} {sid : SessionId} (hs : SessionsReadable w.server)
    (h : Presents C makeLocalState w user (some sid)) :
    ∃ doc ∈ withToken C w.db user.token, HasSession w.server doc.id sid := by
  obtain ⟨pick, order, t, -, hf⟩ := h
  obtain ⟨-, -, hfind⟩ := (findSession_ensures _ order hs).of_ok hf
  cases ho : one pick (withToken C w.db user.token) with
  | ok doc =>
    rw [getSessionByToken_eq ho, getSessionByPeerId_eq hs] at hf
    split at hf
    · obtain ⟨hsid, -⟩ := Outcome.ok.inj hf
      exact ⟨doc, one_eq_ok ho, passes_iff_hasSession.mp (List.find?_some hsid)⟩
    · cases hf
  | error err =>
    obtain ⟨se, -, ht⟩ := passes_iff.mp (List.find?_some hfind.symm)
    simp only [tokenEnv, ho, ofToken] at ht
    cases ht

namespace Base

lemma readable (h : Base C w) : SessionsReadable w.server :=
  h.server ▸ fun _ => RWMutex.free_readable

lemma ssLock (h : Base C w) : w.server.ssLock = .free := h.server ▸ rfl

lemma mem_registered (h : Base C w) {user : User} (hu : user ∈ w.db.users (C "xbtusers")) :
    C "Users" = C "xbtusers" ∧ ∃ r ∈ w.registered, r.user = user := by
  by_cases hc : C "Users" = C "xbtusers"
  · rw [h.stored hc] at hu
    exact ⟨hc, List.mem_map.mp hu⟩
  · rw [h.separate hc] at hu
    cases hu

lemma register {n p salt : Bytes} {inserted : Except String PeerId} (h : Base C w)
    (hs : Accounts.step B C w (.register n p salt inserted) = some w') : Base C w' := by
  simp only [Accounts.step, Option.ite_none_right_eq_some, Option.some.injEq] at hs
  obtain ⟨hf, rfl⟩ := hs
  obtain ⟨id, hash, -, rfl, he⟩ | ⟨-, err, he⟩ := register_cases (B := B) (C := C)
    n p salt inserted w.db
  · rw [he]
    have hnew : id ∉ w.registered.map (·.user.id) := by
      intro hm
      obtain ⟨r, hr, rfl⟩ := List.mem_map.mp hm
      exact hf.2 r.user (h.kept r hr) rfl
    constructor
    · exact h.server
    · intro r hr
      simp only [record, List.mem_append, List.mem_singleton] at hr
      rw [insertUser_users_self, List.mem_append, List.mem_singleton]
      rcases hr with hr | rfl
      · exact .inl (h.kept r hr)
      · exact .inr rfl
    · intro hc
      simp only [← hc, insertUser_users_self, List.map_append]
      rw [hc, h.stored hc]
      rfl
    · intro hc
      exact (insertUser_users_of_ne hc.symm _ _).trans (h.separate hc)
    · intro r hr
      simp only [record, List.mem_append, List.mem_singleton] at hr
      rcases hr with hr | rfl
      · exact h.issued r hr
      · rfl
    · rw [List.map_append]
      exact h.nodup.append (List.nodup_singleton _) (List.disjoint_singleton.mpr hnew)
    · intro pid sid hp
      obtain ⟨user, hu, rfl⟩ := h.owned pid sid hp
      refine ⟨user, ?_, rfl⟩
      obtain ⟨hc, -⟩ := h.mem_registered hu
      rw [← hc] at hu ⊢
      rw [insertUser_users_self]
      exact List.mem_append_left _ hu
  · have hrec : record n p inserted (.error err) = [] := by cases inserted <;> rfl
    simp only [he, hrec, List.append_nil]
    exact h

lemma login_cases {n p : Bytes} {pick : ℕ} {order : List SessionId} {sid : SessionId}
    (h : Base C w) (hs : Accounts.step B C w (.login n p pick order sid) = some w') :
    (∀ user, ¬ Admits B C w.db n p pick user) ∧ w' = w ∨
    ∃ user r, Admits B C w.db n p pick user ∧ HasSession w'.server user.id r ∧
      (w' = w ∨ w' = { w with server := { w.server with
        ss := w.server.ss.insert sid (newSession user.id sid) } }) := by
  simp only [Accounts.step, Option.ite_none_right_eq_some, Option.some.injEq] at hs
  obtain ⟨-, rfl⟩ := hs
  by_cases ha : ∀ user, ¬ Admits B C w.db n p pick user
  · obtain ⟨err, he⟩ := login_refused order sid ha
    rw [he]
    exact .inl ⟨ha, rfl⟩
  · obtain ⟨user, ha⟩ := not_forall_not.mp ha
    obtain ⟨r, t, he, hr, ht⟩ := login_admitted h.readable h.ssLock order sid ha
    rw [he]
    refine .inr ⟨user, r, ha, hr, ?_⟩
    rcases ht with rfl | rfl
    · exact .inl rfl
    · exact .inr rfl

lemma login {n p : Bytes} {pick : ℕ} {order : List SessionId} {sid : SessionId} (h : Base C w)
    (hs : Accounts.step B C w (.login n p pick order sid) = some w') : Base C w' := by
  rcases h.login_cases hs with ⟨-, rfl⟩ | ⟨user, r, ha, -, rfl | rfl⟩
  · exact h
  · exact h
  · refine ⟨?_, h.kept, h.stored, h.separate, h.issued, h.nodup, ?_⟩
    · exact congrArg (fun s : State =>
        { s with ss := w.server.ss.insert sid (newSession user.id sid) }) h.server
    · rintro pid sid' ⟨se, hl, rfl⟩
      rcases lookup_insert_eq_some hl with ⟨-, rfl⟩ | hl
      · exact ⟨user, ha.mem, rfl⟩
      · exact h.owned _ sid' ⟨se, hl, rfl⟩

lemma presents (h : Base C w) (makeLocalState : State → LocalState) {user doc : User}
    (hd : doc ∈ withToken C w.db user.token) :
    ∃ found, Presents C makeLocalState w user found ∧
      (∀ sid, found = some sid → HasSession w.server doc.id sid) ∧
      (found = none → ∀ sid, ¬ HasSession w.server doc.id sid) := by
  obtain ⟨pick, hpick⟩ := one_surjective hd
  obtain ⟨order, hv⟩ := Visits.exists w.server.ss
  refine ⟨order.find? (passes (ofPeerId doc.id) w.server), ⟨pick, order, w.server, hv, ?_⟩,
    fun sid hf => passes_iff_hasSession.mp (List.find?_some hf), fun hf sid hsid => ?_⟩
  · rw [getSessionByToken_eq hpick, getSessionByPeerId_eq h.readable,
      if_pos (h.ssLock ▸ RWMutex.free_readable)]
  · have hn := (find_passes_eq_none hv).mp hf sid
    rw [passes_iff_hasSession.mpr hsid] at hn
    cases hn

lemma exists_other (h : Base C w) (hl : 1 < w.registered.length) (r : Registration) :
    ∃ r' ∈ w.registered, r'.user.id ≠ r.user.id := by
  by_contra hn
  push Not at hn
  have hrep := List.map_eq_replicate_iff.mpr hn
  exact absurd (List.nodup_replicate.mp (hrep ▸ h.nodup)) (Nat.not_le.mpr hl)

lemma not_tokensIdentify (h : Base C w) (hss : w.server.ss ≠ ∅) (hl : 1 < w.registered.length) :
    ¬ TokensIdentify C makeLocalState w := by
  intro hi
  obtain ⟨sid, se, hse⟩ : ∃ sid se, w.server.ss.lookup sid = some se := by
    by_contra hn
    push Not at hn
    exact hss (Finmap.ext_lookup fun sid => Option.eq_none_iff_forall_ne_some.mpr (hn sid))
  have hsid : HasSession w.server se.localState.userId sid := ⟨se, hse, rfl⟩
  obtain ⟨doc, hd, hid⟩ := h.owned _ sid hsid
  rw [← hid] at hsid
  obtain ⟨-, r, hr, rfl⟩ := h.mem_registered hd
  obtain ⟨r', hr', hne⟩ := h.exists_other hl r
  have ht : r.user ∈ withToken C w.db r'.user.token :=
    mem_withToken.mpr ⟨hd, (h.issued r hr).trans (h.issued r' hr').symm⟩
  obtain ⟨found, hp, hsome, hnone⟩ := h.presents makeLocalState ht
  cases found with
  | none => exact hnone rfl sid hsid
  | some sid' => exact hne (hasSession_unique (hi.own r' hr' sid' hp) (hsome sid' rfl))

end Base

lemma Single.mem_eq (h : Single C w) {pid : PeerId} {sid : SessionId}
    (hs : HasSession w.server pid sid) {r r' : Registration} (hr : r ∈ w.registered)
    (hr' : r' ∈ w.registered) : r = r' := by
  rcases h.few with hss | hl
  · obtain ⟨se, hse, -⟩ := hs
    simp [hss] at hse
  · obtain ⟨i, hi, rfl⟩ := List.getElem_of_mem hr
    obtain ⟨j, hj, rfl⟩ := List.getElem_of_mem hr'
    congr 1
    omega

lemma Single.tokensIdentify (h : Single C w) : TokensIdentify C makeLocalState w where
  own r hr sid hp := by
    obtain ⟨doc, hd, hs⟩ := hp.exists_doc h.readable
    obtain ⟨-, r', hr', rfl⟩ := h.mem_registered (mem_withToken.mp hd).1
    rwa [h.mem_eq hs hr hr']
  missing r hr hp sid hs := by
    obtain ⟨user, hu, hid⟩ := h.owned _ sid hs
    obtain ⟨-, r', hr', rfl⟩ := h.mem_registered hu
    obtain rfl := h.mem_eq hs hr hr'
    obtain ⟨pick, order, t, hv, hf⟩ := hp
    cases ho : one pick (withToken C w.db r.user.token) with
    | error err =>
      have hm : r.user ∈ withToken C w.db r.user.token := mem_withToken.mpr ⟨hu, rfl⟩
      rw [one_eq_error ho] at hm
      cases hm
    | ok doc =>
      obtain ⟨-, r', hr', rfl⟩ := h.mem_registered (mem_withToken.mp (one_eq_ok ho)).1
      obtain rfl := h.mem_eq hs hr hr'
      rw [getSessionByToken_eq ho, getSessionByPeerId_eq h.readable] at hf
      split at hf
      · obtain ⟨hnone, -⟩ := Outcome.ok.inj hf
        have hn := (find_passes_eq_none hv).mp hnone sid
        rw [passes_iff_hasSession.mpr hs] at hn
        cases hn
      · cases hf
  apart r hr r' hr' hne c c' sid sid' t t' hb hb' := by
    obtain ⟨pick, order, -, hsel, -⟩ := hb
    rcases (selectSession_ensures _ c _ order h.readable).of_ok hsel with
      ⟨hn, -⟩ | ⟨-, tok, sid, -, hf, -⟩
    · cases hn
    · obtain ⟨se, hse, -⟩ := passes_iff.mp (List.find?_some hf)
      obtain rfl := h.mem_eq ⟨se, hse, rfl⟩ hr hr'
      exact absurd rfl hne

lemma tokensIdentify_iff (h : Base C w) :
    TokensIdentify C makeLocalState w ↔ w.server.ss = ∅ ∨ w.registered.length ≤ 1 := by
  refine ⟨fun hi => ?_, fun hf => Single.tokensIdentify ⟨h, hf⟩⟩
  by_contra hn
  push Not at hn
  exact h.not_tokensIdentify hn.1 hn.2 hi

lemma Base.step {a : Call} (h : Base C w) (hs : Accounts.step B C w a = some w') : Base C w' := by
  cases a with
  | register => exact h.register hs
  | login => exact h.login hs

lemma base_start (db : Db) : Base C (start C db) where
  server := rfl
  kept r hr := by cases hr
  stored _ := initMgo_xbtusers db
  separate _ := initMgo_xbtusers db
  issued r hr := by cases hr
  nodup := List.nodup_nil
  owned pid sid h := by
    obtain ⟨se, hse, -⟩ := h
    simp [start, init] at hse

lemma few_step_iff {a : Call} (h : Single C w) (hs : Accounts.step B C w a = some w') :
    w'.server.ss = ∅ ∨ w'.registered.length ≤ 1 ↔ StaysSingle B C w a := by
  cases a with
  | register n p salt inserted =>
    simp only [Accounts.step, Option.ite_none_right_eq_some, Option.some.injEq] at hs
    obtain ⟨-, rfl⟩ := hs
    obtain ⟨id, hash, hg, rfl, he⟩ | ⟨hfail, err, he⟩ := register_cases (B := B) (C := C)
      n p salt inserted w.db
    · simp [he, record, StaysSingle, hg]
    · have hrec : record n p inserted (.error err) = [] := by cases inserted <;> rfl
      simp only [he, hrec, List.append_nil, StaysSingle, hfail, or_true, iff_true]
      exact h.few
  | login n p pick order sid =>
    rcases h.login_cases hs with ⟨hn, rfl⟩ | ⟨user, r, ha, hr, hw⟩
    · exact ⟨fun _ => .inr hn, fun _ => h.few⟩
    · have hreg : w'.registered = w.registered := by rcases hw with rfl | rfl <;> rfl
      have hss : w'.server.ss ≠ ∅ := by
        obtain ⟨se, hse, -⟩ := hr
        intro hss
        simp [hss] at hse
      simp only [hss, false_or, hreg, StaysSingle]
      exact ⟨.inl, fun hl => hl.resolve_right fun hn => hn user ha⟩

theorem tokens_identify_iff (db : Db) {tr : List (Backend × Call)} {u : Backend}
    (h : Run (Steps (Accounts.step B C)) (start C db) tr u) :
    AllStates (TokensIdentify C makeLocalState) tr u ↔ AllSteps (StaysSingle B C) tr :=
  h.all_states_iff (Single C) (fun _ => Single.tokensIdentify)
    (fun _ _ _ hi hs ha => ⟨hi.step hs, (few_step_iff hi hs).mpr ha⟩)
    (fun _ _ _ hi hs ha hp =>
      ha ((few_step_iff hi hs).mp ((tokensIdentify_iff (hi.step hs)).mp hp)))
    ⟨base_start db, .inl rfl⟩

section Samples

def bobRegisters : Call := .register bob.nickname [0x71] sampleSalt (.ok bob.id)

def alone (w : Backend) : Call → Bool
  | .register .. => w.registered.isEmpty
  | .login .. => decide (w.registered.length ≤ 1)

lemma staysSingle_of_alone {a : Call} (h : alone w a = true) : StaysSingle B C w a := by
  cases a with
  | register => exact .inr (.inl (List.isEmpty_iff.mp h))
  | login => exact .inl (of_decide_eq_true h)

theorem aliceAlone_identified : ∃ tr u,
    tr.map Prod.snd = [aliceRegisters, aliceLogsIn [] aliceSession] ∧
    Run (Steps (Accounts.step sampleBcrypt oneCollection)) (start oneCollection emptyDb) tr u ∧
    AllStates (TokensIdentify oneCollection fun _ => LocalState.zero) tr u := by
  obtain ⟨tr, u, ha, hr, hs⟩ := follow_run (Accounts.step sampleBcrypt oneCollection)
    alone (fun _ _ => staysSingle_of_alone) (start oneCollection emptyDb)
    [aliceRegisters, aliceLogsIn [] aliceSession] rfl
  exact ⟨tr, u, ha, hr, (tokens_identify_iff emptyDb hr).mpr hs⟩

theorem bobIsAlice : ∃ tr u,
    tr.map Prod.snd = [aliceRegisters, bobRegisters, aliceLogsIn [] aliceSession] ∧
    Run (Steps (Accounts.step sampleBcrypt oneCollection)) (start oneCollection emptyDb) tr u ∧
    ¬ TokensIdentify oneCollection (fun _ => LocalState.zero) u := by
  have hend : (exec (Accounts.step sampleBcrypt oneCollection) (start oneCollection emptyDb)
      [aliceRegisters, bobRegisters, aliceLogsIn [] aliceSession]).any (fun u =>
        decide (aliceSession ∈ u.server.ss ∧ 1 < u.registered.length)) = true := rfl
  obtain ⟨tr, u, ha, hr, hd⟩ := exec_any _ hend
  obtain ⟨hm, hl⟩ := of_decide_eq_true hd
  have hb : Base oneCollection u := hr.invariant_last (fun _ _ _ => Base.step) (base_start emptyDb)
  refine ⟨tr, u, ha, hr, hb.not_tokensIdentify (fun hss => ?_) hl⟩
  rw [hss] at hm
  exact Finmap.notMem_empty hm

end Samples

end XbTunnel.Server.Tokens
