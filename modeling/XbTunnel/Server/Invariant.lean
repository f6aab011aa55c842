import XbTunnel.Server.Effect

/-! The basic invariant of the server, and the runs that start with an empty store. -/

namespace XbTunnel.Server

open Common Lib.Effects Lib.Maps Lib.Runs

variable {env : Env} {s t : State}

lemma sound_init (env : Env) : Sound env init where
  readable _ := RWMutex.free_readable
  keyed sid se h := by simp [init] at h
  apart sid h := absurd h Finmap.notMem_empty
  bound c sid h := by simp [init] at h
  closed _ _ := rfl
  writer := rfl
  waiting h := by simp [init, RWMutex.free] at h

lemma Sound.of_users {env' : Env} (hs : Sound env s)
    (hu : ∀ sid ∈ s.ss, ∀ u ∈ env'.users, u.id.oid ≠ sid.oid) : Sound env' s :=
  { hs with apart := hu }

lemma mem_iff_of_ids {m m' : Map SessionId Session}
    (h : ∀ sid, (m'.lookup sid).map Session.id = (m.lookup sid).map Session.id) (sid : SessionId) :
    sid ∈ m' ↔ sid ∈ m := by
  rw [← Finmap.lookup_isSome, ← Finmap.lookup_isSome, ← Option.isSome_map (f := Session.id), h,
    Option.isSome_map]

lemma Sound.of_ids (hs : Sound env s) (hk : t.sessionLock = s.sessionLock)
    (hid : ∀ sid, (t.ss.lookup sid).map Session.id = (s.ss.lookup sid).map Session.id)
    (hb : ∀ c sid, (t.conns c).s = some sid → sid ∈ s.ss)
    (hc : ∀ c, (t.conns c).phase = .closed → (t.conns c).s = none)
    (hl : t.ssLock = s.ssLock ∨ t.ssLock = leak s.ssLock) : Sound env t where
  readable sid := hk ▸ hs.readable sid
  keyed sid se h := by
    have hi := hid sid
    rw [h] at hi
    obtain ⟨se', h', he⟩ := Option.map_eq_some_iff.mp hi.symm
    rw [← he, hs.keyed sid se' h']
  apart sid h := hs.apart sid ((mem_iff_of_ids hid sid).mp h)
  bound c sid h := (mem_iff_of_ids hid sid).mpr (hb c sid h)
  closed := hc
  writer := by
    rcases hl with h | h <;> rw [h]
    · exact hs.writer
    · exact hs.writer
  waiting hw := by
    rcases hl with h | h <;> rw [h] at hw ⊢
    · exact hs.waiting hw
    · exact Nat.succ_ne_zero _

lemma lookup_attach (c : ConnId) (sid : SessionId) (s : State) (sid' : SessionId) :
    (attach c sid s).ss.lookup sid' =
      if sid' = sid then (s.ss.lookup sid).map fun se => { se with encoder := some c }
      else s.ss.lookup sid' := by
  rw [attach_eq]
  exact lookup_setEncoder sid sid' (some c) s

lemma map_lookup_attach {β : Type} (f : Session → β)
    (hf : ∀ se e, f { se with encoder := e } = f se) (c : ConnId) (sid : SessionId) (s : State)
    (sid' : SessionId) :
    ((attach c sid s).ss.lookup sid').map f = (s.ss.lookup sid').map f := by
  rw [attach_eq]
  exact map_lookup_setEncoder sid sid' (some c) s f hf

lemma detach_eq (c : ConnId) (s : State) : detach c s = { s with ss := (detach c s).ss } := by
  rw [detach]
  split
  · exact setEncoder_eq _ _ _ _ rfl
  · rfl

lemma lookup_detach (c : ConnId) (s : State) (sid : SessionId) : (detach c s).ss.lookup sid =
    if (s.conns c).s = some sid then (s.ss.lookup sid).map fun se => { se with encoder := none }
    else s.ss.lookup sid := by
  rw [detach]
  cases (s.conns c).s with
  | none => rfl
  | some sid' =>
    simp only [lookup_setEncoder, Option.some.injEq]
    by_cases h : sid = sid'
    · rw [if_pos h, if_pos h.symm, h]
    · rw [if_neg h, if_neg (Ne.symm h)]

lemma map_lookup_detach {β : Type} (f : Session → β)
    (hf : ∀ se e, f { se with encoder := e } = f se) (c : ConnId) (s : State) (sid : SessionId) :
    ((detach c s).ss.lookup sid).map f = (s.ss.lookup sid).map f := by
  rw [detach]
  cases (s.conns c).s with
  | none => rfl
  | some sid' => exact map_lookup_setEncoder sid' sid none s f hf

lemma Sound.setConn (hs : Sound env s) (c : ConnId) {conn : Conn}
    (hb : ∀ sid, conn.s = some sid → sid ∈ s.ss) (hc : conn.phase = .closed → conn.s = none) :
    Sound env (setConn c conn s) := by
  refine hs.of_ids rfl (fun _ => rfl) (fun c' sid h => ?_) (fun c' h => ?_) (.inl rfl)
  · by_cases he : c' = c
    · rw [he, setConn_conns_self] at h
      exact hb sid h
    · rw [setConn_conns_of_ne he] at h
      exact hs.bound c' sid h
  · by_cases he : c' = c
    · rw [he, setConn_conns_self] at h ⊢
      exact hc h
    · rw [setConn_conns_of_ne he] at h ⊢
      exact hs.closed c' h

lemma Sound.setPhase (hs : Sound env s) (c : ConnId) {phase : Phase} (hp : phase ≠ .closed) :
    Sound env (Server.setConn c { s.conns c with phase } s) :=
  hs.setConn c (hs.bound c) fun h => absurd h hp

lemma Sound.attach (hs : Sound env s) {c : ConnId} {sid : SessionId}
    (hp : (s.conns c).phase ≠ .closed) (hm : sid ∈ s.ss) : Sound env (attach c sid s) := by
  have he : Sound env { s with ss := (setEncoder sid (some c) s).ss } :=
    hs.of_ids rfl (map_lookup_setEncoder sid · (some c) s Session.id fun _ _ => rfl) hs.bound
      hs.closed (.inl rfl)
  rw [attach_eq]
  refine he.setConn c (fun sid' h => ?_) fun h => absurd h hp
  obtain rfl := Option.some.inj h
  exact (mem_setEncoder sid sid (some c) s).mpr hm

lemma Notified.cases {l : RWMutex} (h : Notified l t) : t.ssLock = l ∨ t.ssLock = leak l :=
  h.imp id And.left

lemma Sound.effect {a : Action} (hs : Sound env s) (h : Effect env s a t) : Sound env t := by
  cases h with
  | found hl hu => exact hs.of_ids rfl (fun _ => rfl) hs.bound hs.closed (.inl rfl)
  | missed hi hr hn => exact hs.of_ids rfl (fun _ => rfl) hs.bound hs.closed (.inl rfl)
  | checkWaits hr => exact hs.of_ids rfl (fun _ => rfl) hs.bound hs.closed (.inl rfl)
  | @created l pid sid hl hf hk =>
    refine ⟨hs.readable, fun sid' se h => ?_, fun sid' h => ?_, fun c sid' h => ?_, hs.closed,
      hs.writer, hs.waiting⟩
    · rcases lookup_insert_eq_some h with ⟨rfl, rfl⟩ | h
      · rfl
      · exact hs.keyed sid' se h
    · rcases Finmap.mem_insert.mp h with rfl | h
      · exact hf.2.2
      · exact hs.apart sid' h
    · exact Finmap.mem_insert.mpr (.inr (hs.bound c sid' h))
  | createWaits hk =>
    refine ⟨hs.readable, hs.keyed, hs.apart, hs.bound, hs.closed, hs.writer, fun _ hr => ?_⟩
    exact hk ⟨hs.writer, hr⟩
  | refused => exact hs
  | blocked => exact hs.of_ids rfl (fun _ => rfl) hs.bound hs.closed (.inl rfl)
  | made _ h =>
    obtain ⟨r, -, hss, -⟩ := h.ss
    refine hs.of_ids h.kept.sessionLock (fun sid => ?_) ?_ ?_ h.notified.cases
    · rw [hss]
      exact map_lookup_setCurRoom _ sid r s Session.id fun _ => rfl
    · exact h.kept.conns ▸ hs.bound
    · exact h.kept.conns ▸ hs.closed
  | stayed => exact hs
  | moved _ h =>
    refine hs.of_ids h.kept.sessionLock (fun sid => ?_) ?_ ?_ h.notified.cases
    · rw [h.ss]
    · exact h.kept.conns ▸ hs.bound
    · exact h.kept.conns ▸ hs.closed
  | connected => exact hs.setPhase _ nofun
  | waits => exact hs.setPhase _ nofun
  | served => exact hs.of_ids rfl (fun _ => rfl) hs.bound hs.closed (.inl rfl)
  | @selected c _ _ _ _ sid hp _ _ hf =>
    obtain ⟨se, hl, -⟩ := passes_iff.mp (List.find?_some hf)
    have ha := hs.attach (c := c) (fun h => nomatch hp.symm.trans h)
      (Finmap.mem_of_lookup_eq_some hl)
    exact ha.of_ids rfl (fun _ => rfl) ha.bound ha.closed (.inl rfl)
  | broke => exact hs.setPhase _ nofun
  | @finished c _ =>
    have hd := hs.of_ids (t := detach c s)
    rw [detach_eq] at hd ⊢
    have hids := map_lookup_detach Session.id (fun _ _ => rfl) c s
    exact (hd rfl hids hs.bound hs.closed (.inl rfl)).setPhase c nofun
  | ticked => exact hs.of_ids rfl (fun _ => rfl) hs.bound hs.closed (.inl rfl)

lemma Sound.step {a : Action} (hs : Sound env s) (h : step env s a = some t) : Sound env t :=
  hs.effect (step_effect hs h)

inductive SessionMoves (s : State) (a : Action) (sid : SessionId) : Session → Prop
  | stays {se} : s.ss.lookup sid = some se → SessionMoves s a sid se
  | created {pid} : SessionMoves s a sid (newSession pid sid)
  | entered {se r} : MakesRoom s sid a → s.ss.lookup sid = some se → SessionMoves s a sid
      { se with localState := { se.localState with curRoom := some r } }
  | attached {se c} : s.ss.lookup sid = some se →
      SessionMoves s a sid { se with encoder := some c }
  | detached {se c} : a = .finish c → (s.conns c).s = some sid → s.ss.lookup sid = some se →
      SessionMoves s a sid { se with encoder := none }

lemma step_session {a : Action} {sid : SessionId} {se : Session} (hs : Sound env s)
    (h : step env s a = some t) (hl : t.ss.lookup sid = some se) : SessionMoves s a sid se := by
  cases step_effect hs h with
  | created =>
    rcases lookup_insert_eq_some hl with ⟨rfl, rfl⟩ | hl
    · exact .created
    · exact .stays hl
  | made hm hmade =>
    obtain ⟨r, -, hss, -⟩ := hmade.ss
    rw [hss, lookup_setCurRoom] at hl
    split_ifs at hl with he
    · subst he
      obtain ⟨se', hse, rfl⟩ := Option.map_eq_some_iff.mp hl
      exact .entered hm hse
    · exact .stays hl
  | moved _ hm => exact .stays (hm.ss ▸ hl)
  | @selected c _ _ _ _ sid' =>
    have hl' := (lookup_attach c sid' s sid).symm.trans hl
    split_ifs at hl' with he
    · subst he
      obtain ⟨se', hse, rfl⟩ := Option.map_eq_some_iff.mp hl'
      exact .attached hse
    · exact .stays hl'
  | @finished c =>
    have hl' := (lookup_detach c s sid).symm.trans hl
    split_ifs at hl' with hc
    · obtain ⟨se', hse, rfl⟩ := Option.map_eq_some_iff.mp hl'
      exact .detached rfl hc hse
    · exact .stays hl'
  | _ => exact .stays hl

lemma setConn_unbound {c : ConnId} {conn : Conn} (hc : ∀ c, (s.conns c).s = none)
    (hn : conn.s = none) (c' : ConnId) : ((setConn c conn s).conns c').s = none := by
  by_cases he : c' = c
  · rw [he, setConn_conns_self]
    exact hn
  · rw [setConn_conns_of_ne he]
    exact hc c'

lemma Effect.unbound {a : Action} (h : Effect env s a t) (hu : ∀ c, (s.conns c).s = none)
    (hn : ∀ c req order token sid, a = .request c req order → req.token = some token →
      order.find? (passes (ofToken env.users token) s) ≠ some sid) (c : ConnId) :
    (t.conns c).s = none := by
  cases h with
  | made _ hm => exact hm.kept.conns ▸ hu c
  | moved _ hm => exact hm.kept.conns ▸ hu c
  | connected | waits | broke =>
    refine setConn_unbound hu ?_ c
    exact hu _
  | finished =>
    rw [detach_eq]
    refine setConn_unbound hu ?_ c
    exact hu _
  | selected _ _ ht hf => exact absurd hf (hn _ _ _ _ _ rfl ht)
  | _ => exact hu c

lemma sound_run {tr : List (State × Action)} (h : Run (Steps (step env)) init tr s) :
    Sound env s :=
  h.invariant_last (fun _ _ _ => Sound.step) (sound_init env)

section Samples

def alice : User := ⟨⟨[1]⟩, [0x61], [0x70], ⟨[0xa]⟩⟩

def bob : User := ⟨⟨[2]⟩, [0x62], [0x71], ⟨[0xb]⟩⟩

def sampleEnv : Env := ⟨[alice, bob], fun _ => LocalState.zero⟩

def aliceSession : SessionId := ⟨[11]⟩

def bobSession : SessionId := ⟨[12]⟩

def bothLogIn : List Action :=
  [.loginCheck 0 alice.id [], .loginCreate 0 aliceSession,
    .loginCheck 1 bob.id [aliceSession], .loginCreate 1 bobSession]

def gameRoom : RoomId := ⟨[21]⟩

def tokenReq (user : User) : ServerReq := { token := some user.token }

end Samples

end XbTunnel.Server
