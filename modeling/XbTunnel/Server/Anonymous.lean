import XbTunnel.Server.Growth

/-! The server as long as no connection says who it is. -/

namespace XbTunnel.Server.Anonymous

open Common Lib.Effects Lib.Maps Lib.Runs

def WithoutToken : Action → Prop
  | .request _ req _ => req.token = none
  | _ => True

instance : DecidablePred WithoutToken
  | .request _ _ _ => inferInstanceAs (Decidable (_ = _))
  | .loginCheck _ _ _ | .loginCreate _ _ | .postRooms _ _ _ _ _ _ | .changeroom _ _ _ _ _
  | .connect _ | .decodeError _ | .finish _ | .tick _ => .isTrue trivial

structure Deaf (env : Env) (s : State) : Prop where
  sound : Sound env s
  encoder : ∀ sid se, s.ss.lookup sid = some se → se.encoder = none
  conn : ∀ c, (s.conns c).s = none
  sent : ∀ m ∈ s.sent, m.2 = {}
  rooms : s.rooms ≠ ∅ → s.ssLock.readers ≠ 0

variable {env : Env} {s t : State} {a : Action}

lemma deaf_init (env : Env) : Deaf env init :=
  ⟨sound_init env, nofun, fun _ => rfl, nofun, fun h => absurd rfl h⟩

section Rooms

variable {sid : SessionId} {order : List SessionId}

lemma makeAndChangeRoom_panics (he : ∀ sid se, s.ss.lookup sid = some se → se.encoder = none)
    (hm : sid ∈ s.ss) (hr : s.ssLock.Readable) (name desc : String) (id : RoomId)
    (hv : Visits s.ss order) : (makeAndChangeRoom env sid name desc id order).Ensures s
      (fun _ _ => False) (fun t => t.ssLock = leak s.ssLock)
      (fun t => t.rooms = s.rooms ∧ t.ssLock = s.ssLock) := by
  rw [makeAndChangeRoom, Go.ensures_bind]
  refine (newRoom_ensures name desc id s).mono ?_ (fun _ h => h.elim) ?_
  · rintro r _ ⟨hid, -, -, rfl⟩
    obtain rfl : r.id = id := congrArg Room.id hid
    rw [Go.ensures_bind, Go.ensures_modify, setCurRoom_eq sid r s]
    · have hmute : ∃ se, (setCurRoom sid r s).ss.lookup sid = some se ∧ InRoom r.id se ∧
          se.encoder = none := by
        obtain ⟨se, hl⟩ := Finmap.mem_iff.mp hm
        refine ⟨{ se with localState := { se.localState with curRoom := some r } }, ?_, ?_,
          he sid se hl⟩
        · rw [lookup_setCurRoom, if_pos rfl, hl]
          rfl
        · simp [InRoom]
      refine (notifyRoom_ensures env r.id fun sid' hm' => ?_).mono ?_ ?_ ?_
      · exact hv.mem_iff.mpr ((mem_setCurRoom sid sid' r s).mp hm')
      · rintro _ t ⟨-, -, hn⟩
        exact hn sid hmute
      · rintro t ⟨⟨sent, rfl⟩, -, -⟩
        rfl
      · rintro t ⟨-, hn⟩
        exact absurd hr hn
    · rfl
  · rintro _ ⟨-, rmsLock, rfl⟩
    exact ⟨rfl, rfl⟩

lemma postRooms_locks {sessionid name description : Option String} {id : RoomId}
    {order₁ order₂ : List SessionId} (hd : Deaf env s) (hv₁ : Visits s.ss order₁)
    (hv₂ : Visits s.ss order₂) :
    (postRooms env sessionid name description id order₁ order₂).Ensures s (fun _ t => t = s)
      (fun t => t = s ∨ t.ssLock = leak s.ssLock)
      (fun t => t.rooms = s.rooms ∧ t.ssLock = s.ssLock) := by
  rw [postRooms, Go.ensures_bind]
  refine (getSessionByRequest_ensures sessionid hd.sound hv₁).mono ?_ (fun _ h => h.elim) ?_
  · intro r u hu
    obtain rfl := hu.1.symm
    cases r with
    | none => exact rfl
    | some sid =>
      obtain ⟨-, hm, hr⟩ := (hu.2 sid).mp rfl
      cases name with
      | none => exact .inl rfl
      | some name =>
        cases description with
        | none => exact .inl rfl
        | some desc =>
          exact (makeAndChangeRoom_panics hd.encoder hm hr name desc id hv₂).mono
            (fun _ _ h => h.elim) (fun _ => .inr) fun _ h => h
  · rintro u ⟨rfl, -⟩
    exact ⟨rfl, rfl⟩

end Rooms

section Steps

lemma Deaf.step_encoder (hd : Deaf env s) (h : step env s a = some t) (ha : WithoutToken a)
    {sid : SessionId} {se : Session} (hl : t.ss.lookup sid = some se) : se.encoder = none := by
  cases step_effect hd.sound h with
  | created =>
    rcases lookup_insert_eq_some hl with ⟨rfl, rfl⟩ | hl
    · rfl
    · exact hd.encoder sid se hl
  | made _ hm =>
    obtain ⟨r, -, hss, -⟩ := hm.ss
    rw [hss, lookup_setCurRoom] at hl
    split_ifs at hl with he
    · obtain ⟨se', hse, rfl⟩ := Option.map_eq_some_iff.mp hl
      exact hd.encoder _ se' hse
    · exact hd.encoder sid se hl
  | moved _ hm => exact hd.encoder sid se (hm.ss ▸ hl)
  | selected _ _ ht => cases ha.symm.trans ht
  | @finished c =>
    have hl' := (lookup_detach c s sid).symm.trans hl
    split_ifs at hl'
    · obtain ⟨se', hse, rfl⟩ := Option.map_eq_some_iff.mp hl'
      rfl
    · exact hd.encoder sid se hl'
  | _ => exact hd.encoder sid se hl

lemma Deaf.step_conn (hd : Deaf env s) (h : step env s a = some t) (ha : WithoutToken a)
    (c : ConnId) : (t.conns c).s = none := by
  refine (step_effect hd.sound h).unbound hd.conn ?_ c
  rintro _ _ _ _ _ rfl ht
  cases ha.symm.trans ht

lemma Deaf.step_sent (hd : Deaf env s) (h : step env s a = some t)
    (he : ∀ sid se, t.ss.lookup sid = some se → se.encoder = none) {m : ConnId × ServerResp}
    (hm : m ∈ t.sent) : m.2 = {} := by
  have hnotice : ∀ {id}, ¬ Emissions.Notice t.ss id m := by
    rintro id ⟨⟨sid, se, hl, -, hc⟩, -⟩
    cases (he sid se hl).symm.trans hc
  rcases Emissions.sent_of_step hd.sound h hm with hm | hm
  · exact hd.sent m hm
  · cases hm with
    | beat => rfl
    | relayed hr =>
      obtain ⟨_, _, _, to_s, -, -, -, hto, hc, -⟩ := hr
      cases (he _ to_s hto).symm.trans hc
    | opened hn => exact absurd hn hnotice
    | entered _ _ hn => exact absurd hn hnotice
    | left _ _ hn => exact absurd hn hnotice

lemma leak_readers (l : RWMutex) : (leak l).readers ≠ 0 := Nat.succ_ne_zero _

lemma Deaf.postRooms_rooms (hd : Deaf env s) {sessionid name description : Option String}
    {id : RoomId} {order₁ order₂ : List SessionId}
    (h : step env s (.postRooms sessionid name description id order₁ order₂) = some t) :
    t.rooms ≠ ∅ → t.ssLock.readers ≠ 0 := by
  obtain ⟨⟨-, hv₁, hv₂⟩, ht⟩ := Option.ite_none_right_eq_some.mp h
  obtain rfl := Option.some.inj ht
  apply Go.Ensures.state (E := fun u : State => u.rooms ≠ ∅ → u.ssLock.readers ≠ 0)
  refine (postRooms_locks hd hv₁ hv₂).mono ?_ ?_ ?_
  · rintro _ u rfl
    exact hd.rooms
  · rintro u (rfl | hl) hn
    · exact hd.rooms hn
    · exact hl ▸ leak_readers _
  · rintro u ⟨hr, hl⟩ hn
    exact hl ▸ hd.rooms (hr ▸ hn)

lemma Deaf.step_rooms (hd : Deaf env s) (h : step env s a = some t) (ha : WithoutToken a) :
    t.rooms ≠ ∅ → t.ssLock.readers ≠ 0 := by
  cases step_effect hd.sound h with
  | made => exact hd.postRooms_rooms h
  | moved _ hm =>
    intro hn
    rcases hm.notified.cases with hl | hl
    · exact hl ▸ hd.rooms (hm.rooms ▸ hn)
    · exact hl ▸ leak_readers _
  | finished =>
    rw [detach_eq]
    exact hd.rooms
  | selected _ _ ht => cases ha.symm.trans ht
  | _ => exact hd.rooms

lemma Deaf.step (hd : Deaf env s) (h : Server.step env s a = some t) (ha : WithoutToken a) :
    Deaf env t where
  sound := hd.sound.step h
  encoder _ _ := hd.step_encoder h ha
  conn := hd.step_conn h ha
  sent _ := hd.step_sent h (fun _ _ => hd.step_encoder h ha)
  rooms := hd.step_rooms h ha

end Steps

/-- Without a token on any connection the server writes nothing but beats, and the first room that
somebody makes on the web is the end of new sessions. -/
structure Unheard (env : Env) (s : State) : Prop where
  sent : ∀ m ∈ s.sent, m.2 = {}
  rooms : s.rooms ≠ ∅ → ∀ l sid t, Server.step env s (.loginCreate l sid) = some t →
    t.ss = s.ss ∧ t.logins l = .stuck
  sessions : s.rooms ≠ ∅ → ∀ a t, WithoutToken a → Server.step env s a = some t →
    ∀ sid, sid ∈ t.ss ↔ sid ∈ s.ss

lemma Deaf.unheard (hd : Deaf env s) : Unheard env s where
  sent := hd.sent
  rooms hn l sid t h := by
    cases step_effect hd.sound h with
    | created _ _ hk => exact absurd hk.2 (hd.rooms hn)
    | createWaits => exact ⟨rfl, setLogin_self⟩
  sessions hn a t ha h sid := by
    cases step_effect hd.sound h with
    | created _ _ hk => exact absurd hk.2 (hd.rooms hn)
    | made _ hm =>
      obtain ⟨r, -, hss, -⟩ := hm.ss
      rw [hss]
      exact mem_setCurRoom ..
    | moved _ hm => rw [hm.ss]
    | selected _ _ ht => cases ha.symm.trans ht
    | finished => exact mem_iff_of_ids (map_lookup_detach Session.id (fun _ _ => rfl) _ s) sid
    | _ => exact Iff.rfl

theorem unheard_without_token {tr : List (State × Action)} {u : State}
    (h : Run (Steps (step env)) init tr u) (ha : AllSteps (fun _ a => WithoutToken a) tr) :
    AllStates (Unheard env) tr u := by
  have hstep : ∀ s a t, Deaf env s → Steps (step env) s a t → WithoutToken a → Deaf env t :=
    fun _ _ _ hd he ha => hd.step he ha
  obtain ⟨htr, hu⟩ := h.invariant_along hstep ha (deaf_init env)
  exact ⟨fun p hp => (htr p hp).unheard, hu.unheard⟩

section Samples

def onTheWeb : List Action :=
  [.loginCheck 0 alice.id [], .loginCreate 0 aliceSession, .connect 0, .request 0 {} [aliceSession],
    .tick 0, .postRooms (some aliceSession.toString) (some "halo") (some "2v2") gameRoom
      [aliceSession] [aliceSession], .loginCheck 1 bob.id [aliceSession],
    .loginCreate 1 bobSession]

theorem onTheWeb_unheard : ∃ tr u, tr.map Prod.snd = onTheWeb ∧
    Run (Steps (step sampleEnv)) init tr u ∧ AllStates (Unheard sampleEnv) tr u := by
  obtain ⟨tr, u, ha, hr, hs⟩ :=
    follow_decide (step sampleEnv) (fun _ a => WithoutToken a) init onTheWeb rfl
  exact ⟨tr, u, ha, hr, unheard_without_token hr hs⟩

end Samples

end XbTunnel.Server.Anonymous
