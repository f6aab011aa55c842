import XbTunnel.Server.Invariant

/-! Sessions and the encoders of the connections that selected them. A connection is alive until
`handleUserConn` has returned. -/

namespace XbTunnel.Server.Attach

open Common Lib.Effects Lib.Maps Lib.Runs

variable {env : Env} {s t : State} {a : Action}

structure EncodersLive (s : State) : Prop where
  live : ∀ sid se c, s.ss.lookup sid = some se → se.encoder = some c →
    Alive s c ∧ (s.conns c).s = some sid
  attached : ∀ c sid se, Alive s c → (s.conns c).s = some sid → s.ss.lookup sid = some se →
    se.encoder ≠ none

/-- A connection switches sessions only after another one has taken over its old session, and ends
only as the last one of its session. -/
def HandsOver (env : Env) (s : State) : Action → Prop
  | .request c req order => ∀ token sid sid' se, req.token = some token →
      order.find? (passes (ofToken env.users token) s) = some sid' → s.ssLock.Readable →
      (s.conns c).s = some sid → s.ss.lookup sid = some se → sid ≠ sid' → se.encoder ≠ some c
  | .finish c => ∀ sid c', (s.conns c).s = some sid → Alive s c' → (s.conns c').s = some sid →
      c' = c
  | _ => True

lemma EncodersLive.of_encoders (h : EncodersLive s) (hc : t.conns = s.conns)
    (he : ∀ sid, (t.ss.lookup sid).map Session.encoder = (s.ss.lookup sid).map Session.encoder) :
    EncodersLive t := by
  have hlookup : ∀ sid se, t.ss.lookup sid = some se →
      ∃ se', s.ss.lookup sid = some se' ∧ se'.encoder = se.encoder := by
    intro sid se hl
    have hm := he sid
    rw [hl] at hm
    exact Option.map_eq_some_iff.mp hm.symm
  constructor
  · intro sid se c hl hs
    obtain ⟨se', hl', he'⟩ := hlookup sid se hl
    rw [Alive, hc]
    exact h.live sid se' c hl' (he'.trans hs)
  · intro c sid se ha hs hl
    obtain ⟨se', hl', he'⟩ := hlookup sid se hl
    rw [Alive, hc] at ha
    rw [hc] at hs
    exact he' ▸ h.attached c sid se' ha hs hl'

lemma EncodersLive.setPhase (h : EncodersLive s) (c : ConnId) {phase : Phase}
    (hp : phase.alive = true) (ha : Alive s c ∨ (s.conns c).s = none) :
    EncodersLive (setConn c { s.conns c with phase } s) := by
  constructor
  · intro sid se c' hl he
    obtain ⟨hl', hs'⟩ := h.live sid se c' hl he
    by_cases hc : c' = c
    · subst hc
      rw [alive_setConn_self, setConn_conns_self]
      exact ⟨hp, hs'⟩
    · rw [alive_setConn_of_ne hc, setConn_conns_of_ne hc]
      exact ⟨hl', hs'⟩
  · intro c' sid se hl' hs' hl
    by_cases hc : c' = c
    · subst hc
      rw [setConn_conns_self] at hs'
      refine h.attached c' sid se (ha.resolve_right fun hn => ?_) hs' hl
      cases hn.symm.trans hs'
    · rw [alive_setConn_of_ne hc] at hl'
      rw [setConn_conns_of_ne hc] at hs'
      exact h.attached c' sid se hl' hs' hl

lemma alive_of_phase {c : ConnId} {phase : Phase} (h : (s.conns c).phase = phase)
    (hp : phase.alive = true) : Alive s c := by
  rw [Alive, h, hp]

lemma attach_live {c : ConnId} {sid : SessionId} (h : EncodersLive s)
    (hp : (s.conns c).phase = .reading)
    (ho : ∀ sid' se, (s.conns c).s = some sid' → s.ss.lookup sid' = some se → sid' ≠ sid →
      se.encoder ≠ some c) : EncodersLive (attach c sid s) := by
  have hlookup := lookup_attach c sid s
  rw [attach_eq] at hlookup ⊢
  constructor
  · intro sid' se c' hl he
    rw [hlookup] at hl
    split_ifs at hl with hsid
    · obtain ⟨se', -, rfl⟩ := Option.map_eq_some_iff.mp hl
      obtain rfl := Option.some.inj he
      rw [alive_setConn_self, setConn_conns_self, hsid]
      exact ⟨alive_of_phase hp rfl, rfl⟩
    · obtain ⟨ha, hs⟩ := h.live sid' se c' hl he
      by_cases hc : c' = c
      · subst hc
        exact absurd he (ho sid' se hs hl hsid)
      · rw [alive_setConn_of_ne hc, setConn_conns_of_ne hc]
        exact ⟨ha, hs⟩
  · intro c' sid' se ha hs hl
    rw [hlookup] at hl
    split_ifs at hl with hsid
    · obtain ⟨se', -, rfl⟩ := Option.map_eq_some_iff.mp hl
      exact Option.some_ne_none c
    · by_cases hc : c' = c
      · subst hc
        rw [setConn_conns_self] at hs
        exact absurd (Option.some.inj hs).symm hsid
      · rw [setConn_conns_of_ne hc] at hs
        rw [alive_setConn_of_ne hc] at ha
        exact h.attached c' sid' se ha hs hl

lemma detach_live {c : ConnId} (h : EncodersLive s)
    (ho : ∀ sid c', (s.conns c).s = some sid → Alive s c' → (s.conns c').s = some sid → c' = c) :
    EncodersLive (setConn c { s.conns c with phase := .ended } (detach c s)) := by
  have hlookup := lookup_detach c s
  rw [detach_eq] at hlookup ⊢
  constructor
  · intro sid se c' hl he
    have hl' := (hlookup sid).symm.trans hl
    split_ifs at hl' with hc
    · obtain ⟨se', -, rfl⟩ := Option.map_eq_some_iff.mp hl'
      cases he
    · obtain ⟨ha, hs⟩ := h.live sid se c' hl' he
      have hne : c' ≠ c := fun hcc => hc (hcc ▸ hs)
      rw [alive_setConn_of_ne hne, setConn_conns_of_ne hne]
      exact ⟨ha, hs⟩
  · intro c' sid se ha hs hl
    have hl' := (hlookup sid).symm.trans hl
    have hne : c' ≠ c := by
      rintro rfl
      rw [alive_setConn_self] at ha
      cases ha
    rw [alive_setConn_of_ne hne] at ha
    rw [setConn_conns_of_ne hne] at hs
    split_ifs at hl' with hc
    · exact absurd (ho sid c' hc ha hs) hne
    · exact h.attached c' sid se ha hs hl'

lemma EncodersLive.step (h : EncodersLive s) (hsound : Sound env s)
    (hs : step env s a = some t) (ha : HandsOver env s a) : EncodersLive t := by
  cases step_effect hsound hs with
  | found | missed | checkWaits | createWaits | refused | blocked | stayed | served | ticked =>
    exact h.of_encoders rfl fun _ => rfl
  | @created l pid sid _ hf =>
    constructor
    · intro sid' se c hl he
      rcases lookup_insert_eq_some hl with ⟨-, rfl⟩ | hl
      · cases he
      · exact h.live sid' se c hl he
    · intro c sid' se hc hs hl
      have hsid : sid' ≠ sid := fun he => hf.1 (he ▸ hsound.bound c sid' hs)
      exact h.attached c sid' se hc hs ((Finmap.lookup_insert_of_ne _ hsid).symm.trans hl)
  | made _ hmade =>
    obtain ⟨r, -, hss, -⟩ := hmade.ss
    apply h.of_encoders hmade.kept.conns
    intro sid'
    rw [hss]
    exact map_lookup_setCurRoom _ sid' r s Session.encoder fun _ => rfl
  | moved _ hmoved =>
    apply h.of_encoders hmoved.kept.conns
    intro sid
    rw [hmoved.ss]
  | connected hp => exact h.setPhase _ rfl (.inr (hsound.closed _ hp))
  | waits hp => exact h.setPhase _ rfl (.inl (alive_of_phase hp rfl))
  | selected hp hr ht hf =>
    have hlive := attach_live h hp fun sid' se hs hl hne => ha _ sid' _ se ht hf hr hs hl hne
    exact hlive.of_encoders rfl fun _ => rfl
  | broke hp => exact h.setPhase _ rfl (.inl (alive_of_phase hp rfl))
  | finished => exact detach_live h ha

lemma not_encodersLive (hsound : Sound env s) (hs : step env s a = some t)
    (ha : ¬ HandsOver env s a) : ¬ EncodersLive t := by
  intro hlive
  cases step_effect hsound hs with
  | @selected c req order sent token sid' hp hr ht hf =>
    simp only [HandsOver, not_forall, not_not] at ha
    obtain ⟨token', sid, sid'', se, ht', hf', -, hc, hl, hne, he⟩ := ha
    obtain rfl := Option.some.inj (ht.symm.trans ht')
    obtain rfl := Option.some.inj (hf.symm.trans hf')
    have hl' := (lookup_attach c sid' s sid).trans (if_neg hne)
    rw [attach_eq] at hlive hl'
    have hbound := (hlive.live sid se c (hl'.trans hl) he).2.symm.trans
      (congrArg Conn.s setConn_conns_self)
    exact hne (Option.some.inj hbound)
  | served hn =>
    simp only [HandsOver, not_forall, not_not] at ha
    obtain ⟨token', sid, sid'', se, ht', -⟩ := ha
    cases hn.symm.trans ht'
  | waits hp hn =>
    simp only [HandsOver, not_forall, not_not] at ha
    obtain ⟨token', sid, sid'', se, -, -, hr, -⟩ := ha
    exact hn hr
  | @finished c hp =>
    simp only [HandsOver, not_forall] at ha
    obtain ⟨sid, c', hc, hc', hs', hne⟩ := ha
    obtain ⟨se, hl⟩ := Finmap.mem_iff.mp (hsound.bound c sid hc)
    have hl' := (lookup_detach c s sid).trans ((if_pos hc).trans (congrArg _ hl))
    rw [detach_eq] at hlive hl'
    refine hlive.attached c' sid _ ?_ ?_ hl' rfl
    · exact (alive_setConn_of_ne hne).mpr hc'
    · rw [setConn_conns_of_ne hne]
      exact hs'
  | _ => exact ha trivial

lemma encodersLive_init : EncodersLive init where
  live sid se c h := by simp [init] at h
  attached c sid se h := by simp [init, Alive, Phase.alive] at h

theorem encoders_live_iff {tr : List (State × Action)} {u : State}
    (h : Run (Steps (step env)) init tr u) :
    AllStates EncodersLive tr u ↔ AllSteps (HandsOver env) tr :=
  h.all_states_iff (fun s => Sound env s ∧ EncodersLive s) (fun _ hi => hi.2)
    (fun _ _ _ hi hs ha => ⟨hi.1.step hs, hi.2.step hi.1 hs ha⟩)
    (fun _ _ _ hi hs ha => not_encodersLive hi.1 hs ha) ⟨sound_init env, encodersLive_init⟩

section Samples

def keepsOwnSession (s : State) : Action → Bool
  | .request c _ _ => ((s.conns c).s.bind s.ss.lookup).all fun se => decide (se.encoder ≠ some c)
  | .finish c => decide ((s.conns c).s = none)
  | _ => true

lemma handsOver_of_keepsOwnSession (h : keepsOwnSession s a = true) : HandsOver env s a := by
  cases a with
  | request c req order =>
    intro token sid sid' se _ _ _ hc hl _
    simpa [keepsOwnSession, hc, hl] using h
  | finish c =>
    intro sid c' hc
    rw [of_decide_eq_true h] at hc
    cases hc
  | _ => trivial

def handover : List Action :=
  bothLogIn ++ [.connect 0, .request 0 (tokenReq alice) [aliceSession, bobSession], .connect 1,
    .request 1 (tokenReq alice) [bobSession, aliceSession],
    .request 0 (tokenReq bob) [bobSession, aliceSession], .connect 2, .decodeError 2, .finish 2]

theorem handover_keeps_encoders_live : ∃ tr u, tr.map Prod.snd = handover ∧
    Run (Steps (step sampleEnv)) init tr u ∧ AllStates EncodersLive tr u := by
  obtain ⟨tr, u, ha, hr, hs⟩ := follow_run (step sampleEnv) keepsOwnSession
    (fun _ _ => handsOver_of_keepsOwnSession) init handover rfl
  exact ⟨tr, u, ha, hr, (encoders_live_iff hr).mpr hs⟩

def reconnect : List Action :=
  bothLogIn ++ [.connect 0, .request 0 (tokenReq alice) [aliceSession, bobSession], .connect 1,
    .request 1 (tokenReq alice) [bobSession, aliceSession], .decodeError 0, .finish 0]

theorem reconnect_detaches : ∃ tr u, tr.map Prod.snd = reconnect ∧
    Run (Steps (step sampleEnv)) init tr u ∧ ¬ EncodersLive u := by
  have hend : (exec (step sampleEnv) init reconnect).any (fun u =>
      decide (Alive u 1 ∧ (u.conns 1).s = some aliceSession ∧
        (u.ss.lookup aliceSession).map Session.encoder = some none)) = true := rfl
  obtain ⟨tr, u, ha, hr, hd⟩ := exec_any _ hend
  obtain ⟨halive, hs, hm⟩ := of_decide_eq_true hd
  obtain ⟨se, hl, he⟩ := Option.map_eq_some_iff.mp hm
  exact ⟨tr, u, ha, hr, fun h => h.attached 1 aliceSession se halive hs hl he⟩

end Samples

end XbTunnel.Server.Attach
