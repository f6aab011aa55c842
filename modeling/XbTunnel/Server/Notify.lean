import XbTunnel.Server.Invariant

/-! Room notifications and the lock of the session store, which they take without `defer`. -/

namespace XbTunnel.Server.Notify

open Common Lib.Effects Lib.Maps Lib.Runs

variable {env : Env} {s t : State} {a : Action}

structure NotifiesSafely (env : Env) (s : State) : Prop where
  free : s.ssLock = .free
  notify : ∀ id order, Visits s.ss order →
    ∃ t, notifyRoom env id order s = .ok () t ∧ t.ssLock = .free

/-- A room is made for a session only while it has an encoder, and a connection ends only while its
session is in no room. -/
def SparesMembers (s : State) : Action → Prop
  | .finish c => ∀ sid se, (s.conns c).s = some sid → s.ss.lookup sid = some se →
      se.localState.curRoom = none
  | a => ∀ sid se, MakesRoom s sid a → s.ss.lookup sid = some se → se.encoder ≠ none

structure Wired (env : Env) (s : State) : Prop where
  sound : Sound env s
  free : s.ssLock = .free
  encoder : ∀ sid se, s.ss.lookup sid = some se → se.localState.curRoom ≠ none → se.encoder ≠ none

lemma inRoom_curRoom {id : RoomId} {se : Session} (h : InRoom id se) :
    se.localState.curRoom ≠ none := by
  intro hn
  simp [InRoom, hn] at h

lemma not_mute (he : ∀ sid se, s.ss.lookup sid = some se → se.localState.curRoom ≠ none →
    se.encoder ≠ none) (id : RoomId) (sid : SessionId) : ¬ Mute s id sid := by
  rintro ⟨se, hl, hr, hn⟩
  exact he sid se hl (inRoom_curRoom hr) hn

lemma mute_of_curRoom {sid : SessionId} {se : Session} (hl : s.ss.lookup sid = some se)
    (hr : se.localState.curRoom ≠ none) (hn : se.encoder = none) : ∃ id, Mute s id sid := by
  obtain ⟨r, hr⟩ := Option.ne_none_iff_exists'.mp hr
  exact ⟨r.id, se, hl, by simp [InRoom, hr], hn⟩

lemma Wired.notifiesSafely (h : Wired env s) : NotifiesSafely env s where
  free := h.free
  notify id order hv := by
    have hn := notifyRoom_ensures env id (fun sid => hv.mem_iff.mpr)
    cases ho : notifyRoom env id order s with
    | ok a t =>
      obtain ⟨⟨sent, rfl⟩, -⟩ := hn.of_ok ho
      exact ⟨_, rfl, h.free⟩
    | panic t =>
      obtain ⟨-, -, sid, hm⟩ := hn.of_panic ho
      exact absurd hm (not_mute h.encoder id sid)
    | hang t =>
      apply absurd _ (hn.of_hang ho).2
      rw [h.free]
      exact RWMutex.free_readable

lemma mute_unsafe {id : RoomId} {sid : SessionId} (hm : Mute s id sid) :
    ¬ NotifiesSafely env s := by
  intro hs
  obtain ⟨order, hv⟩ := Visits.exists s.ss
  obtain ⟨t, ht, -⟩ := hs.notify id order hv
  have hn := notifyRoom_ensures env id (fun sid => hv.mem_iff.mpr)
  exact (hn.of_ok ht).2.2 sid hm

lemma wired_init (env : Env) : Wired env init where
  sound := sound_init env
  free := rfl
  encoder sid se h := by simp [init] at h

lemma notified_free {l : RWMutex} (h : Notified l t) (hl : l = .free)
    (hm : ∀ id sid, ¬ Mute t id sid) : t.ssLock = .free := by
  rcases h with h | ⟨-, id, sid, hm'⟩
  · rw [h, hl]
  · exact absurd hm' (hm id sid)

lemma Wired.step (h : Wired env s) (hs : step env s a = some t) (ha : SparesMembers s a) :
    Wired env t := by
  have he : ∀ sid se, t.ss.lookup sid = some se → se.localState.curRoom ≠ none →
      se.encoder ≠ none := by
    intro sid se hl hr
    cases step_session h.sound hs hl with
    | stays hl' => exact h.encoder sid se hl' hr
    | created => exact absurd rfl hr
    | entered hm hl' =>
      cases a with
      | postRooms =>
        have hn := ha sid _ hm hl'
        exact hn
      | _ => exact hm.elim
    | attached => exact Option.some_ne_none _
    | detached hf hc hl' =>
      subst hf
      exact absurd (ha sid _ hc hl') hr
  have hfree : t.ssLock = .free := by
    cases step_effect h.sound hs with
    | createWaits hk =>
      rw [h.free] at hk
      exact absurd ⟨rfl, rfl⟩ hk
    | made _ hm => exact notified_free hm.notified h.free (not_mute he)
    | moved _ hm => exact notified_free hm.notified h.free (not_mute he)
    | selected =>
      rw [attach_eq]
      exact h.free
    | finished =>
      rw [detach_eq]
      exact h.free
    | _ => exact h.free
  exact ⟨h.sound.step hs, hfree, he⟩

lemma mute_after (h : Wired env s) (hs : step env s a = some t) (ha : ¬ SparesMembers s a) :
    ∃ id sid, Mute t id sid := by
  have hmade : (∃ sid se, MakesRoom s sid a ∧ s.ss.lookup sid = some se ∧ se.encoder = none) →
      ∃ id sid, Mute t id sid := by
    rintro ⟨sid, se, hm, hl, hn⟩
    obtain ⟨_, hmade⟩ := made_of_makesRoom h.sound hs hm
    obtain ⟨r, hl'⟩ := hmade.lookup hl
    obtain ⟨id, hmute⟩ := mute_of_curRoom hl' (Option.some_ne_none r) hn
    exact ⟨id, sid, hmute⟩
  cases a with
  | finish c =>
    simp only [SparesMembers, not_forall] at ha
    obtain ⟨sid, se, hc, hl, hr⟩ := ha
    cases step_effect h.sound hs with
    | finished =>
      have hl' : (detach c s).ss.lookup sid = some { se with encoder := none } := by
        rw [lookup_detach, if_pos hc, hl]
        rfl
      rw [detach_eq]
      obtain ⟨id, hmute⟩ := mute_of_curRoom hl' hr rfl
      exact ⟨id, sid, hmute⟩
  | _ =>
    apply hmade
    simp only [SparesMembers, not_forall, not_not] at ha
    obtain ⟨sid, se, hm, hl, hn⟩ := ha
    exact ⟨sid, se, hm, hl, hn⟩

theorem notifies_safely_iff {tr : List (State × Action)} {u : State}
    (h : Run (Steps (step env)) init tr u) :
    AllStates (NotifiesSafely env) tr u ↔ AllSteps SparesMembers tr := by
  have hbad : ∀ s a t, Wired env s → Steps (step env) s a t → ¬ SparesMembers s a →
      ¬ NotifiesSafely env t := by
    intro s a t hi hs ha
    obtain ⟨id, sid, hm⟩ := mute_after hi hs ha
    exact mute_unsafe hm
  exact h.all_states_iff (Wired env) (fun _ => Wired.notifiesSafely) (fun _ _ _ => Wired.step) hbad
    (wired_init env)

section Samples

def makesGameRoom : Action :=
  .postRooms (some aliceSession.toString) (some "halo") (some "2v2") gameRoom
    [aliceSession, bobSession] [aliceSession, bobSession]

def connectedRoom : List Action :=
  bothLogIn ++ [.connect 0, .request 0 (tokenReq alice) [bobSession, aliceSession], makesGameRoom,
    .changeroom (some bobSession.toString) gameRoom [aliceSession, bobSession]
      [aliceSession, bobSession] [aliceSession, bobSession], .tick 0]

def aliceIsConnected (s : State) : Action → Bool
  | .finish _ => false
  | .postRooms sessionid _ _ _ _ _ => decide (sessionid = some aliceSession.toString) &&
      (s.ss.lookup aliceSession).any fun se => se.encoder.isSome
  | _ => true

lemma sparesMembers_of_aliceIsConnected (h : aliceIsConnected s a = true) : SparesMembers s a := by
  cases a with
  | finish c => cases h
  | postRooms sessionid name description id order₁ order₂ =>
    intro sid se hm hl
    simp only [aliceIsConnected, Bool.and_eq_true, decide_eq_true_eq, Option.any_eq_true] at h
    obtain ⟨hc, se', hl', he⟩ := h
    obtain rfl := SessionId.toString_injective (Option.some.inj (hm.1.symm.trans hc))
    obtain rfl := Option.some.inj (hl.symm.trans hl')
    exact Option.isSome_iff_ne_none.mp he
  | _ => exact fun _ _ hm => hm.elim

theorem connectedRoom_notifies_safely : ∃ tr u, tr.map Prod.snd = connectedRoom ∧
    Run (Steps (step sampleEnv)) init tr u ∧ AllStates (NotifiesSafely sampleEnv) tr u := by
  obtain ⟨tr, u, ha, hr, hs⟩ := follow_run (step sampleEnv) aliceIsConnected
    (fun _ _ => sparesMembers_of_aliceIsConnected) init connectedRoom rfl
  exact ⟨tr, u, ha, hr, (notifies_safely_iff hr).mpr hs⟩

def webRoom : List Action :=
  [.loginCheck 0 alice.id [], .loginCreate 0 aliceSession,
    .postRooms (some aliceSession.toString) (some "halo") (some "2v2") gameRoom [aliceSession]
      [aliceSession], .loginCheck 1 bob.id [aliceSession], .loginCreate 1 bobSession]

theorem webRoom_blocks_logins : ∃ tr u, tr.map Prod.snd = webRoom ∧
    Run (Steps (step sampleEnv)) init tr u ∧ ¬ NotifiesSafely sampleEnv u ∧
      u.logins 1 = .stuck := by
  have hend : (exec (step sampleEnv) init webRoom).any (fun u =>
      decide (u.ssLock ≠ .free ∧ u.logins 1 = .stuck)) = true := rfl
  obtain ⟨tr, u, ha, hr, hd⟩ := exec_any _ hend
  obtain ⟨hl, hstuck⟩ := of_decide_eq_true hd
  exact ⟨tr, u, ha, hr, fun h => hl h.free, hstuck⟩

end Samples

end XbTunnel.Server.Notify
