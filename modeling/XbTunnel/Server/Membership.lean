import XbTunnel.Server.Rooms

/-! `changeUserRoom` as a move of one user. It takes the room that the user leaves out of the map
where it means the user, which shows when no other room is entered. -/

namespace XbTunnel.Server.Membership

open Common Lib.Effects Lib.Maps Lib.Runs Rooms

structure Call where
  pid : PeerId
  room : Option Room
  order₁ : List SessionId
  order₂ : List SessionId

structure Tracked where
  s : State
  last : PeerId → Option Room

def start (s : State) : Tracked := ⟨s, s.userRoomMap.lookup⟩

def call (env : Env) (c : Call) : Go State Unit :=
  changeUserRoom env c.pid c.room c.order₁ c.order₂

def step (env : Env) (w : Tracked) (c : Call) : Option Tracked :=
  if Visits w.s.ss c.order₁ ∧ Visits w.s.ss c.order₂ then
    some ⟨(call env c w.s).state, Function.update w.last c.pid c.room⟩
  else none

def place (pid : PeerId) (m : Map PeerId Room) : Option Room → Map PeerId Room
  | some r => m.insert pid r
  | none => m.erase pid

def members (s : State) (order : List SessionId) : Option Room → List ConnId
  | some r => order.filterMap (addressee s r.id)
  | none => []

def MovesUser (env : Env) (w : Tracked) (c : Call) : Prop :=
  ∃ t, call env c w.s = .ok () t ∧ t.userRoomMap = place c.pid w.s.userRoomMap c.room ∧
    t.rooms = w.s.rooms ∧ Tells w.s t
      (members w.s c.order₁ (w.s.userRoomMap.lookup c.pid) ++ members w.s c.order₂ c.room)

def InLastRoom (w : Tracked) : Prop := ∀ pid, w.s.userRoomMap.lookup pid = w.last pid

def Notifiable (s : State) (r : Room) : Prop := s.ssLock.Readable ∧ ∀ sid, ¬ Mute s r.id sid

def left (pid : PeerId) (m : Map PeerId Room) : Map PeerId Room :=
  match m.lookup pid with
  | some rid => m.erase ⟨rid.id.oid⟩
  | none => m

def entered (pid : PeerId) (r : Option Room) (m : Map PeerId Room) : Map PeerId Room :=
  match r with
  | some r => m.insert pid r
  | none => m

/-- The room that the user leaves has the user's own id, or it has the id of no user in a room and
the user enters another room. -/
def Harmless (m : Map PeerId Room) (c : Call) : Prop :=
  ∀ rid ∈ m.lookup c.pid, ⟨rid.id.oid⟩ = c.pid ∨ c.room.isSome ∧ ⟨rid.id.oid⟩ ∉ m

structure Returns (s : State) (c : Call) : Prop where
  free : Lockable s.rmsLock
  notifiable : ∀ r, s.userRoomMap.lookup c.pid = some r ∨ c.room = some r → Notifiable s r

structure Clean (w : Tracked) (c : Call) : Prop where
  returns : Returns w.s c
  harmless : Harmless w.s.userRoomMap c

variable {env : Env} {s t : State} {w v : Tracked} {c : Call} {order : List SessionId}
  {pid : PeerId} {m : Map PeerId Room}

section Maps

lemma entered_left_iff (m : Map PeerId Room) (c : Call) :
    entered c.pid c.room (left c.pid m) = place c.pid m c.room ↔ Harmless m c := by
  rw [Harmless, left]
  cases hl : m.lookup c.pid with
  | none =>
    refine iff_of_true ?_ nofun
    cases c.room with
    | none => exact (erase_of_notMem (Finmap.lookup_eq_none.mp hl)).symm
    | some r => rfl
  | some rid =>
    have hmem : c.pid ∈ m := Finmap.mem_of_lookup_eq_some hl
    cases c.room with
    | none => simpa [entered, place] using erase_eq_erase_iff hmem
    | some r => simpa [entered, place] using insert_erase_eq_insert_iff

end Maps

section Calls

lemma notifyRoom_tells (env : Env) (id : RoomId) (order : List SessionId) (s : State) :
    (notifyRoom env id order).Ensures s
      (fun _ t => Tells s t (order.filterMap (addressee s id))) (fun _ => True)
      (fun _ => True) := by
  rw [notifyRoom, Go.ensures_bind, Mutex.ensures_rLock]
  split
  · rw [Go.ensures_bind]
    refine (notifyLoop_tells env id order (ssMutex.acquired s)).mono ?_ (fun _ h => h)
      fun _ h => h.elim
    intro _ t ht
    exact ht
  · trivial

lemma notifyRoom_notifiable (env : Env) (r : Room) (hv : Visits s.ss order) :
    (notifyRoom env r.id order).Ensures s
      (fun _ t => SentOnly s t ∧ Tells s t (members s order (some r)) ∧ Notifiable s r)
      (fun _ => ¬ Notifiable s r) (fun _ => ¬ Notifiable s r) := by
  have hn := notifyRoom_ensures env r.id (fun sid => hv.mem_iff.mpr)
  refine (hn.and (notifyRoom_tells env r.id order s)).mono ?_ ?_ ?_
  · rintro _ t ⟨⟨hs, hr, hm⟩, ht⟩
    exact ⟨hs, ht, hr, hm⟩
  · rintro t ⟨⟨-, -, sid, hm⟩, -⟩ h
    exact h.2 sid hm
  · rintro t ⟨⟨-, hr⟩, -⟩ h
    exact hr h.1

structure Writes (s t : State) (m : Map PeerId Room) (cs : List ConnId) : Prop where
  eq : ∃ sent, t = { s with userRoomMap := m, sent }
  tells : Tells s t cs

lemma notifyRoom_writes (env : Env) (r : Room) (m : Map PeerId Room) (hv : Visits s.ss order) :
    (notifyRoom env r.id order).Ensures { s with userRoomMap := m }
      (fun _ t => Writes s t m (members s order (some r)) ∧ ∀ r' ∈ some r, Notifiable s r')
      (fun _ => ∃ r' ∈ some r, ¬ Notifiable s r') (fun _ => ∃ r' ∈ some r, ¬ Notifiable s r') := by
  have hn := notifyRoom_notifiable env r (s := { s with userRoomMap := m }) hv
  refine hn.mono ?_ ?_ ?_
  · rintro _ t ⟨⟨sent, rfl⟩, ht, hr⟩
    refine ⟨⟨⟨sent, rfl⟩, ht⟩, fun r' hr' => ?_⟩
    cases hr'
    exact hr
  · exact fun _ hr => ⟨r, rfl, hr⟩
  · exact fun _ hr => ⟨r, rfl, hr⟩

lemma leaveRoom_writes (env : Env) (pid : PeerId) (hv : Visits s.ss order) :
    (leaveRoom env pid order).Ensures s
      (fun _ t => Writes s t (left pid s.userRoomMap)
          (members s order (s.userRoomMap.lookup pid)) ∧
        ∀ r ∈ s.userRoomMap.lookup pid, Notifiable s r)
      (fun _ => ∃ r ∈ s.userRoomMap.lookup pid, ¬ Notifiable s r)
      (fun _ => ∃ r ∈ s.userRoomMap.lookup pid, ¬ Notifiable s r) := by
  rw [leaveRoom, Go.ensures_bind, Go.ensures_get, left]
  cases hl : s.userRoomMap.lookup pid with
  | none => exact ⟨⟨⟨s.sent, rfl⟩, .refl s⟩, fun r hr => by cases hr⟩
  | some rid => exact notifyRoom_writes env rid (s.userRoomMap.erase ⟨rid.id.oid⟩) hv

lemma enterRoom_writes (env : Env) (pid : PeerId) (r : Option Room) (hv : Visits s.ss order) :
    (enterRoom env pid r order).Ensures s
      (fun _ t => Writes s t (entered pid r s.userRoomMap) (members s order r) ∧
        ∀ r' ∈ r, Notifiable s r')
      (fun _ => ∃ r' ∈ r, ¬ Notifiable s r') (fun _ => ∃ r' ∈ r, ¬ Notifiable s r') := by
  cases r with
  | none => exact ⟨⟨⟨s.sent, rfl⟩, .refl s⟩, fun r hr => by cases hr⟩
  | some r => exact notifyRoom_writes env r (s.userRoomMap.insert pid r) hv

lemma call_writes (env : Env) (hv₁ : Visits s.ss c.order₁) (hv₂ : Visits s.ss c.order₂) :
    (call env c).Ensures s
      (fun _ t => Returns s c ∧ Writes s t (entered c.pid c.room (left c.pid s.userRoomMap))
        (members s c.order₁ (s.userRoomMap.lookup c.pid) ++ members s c.order₂ c.room))
      (fun _ => ¬ Returns s c) (fun _ => ¬ Returns s c) := by
  rw [call, changeUserRoom, Go.ensures_bind, Mutex.ensures_lock]
  split
  · rename_i hf
    rw [Go.ensures_bind]
    have hleave := leaveRoom_writes env c.pid
      (s := { s with rmsLock := { s.rmsLock with writer := true } }) hv₁
    refine hleave.mono ?_ ?_ ?_
    · rintro _ t ⟨⟨⟨sent, rfl⟩, ht⟩, hn⟩
      rw [Go.ensures_bind]
      have henter := enterRoom_writes env c.pid c.room (s := { s with
        rmsLock := { s.rmsLock with writer := true }
        userRoomMap := left c.pid s.userRoomMap, sent }) hv₂
      refine henter.mono ?_ ?_ ?_
      · rintro _ u ⟨⟨⟨sent', rfl⟩, ht'⟩, hn'⟩
        refine ⟨⟨hf, fun r hr => hr.elim (hn r) (hn' r)⟩, ⟨sent', ?_⟩, ht.trans ht'⟩
        exact congrArg (fun rmsLock => { s with
          userRoomMap := entered c.pid c.room (left c.pid s.userRoomMap), sent := sent', rmsLock })
          (unlocked hf.1)
      · rintro u ⟨r, hr, hn'⟩ h
        exact hn' (h.notifiable r (.inr hr))
      · rintro u ⟨r, hr, hn'⟩ h
        exact hn' (h.notifiable r (.inr hr))
    · rintro u ⟨r, hr, hn⟩ h
      exact hn (h.notifiable r (.inl hr))
    · rintro u ⟨r, hr, hn⟩ h
      exact hn (h.notifiable r (.inl hr))
  · rename_i hf
    exact fun h => hf h.free

end Calls

lemma step_eq (h : step env w c = some v) : Visits w.s.ss c.order₁ ∧ Visits w.s.ss c.order₂ ∧
    v = ⟨(call env c w.s).state, Function.update w.last c.pid c.room⟩ := by
  obtain ⟨⟨hv₁, hv₂⟩, hv⟩ := Option.ite_none_right_eq_some.mp h
  exact ⟨hv₁, hv₂, (Option.some.inj hv).symm⟩

lemma step_moves_iff (h : step env w c = some v) : MovesUser env w c ↔ Clean w c := by
  obtain ⟨hv₁, hv₂, -⟩ := step_eq h
  have hw := call_writes env hv₁ hv₂
  constructor
  · rintro ⟨t, ht, hm, -⟩
    obtain ⟨hr, ⟨sent, rfl⟩, -⟩ := hw.of_ok ht
    exact ⟨hr, (entered_left_iff _ c).mp hm⟩
  · rintro ⟨hr, hh⟩
    cases ho : call env c w.s with
    | ok _ t =>
      obtain ⟨-, ⟨sent, rfl⟩, ht⟩ := hw.of_ok ho
      exact ⟨_, ho, (entered_left_iff _ c).mpr hh, rfl, ht⟩
    | panic t => exact absurd hr (hw.of_panic ho)
    | hang t => exact absurd hr (hw.of_hang ho)

lemma lookup_place (pid pid' : PeerId) (m : Map PeerId Room) (r : Option Room) :
    (place pid m r).lookup pid' = Function.update m.lookup pid r pid' := by
  by_cases hp : pid' = pid
  · subst hp
    rw [Function.update_self]
    cases r with
    | none => exact Finmap.lookup_erase ..
    | some r => exact Finmap.lookup_insert _
  · rw [Function.update_of_ne hp]
    cases r with
    | none => exact Finmap.lookup_erase_ne hp
    | some r => exact Finmap.lookup_insert_of_ne _ hp

lemma InLastRoom.step (hl : InLastRoom w) (h : step env w c = some v) (hm : MovesUser env w c) :
    InLastRoom v := by
  obtain ⟨-, -, rfl⟩ := step_eq h
  obtain ⟨t, ht, hmap, -⟩ := hm
  intro pid
  have hlast : w.s.userRoomMap.lookup = w.last := funext hl
  rw [ht]
  calc t.userRoomMap.lookup pid
      = (place c.pid w.s.userRoomMap c.room).lookup pid := by rw [hmap]
    _ = Function.update w.last c.pid c.room pid := by rw [lookup_place, hlast]

theorem moves_users_iff {tr : List (Tracked × Call)} (h : Run (Steps (step env)) (start s) tr w) :
    AllSteps (MovesUser env) tr ∧ AllStates InLastRoom tr w ↔ AllSteps Clean tr := by
  have hsteps : AllSteps (MovesUser env) tr ↔ AllSteps Clean tr :=
    h.all_steps_iff (fun _ => True) (fun _ _ _ _ _ => trivial)
      (fun _ _ _ _ hs => step_moves_iff hs) trivial
  have hstart : InLastRoom (start s) := fun _ => rfl
  have hstep : ∀ w c v, InLastRoom w → Steps (step env) w c v → MovesUser env w c →
      InLastRoom v := fun _ _ _ => InLastRoom.step
  have hlast : AllSteps (MovesUser env) tr → AllStates InLastRoom tr w :=
    fun hm => h.invariant_along hstep hm hstart
  rw [and_iff_left_of_imp hlast, hsteps]

section Samples

def halo : Room := ⟨gameRoom, "halo", "2v2"⟩

def bobPlays : State := { init with
  ss := (∅ : Map SessionId Session).insert bobSession
    ⟨bobSession, emptyPeerId, ⟨bob.id, some halo⟩, some 1⟩ }

def aliceEnters : Call := ⟨alice.id, some halo, [bobSession], [bobSession]⟩

def aliceLeaves : Call := ⟨alice.id, none, [bobSession], [bobSession]⟩

lemma bobPlays_notifiable (r : Room) : Notifiable bobPlays r := by
  refine ⟨RWMutex.free_readable, ?_⟩
  rintro sid ⟨se, hl, -, hn⟩
  rcases lookup_insert_eq_some hl with ⟨-, rfl⟩ | hl
  · cases hn
  · cases hl

theorem aliceEnters_moves : ∃ w, Run (Steps (step sampleEnv)) (start bobPlays)
    [(start bobPlays, aliceEnters)] w ∧
    AllSteps (MovesUser sampleEnv) [(start bobPlays, aliceEnters)] ∧
    AllStates InLastRoom [(start bobPlays, aliceEnters)] w := by
  have hs : step sampleEnv (start bobPlays) aliceEnters =
      some ⟨_, Function.update _ alice.id (some halo)⟩ := rfl
  have hc : Clean (start bobPlays) aliceEnters :=
    ⟨⟨⟨rfl, rfl⟩, fun r _ => bobPlays_notifiable r⟩, nofun⟩
  have hr : Run (Steps (step sampleEnv)) (start bobPlays) [(start bobPlays, aliceEnters)] _ :=
    .single hs
  exact ⟨_, hr, (moves_users_iff hr).mpr (by simpa using hc)⟩

theorem aliceLeaves_stays : ∃ tr w, tr.map Prod.snd = [aliceEnters, aliceLeaves] ∧
    Run (Steps (step sampleEnv)) (start bobPlays) tr w ∧
    w.s.userRoomMap.lookup alice.id = some halo ∧ ¬ InLastRoom w := by
  have hend : (exec (step sampleEnv) (start bobPlays) [aliceEnters, aliceLeaves]).any (fun w =>
      decide (w.s.userRoomMap.lookup alice.id = some halo ∧ w.last alice.id = none)) = true :=
    rfl
  obtain ⟨tr, w, ha, hr, hd⟩ := exec_any _ hend
  obtain ⟨hin, hlast⟩ := of_decide_eq_true hd
  refine ⟨tr, w, ha, hr, hin, fun h => ?_⟩
  cases hin.symm.trans ((h alice.id).trans hlast)

end Samples

end XbTunnel.Server.Membership
