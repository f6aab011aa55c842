import XbTunnel.Server.Growth

/-! The rooms of users. The handler of `changeroom` moves the user that `Session.UserId` names,
which nothing sets. -/

namespace XbTunnel.Server.Seat

open Common Lib.Effects Lib.Maps Lib.Runs

structure OneSeat (s : State) : Prop where
  userId : ∀ sid se, s.ss.lookup sid = some se → se.userId = emptyPeerId
  keyed : ∀ id r, s.rooms.lookup id = some r → r.id = id
  seat : ∀ pid r, s.userRoomMap.lookup pid = some r →
    pid = emptyPeerId ∧ s.rooms.lookup r.id = some r

/-- A room that is new in the map is the one that the request asks for, with anyone's cookie. -/
def Reseats (env : Env) (s : State) (a : Action) : Prop :=
  ∀ t, step env s a = some t → ∀ pid r, t.userRoomMap.lookup pid = some r →
    s.userRoomMap.lookup pid = some r ∨ ∃ sid ∈ s.ss, ∃ order₁ order₂ order₃,
      a = .changeroom (some sid.toString) r.id order₁ order₂ order₃

variable {env : Env} {s t u : State} {a : Action} {pid : PeerId} {room : Option Room}
  {order order₁ order₂ order₃ : List SessionId}

structure Seats (pid : PeerId) (room : Option Room) (s t : State) : Prop where
  ss : t.ss = s.ss
  rooms : t.rooms = s.rooms
  seat : ∀ pid' r, t.userRoomMap.lookup pid' = some r →
    s.userRoomMap.lookup pid' = some r ∨ pid' = pid ∧ room = some r

instance (pid : PeerId) (room : Option Room) : IsPreorder State (Seats pid room) where
  refl s := ⟨rfl, rfl, fun _ _ => .inl⟩
  trans s t u h h' := by
    refine ⟨h'.ss.trans h.ss, h'.rooms.trans h.rooms, fun pid' r hr => ?_⟩
    rcases h'.seat pid' r hr with hr | hr
    · exact h.seat pid' r hr
    · exact .inr hr

lemma seats_of_eq (hss : t.ss = s.ss) (hrooms : t.rooms = s.rooms)
    (hmap : t.userRoomMap = s.userRoomMap) : Seats pid room s t :=
  ⟨hss, hrooms, fun _ _ hr => .inl (hmap ▸ hr)⟩

section Calls

open Go Mutex

lemma notifyLoop_seats (env : Env) (id : RoomId) (order : List SessionId) :
    Relates (Seats pid room) (notifyLoop env id order) := by
  induction order with
  | nil => exact relates_pure ()
  | cons sid rest ih =>
    rw [notifyLoop]
    refine relates_get.bind fun s => ?_
    split
    · exact ih
    · rename_i os _
      split
      · refine Relates.bind ?_ fun _ => ih
        cases os.encoder with
        | none => exact relates_panic
        | some c => exact relates_modify fun s => seats_of_eq rfl rfl rfl
      · exact ih

lemma notifyRoom_seats (env : Env) (id : RoomId) (order : List SessionId) :
    Relates (Seats pid room) (notifyRoom env id order) := by
  have hset : ∀ l s, Seats pid room s (ssMutex.set l s) := fun _ _ => seats_of_eq rfl rfl rfl
  apply (relates_rLock hset).bind
  intro _
  apply (notifyLoop_seats env id order).bind
  intro _
  exact relates_rUnlock hset

lemma changeUserRoom_seats (env : Env) (pid : PeerId) (room : Option Room)
    (order₁ order₂ : List SessionId) :
    Relates (Seats pid room) (changeUserRoom env pid room order₁ order₂) := by
  have hset : ∀ l s, Seats pid room s (rmsMutex.set l s) := fun _ _ => seats_of_eq rfl rfl rfl
  apply (relates_lock hset).bind
  intro _
  apply Relates.bind
  · rw [leaveRoom]
    refine relates_get.bind fun s => ?_
    split
    · rename_i rid _
      refine Relates.bind (relates_modify fun s => ⟨rfl, rfl, fun pid' r hr => .inl ?_⟩) fun _ =>
        notifyRoom_seats env rid.id order₁
      by_cases he : pid' = ⟨rid.id.oid⟩
      · rw [he, Finmap.lookup_erase] at hr
        cases hr
      · rwa [Finmap.lookup_erase_ne he] at hr
    · exact relates_pure ()
  · intro _
    apply Relates.bind
    · cases room with
      | none => exact relates_pure ()
      | some r =>
        refine Relates.bind (relates_modify fun s => ⟨rfl, rfl, fun pid' r' hr => ?_⟩) fun _ =>
          notifyRoom_seats env r.id order₂
        rcases lookup_insert_eq_some hr with ⟨rfl, rfl⟩ | hr
        · exact .inr ⟨rfl, rfl⟩
        · exact .inl hr
    · intro _
      exact relates_unlock hset

end Calls

structure Changed (s : State) (sessionid : Option String) (roomId : RoomId) (t : State) :
    Prop where
  ss : t.ss = s.ss
  rooms : t.rooms = s.rooms
  seat : ∀ pid r, t.userRoomMap.lookup pid = some r → s.userRoomMap.lookup pid = some r ∨
    pid = emptyPeerId ∧ s.rooms.lookup roomId = some r ∧ ∃ sid ∈ s.ss, sessionid = some sid.toString

lemma changed_refl (s : State) (sessionid : Option String) (roomId : RoomId) :
    Changed s sessionid roomId s :=
  ⟨rfl, rfl, fun _ _ => .inl⟩

lemma Seats.changed {room : Room} {sessionid : Option String} {roomId : RoomId} {sid : SessionId}
    (h : Seats emptyPeerId (some room) s t) (hm : sid ∈ s.ss)
    (hc : sessionid = some sid.toString) (hr : s.rooms.lookup roomId = some room) :
    Changed s sessionid roomId t := by
  refine ⟨h.ss, h.rooms, fun pid r ht => ?_⟩
  rcases h.seat pid r ht with ht | ⟨rfl, he⟩
  · exact .inl ht
  · exact .inr ⟨rfl, hr.trans he, sid, hm, hc⟩

lemma OneSeat.changeroom (h : OneSeat s) (hs : Sound env s) (hv : Visits s.ss order₁)
    (sessionid : Option String) (roomId : RoomId) (order₂ order₃ : List SessionId) :
    Changed s sessionid roomId
      (serve (changeroom env sessionid roomId order₁ order₂ order₃) s) := by
  apply Go.Ensures.state (E := Changed s sessionid roomId)
  rw [Server.changeroom, Go.ensures_bind]
  refine (getSessionByRequest_ensures sessionid hs hv).mono ?_ (fun _ h => h.elim) ?_
  · rintro r _ ⟨rfl, hf⟩
    cases r with
    | none => exact changed_refl ..
    | some sid =>
      obtain ⟨hc, hm, -⟩ := (hf sid).mp rfl
      rw [Go.ensures_bind]
      refine (getRoom_ensures roomId _).mono ?_ (fun _ h => h.elim) ?_
      · rintro room _ ⟨rfl, hroom⟩
        cases room with
        | none => exact changed_refl ..
        | some room =>
          rw [Go.ensures_bind, Go.ensures_get]
          split
          · exact changed_refl ..
          · rename_i se hl
            rw [h.userId sid se hl]
            exact ((changeUserRoom_seats env _ (some room) order₂ order₃).ensures _).mono
              (fun _ _ ht => ht.changed hm hc hroom.symm) (fun _ ht => ht.changed hm hc hroom.symm)
              fun _ ht => ht.changed hm hc hroom.symm
      · rintro _ ⟨rfl, -⟩
        exact changed_refl ..
  · rintro _ ⟨rfl, -⟩
    exact changed_refl ..

lemma step_userRoomMap (hs : Sound env s) (h : step env s a = some t) :
    t.userRoomMap = s.userRoomMap ∨ ∃ sessionid roomId order₁ order₂ order₃,
      a = .changeroom sessionid roomId order₁ order₂ order₃ := by
  cases step_effect hs h with
  | made _ hm => exact .inl hm.userRoomMap
  | moved => exact .inr ⟨_, _, _, _, _, rfl⟩
  | finished =>
    rw [detach_eq]
    exact .inl rfl
  | @selected c _ _ _ _ sid =>
    refine .inl ?_
    change (attach c sid s).userRoomMap = s.userRoomMap
    rw [attach_eq]
    rfl
  | _ => exact .inl rfl

lemma step_rooms_keyed (hs : Sound env s) (h : step env s a = some t)
    (hk : ∀ id r, s.rooms.lookup id = some r → r.id = id) {id : RoomId} {r : Room}
    (hl : t.rooms.lookup id = some r) : r.id = id := by
  cases step_effect hs h with
  | made _ hm =>
    obtain ⟨r', rfl, -, hrooms⟩ := hm.ss
    rw [hrooms] at hl
    rcases lookup_insert_eq_some hl with ⟨rfl, rfl⟩ | hl
    · rfl
    · exact hk id r hl
  | moved _ hm => exact hk id r (hm.rooms ▸ hl)
  | finished =>
    rw [detach_eq] at hl
    exact hk id r hl
  | @selected c _ _ _ _ sid =>
    change (attach c sid s).rooms.lookup id = some r at hl
    rw [attach_eq] at hl
    exact hk id r hl
  | _ => exact hk id r hl

lemma oneSeat_init : OneSeat init where
  userId sid se h := by cases h
  keyed id r h := by cases h
  seat pid r h := by cases h

lemma OneSeat.reseats (h : OneSeat s) (hs : Sound env s) (a : Action) : Reseats env s a := by
  intro t ht pid r hr
  rcases step_userRoomMap hs ht with he | ⟨sessionid, roomId, order₁, order₂, order₃, rfl⟩
  · exact .inl (he ▸ hr)
  · obtain ⟨⟨hv, -⟩, ht⟩ := Option.ite_none_right_eq_some.mp ht
    obtain rfl := Option.some.inj ht
    rcases (h.changeroom hs hv sessionid roomId order₂ order₃).seat pid r hr with
      hr | ⟨-, hroom, sid, hm, rfl⟩
    · exact .inl hr
    · obtain rfl := h.keyed roomId r hroom
      exact .inr ⟨sid, hm, order₁, order₂, order₃, rfl⟩

lemma OneSeat.step (h : OneSeat s) (hs : Sound env s) (ht : step env s a = some t) :
    OneSeat t where
  userId sid se hl := by
    cases step_session hs ht hl with
    | stays hl' | entered _ hl' | attached hl' | detached _ _ hl' =>
      have hi := h.userId sid _ hl'
      exact hi
    | created => rfl
  keyed id r hl := step_rooms_keyed hs ht h.keyed hl
  seat pid r hr := by
    rcases step_userRoomMap hs ht with he | ⟨sessionid, roomId, order₁, order₂, order₃, rfl⟩
    · obtain ⟨hp, hl⟩ := h.seat pid r (he ▸ hr)
      exact ⟨hp, Growth.step_rooms hs ht hl⟩
    · obtain ⟨⟨hv, -⟩, ht'⟩ := Option.ite_none_right_eq_some.mp ht
      obtain rfl := Option.some.inj ht'
      rcases (h.changeroom hs hv sessionid roomId order₂ order₃).seat pid r hr with
        hr | ⟨hp, hroom, -⟩
      · obtain ⟨hp, hl⟩ := h.seat pid r hr
        exact ⟨hp, Growth.step_rooms hs ht hl⟩
      · have hk := h.keyed roomId r hroom
        exact ⟨hp, Growth.step_rooms hs ht (hk ▸ hroom)⟩

theorem one_seat {tr : List (State × Action)} (h : Run (Steps (step env)) init tr u) :
    AllStates OneSeat tr u ∧ AllSteps (Reseats env) tr := by
  have hstep : ∀ s a t, Sound env s ∧ OneSeat s → Steps (step env) s a t →
      Sound env t ∧ OneSeat t := fun s a t hs ht => ⟨hs.1.step ht, hs.2.step hs.1 ht⟩
  have hstart : Sound env init ∧ OneSeat init := ⟨sound_init env, oneSeat_init⟩
  obtain ⟨htr, hu⟩ := h.invariant hstep hstart
  exact ⟨⟨fun x hx => (htr x hx).2, hu.2⟩,
    h.all_steps _ hstep (fun _ a _ hs _ => hs.2.reseats hs.1 a) hstart⟩

section Samples

def bothChange : List Action := bothLogIn ++ [.connect 0,
  .request 0 (tokenReq alice) [aliceSession, bobSession],
  .postRooms (some aliceSession.toString) (some "halo") (some "2v2") gameRoom
    [aliceSession, bobSession] [aliceSession, bobSession],
  .changeroom (some aliceSession.toString) gameRoom [aliceSession, bobSession]
    [aliceSession, bobSession] [aliceSession, bobSession],
  .changeroom (some bobSession.toString) gameRoom [aliceSession, bobSession]
    [aliceSession, bobSession] [aliceSession, bobSession]]

theorem bothChange_one_seat : ∃ tr u, tr.map Prod.snd = bothChange ∧
    Run (Steps (step sampleEnv)) init tr u ∧
    u.userRoomMap.lookup emptyPeerId = some ⟨gameRoom, "halo", "2v2"⟩ ∧
    AllStates OneSeat tr u ∧ AllSteps (Reseats sampleEnv) tr := by
  have hend : (exec (step sampleEnv) init bothChange).any (fun u =>
      decide (u.userRoomMap.lookup emptyPeerId = some ⟨gameRoom, "halo", "2v2"⟩)) = true := rfl
  obtain ⟨tr, u, ha, hr, hd⟩ := exec_any _ hend
  exact ⟨tr, u, ha, hr, of_decide_eq_true hd, one_seat hr⟩

end Samples

end XbTunnel.Server.Seat
