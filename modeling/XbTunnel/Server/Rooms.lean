import XbTunnel.Server.Invariant

/-! The two records of a user's room. `makeAndChangeRoom` writes one of them, `changeUserRoom` the
other one. -/

namespace XbTunnel.Server.Rooms

open Common Lib.Effects Lib.Maps Lib.Runs

variable {env : Env} {s t : State}

def Addresses (s : State) (id : RoomId) (sid : SessionId) : Prop :=
  ∃ se, s.ss.lookup sid = some se ∧ InRoom id se

def Places (s : State) (id : RoomId) (sid : SessionId) : Prop :=
  ∃ se, s.ss.lookup sid = some se ∧
    ∃ r, s.userRoomMap.lookup se.localState.userId = some r ∧ r.id = id

structure RecordsAgree (s : State) : Prop where
  curRoom : ∀ sid se, s.ss.lookup sid = some se →
    se.localState.curRoom = s.userRoomMap.lookup se.localState.userId
  addressed : ∀ id sid, Addresses s id sid ↔ Places s id sid

def MakesNoRoom (s : State) (a : Action) : Prop := ∀ sid, ¬ MakesRoom s sid a

structure Roomless (env : Env) (s : State) : Prop where
  sound : Sound env s
  rooms : s.rooms = ∅
  userRoomMap : s.userRoomMap = ∅
  curRoom : ∀ sid se, s.ss.lookup sid = some se → se.localState.curRoom = none

lemma inRoom_iff {id : RoomId} {se : Session} :
    InRoom id se ↔ ∃ r, se.localState.curRoom = some r ∧ r.id = id := by
  simp [InRoom, Option.any_eq_true]

def addressee (s : State) (id : RoomId) (sid : SessionId) : Option ConnId :=
  (s.ss.lookup sid).bind fun se => if InRoom id se then se.encoder else none

def Tells (s t : State) (cs : List ConnId) : Prop :=
  ∃ new, t.sent = s.sent ++ new ∧ new.map Prod.fst = cs ∧ ∀ m ∈ new, m.2.localState.isSome

lemma Tells.refl (s : State) : Tells s s [] := ⟨[], (List.append_nil _).symm, rfl, nofun⟩

lemma Tells.trans {u : State} {cs cs' : List ConnId} (h : Tells s t cs) (h' : Tells t u cs') :
    Tells s u (cs ++ cs') := by
  obtain ⟨new, hs, rfl, hn⟩ := h
  obtain ⟨new', hs', rfl, hn'⟩ := h'
  refine ⟨new ++ new', ?_, List.map_append, List.forall_mem_append.mpr ⟨hn, hn'⟩⟩
  rw [hs', hs, List.append_assoc]

lemma encode_tells (s : State) (c : ConnId) (ls : LocalState) :
    Tells s { s with sent := s.sent ++ [(c, { localState := some ls })] } [c] :=
  ⟨_, rfl, rfl, List.forall_mem_singleton.mpr rfl⟩

lemma notifyLoop_tells (env : Env) (id : RoomId) (order : List SessionId) (s : State) :
    (notifyLoop env id order).Ensures s
      (fun _ t => Tells s t (order.filterMap (addressee s id))) (fun _ => True)
      (fun _ => False) := by
  induction order generalizing s with
  | nil => exact .refl s
  | cons sid rest ih =>
    rw [notifyLoop, Go.ensures_bind, Go.ensures_get]
    cases hl : s.ss.lookup sid with
    | none =>
      have ha : addressee s id sid = none := by simp [addressee, hl]
      simpa only [List.filterMap_cons, ha] using ih s
    | some os =>
      by_cases hr : InRoom id os
      · simp only [if_pos hr, Go.ensures_bind]
        cases he : os.encoder with
        | none => trivial
        | some c =>
          have ha : addressee s id sid = some c := by simp [addressee, hl, hr, he]
          refine (ih _).mono ?_ (fun _ h => h) fun _ h => h
          intro _ t ht
          rw [List.filterMap_cons, ha]
          exact (encode_tells s c _).trans ht
      · simp only [if_neg hr]
        have ha : addressee s id sid = none := by simp [addressee, hl, hr]
        simpa only [List.filterMap_cons, ha] using ih s

lemma RecordsAgree.of_curRoom (h : ∀ sid se, s.ss.lookup sid = some se →
    se.localState.curRoom = s.userRoomMap.lookup se.localState.userId) : RecordsAgree s where
  curRoom := h
  addressed id sid := by
    apply exists_congr
    intro se
    apply and_congr_right
    intro hl
    rw [inRoom_iff, h sid se hl]

lemma Roomless.recordsAgree (h : Roomless env s) : RecordsAgree s := by
  apply RecordsAgree.of_curRoom
  intro sid se hl
  rw [h.curRoom sid se hl, h.userRoomMap, Finmap.lookup_empty]

lemma roomless_init (env : Env) : Roomless env init where
  sound := sound_init env
  rooms := rfl
  userRoomMap := rfl
  curRoom sid se h := by simp [init] at h

lemma step_rooms {a : Action} (h : Sound env s) (hs : step env s a = some t)
    (ha : MakesNoRoom s a) : t.rooms = s.rooms := by
  cases step_effect h hs with
  | made hm => exact absurd hm (ha _)
  | moved _ hm => exact hm.rooms
  | @selected c _ _ _ _ sid => rw [attach_eq]; rfl
  | @finished c => rw [detach_eq]; rfl
  | _ => rfl

lemma step_makes_room {a : Action} (h : Sound env s) (hs : step env s a = some t)
    (ha : ¬ MakesNoRoom s a) : ∃ r : Room, t.rooms.lookup r.id = some r := by
  obtain ⟨sid, hm⟩ := not_forall_not.mp ha
  obtain ⟨_, hmade⟩ := made_of_makesRoom h hs hm
  obtain ⟨r, rfl, -, hr⟩ := hmade.ss
  exact ⟨r, hr ▸ Finmap.lookup_insert _⟩

lemma step_userRoomMap {a : Action} (h : Sound env s) (hs : step env s a = some t)
    (hr : s.rooms = ∅) : t.userRoomMap = s.userRoomMap := by
  cases step_effect h hs with
  | made _ hm => exact hm.userRoomMap
  | moved hm =>
    rw [hr] at hm
    exact absurd hm Finmap.notMem_empty
  | selected => rw [attach_eq]; rfl
  | finished => rw [detach_eq]; rfl
  | _ => rfl

lemma Roomless.step {a : Action} (h : Roomless env s) (hs : step env s a = some t)
    (ha : MakesNoRoom s a) : Roomless env t where
  sound := h.sound.step hs
  rooms := (step_rooms h.sound hs ha).trans h.rooms
  userRoomMap := (step_userRoomMap h.sound hs h.rooms).trans h.userRoomMap
  curRoom sid se hl := by
    cases step_session h.sound hs hl with
    | stays hl' | attached hl' | detached _ _ hl' =>
      have hc := h.curRoom sid _ hl'
      exact hc
    | created => rfl
    | entered hm => exact absurd hm (ha sid)

lemma made_disagree {a : Action} (h : Roomless env s) (hs : step env s a = some t)
    (ha : ¬ MakesNoRoom s a) : ¬ RecordsAgree t := by
  obtain ⟨sid, hm⟩ := not_forall_not.mp ha
  obtain ⟨_, hmade⟩ := made_of_makesRoom h.sound hs hm
  have hmem : sid ∈ s.ss := by
    cases a with
    | postRooms => exact hm.2.2.2.1
    | _ => exact hm.elim
  obtain ⟨se, hl⟩ := Finmap.mem_iff.mp hmem
  obtain ⟨r, hl'⟩ := hmade.lookup hl
  intro hagree
  have hcur := hagree.curRoom sid _ hl'
  rw [hmade.userRoomMap, h.userRoomMap, Finmap.lookup_empty] at hcur
  cases hcur

theorem records_agree_iff {tr : List (State × Action)} {u : State}
    (h : Run (Steps (step env)) init tr u) :
    AllStates RecordsAgree tr u ↔ AllSteps MakesNoRoom tr :=
  h.all_states_iff (Roomless env) (fun _ => Roomless.recordsAgree) (fun _ _ _ => Roomless.step)
    (fun _ _ _ => made_disagree) (roomless_init env)

section Samples

def asksForRoom : Action → Bool
  | .postRooms (some _) _ _ _ _ _ => true
  | _ => false

lemma makesNoRoom_of_not_asksForRoom {a : Action} (h : asksForRoom a = false) :
    MakesNoRoom s a := by
  intro sid hm
  cases a with
  | postRooms sessionid name description id order₁ order₂ =>
    rw [hm.1] at h
    cases h
  | _ => exact hm.elim

def quietDay : List Action :=
  bothLogIn ++ [.connect 0, .request 0 (tokenReq alice) [bobSession, aliceSession],
    .changeroom (some aliceSession.toString) gameRoom [aliceSession, bobSession]
      [aliceSession, bobSession] [aliceSession, bobSession],
    .postRooms none (some "halo") (some "2v2") gameRoom [aliceSession, bobSession]
      [aliceSession, bobSession]]

theorem quietDay_agrees : ∃ tr u, tr.map Prod.snd = quietDay ∧
    Run (Steps (step sampleEnv)) init tr u ∧ AllStates RecordsAgree tr u := by
  have hok : ∀ s a, (!asksForRoom a) = true → MakesNoRoom s a :=
    fun _ _ h => makesNoRoom_of_not_asksForRoom ((Bool.not_eq_true' _).mp h)
  obtain ⟨tr, u, ha, hr, hs⟩ := follow_run (step sampleEnv) _ hok init quietDay rfl
  exact ⟨tr, u, ha, hr, (records_agree_iff hr).mpr hs⟩

def roomDay : List Action :=
  bothLogIn ++ [.connect 0, .request 0 (tokenReq alice) [bobSession, aliceSession],
    .postRooms (some aliceSession.toString) (some "halo") (some "2v2") gameRoom
      [aliceSession, bobSession] [aliceSession, bobSession]]

theorem roomDay_disagrees : ∃ tr u, tr.map Prod.snd = roomDay ∧
    Run (Steps (step sampleEnv)) init tr u ∧ ¬ RecordsAgree u := by
  have hend : (exec (step sampleEnv) init roomDay).any (fun u =>
      decide ((u.ss.lookup aliceSession).map (fun se => (se.localState.userId,
        se.localState.curRoom.isSome)) = some (alice.id, true)
      ∧ u.userRoomMap.lookup alice.id = none)) = true := rfl
  obtain ⟨tr, u, ha, hr, hd⟩ := exec_any _ hend
  obtain ⟨hse, hmap⟩ := of_decide_eq_true hd
  refine ⟨tr, u, ha, hr, fun hagree => ?_⟩
  obtain ⟨se, hl, he⟩ := Option.map_eq_some_iff.mp hse
  have hcur := hagree.curRoom aliceSession se hl
  rw [Prod.mk.injEq] at he
  rw [he.1, hmap] at hcur
  simp [hcur] at he

end Samples

end XbTunnel.Server.Rooms
