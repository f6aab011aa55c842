import XbTunnel.Server.Spoofing

/-! What the server writes, and to which of its connections. -/

namespace XbTunnel.Server.Emissions

open Common Lib.Effects Lib.Maps Lib.Runs

structure Notice (ss : Map SessionId Session) (id : RoomId) (m : ConnId × ServerResp) : Prop where
  member : ∃ sid se, ss.lookup sid = some se ∧ InRoom id se ∧ se.encoder = some m.1
  body : ∃ ls, m.2 = { localState := some ls }

def Writes (P : ConnId × ServerResp → Prop) (s t : State) : Prop :=
  ∃ new, t.sent = s.sent ++ new ∧ ∀ m ∈ new, P m

structure Tells (P : ConnId × ServerResp → Prop) (s t : State) : Prop where
  ss : t.ss = s.ss
  writes : Writes P s t

variable {env : Env} {s t u : State} {a : Action} {id : RoomId} {order : List SessionId}
  {P P' : ConnId × ServerResp → Prop}

lemma Writes.of_eq (h : t.sent = s.sent) : Writes P s t :=
  ⟨[], by rw [h, List.append_nil], nofun⟩

lemma Writes.trans (h : Writes P s t) (h' : Writes P t u) : Writes P s u := by
  obtain ⟨new, ht, hn⟩ := h
  obtain ⟨new', hu, hn'⟩ := h'
  refine ⟨new ++ new', ?_, List.forall_mem_append.mpr ⟨hn, hn'⟩⟩
  rw [hu, ht, List.append_assoc]

lemma Writes.mono (h : Writes P s t) (hP : ∀ m, P m → P' m) : Writes P' s t := by
  obtain ⟨new, ht, hn⟩ := h
  exact ⟨new, ht, fun m hm => hP m (hn m hm)⟩

lemma Tells.refl (s : State) : Tells P s s := ⟨rfl, .of_eq rfl⟩

lemma Tells.trans (h : Tells P s t) (h' : Tells P t u) : Tells P s u :=
  ⟨h'.ss.trans h.ss, h.writes.trans h'.writes⟩

lemma Tells.mono (h : Tells P s t) (hP : ∀ m, P m → P' m) : Tells P' s t :=
  ⟨h.ss, h.writes.mono hP⟩

section Rooms

lemma notifyLoop_tells (env : Env) (id : RoomId) (order : List SessionId) (s : State) :
    (notifyLoop env id order).Ensures s (fun _ => Tells (Notice s.ss id) s) (Tells (Notice s.ss id) s)
      (fun _ => False) := by
  induction order generalizing s with
  | nil => exact .refl s
  | cons sid rest ih =>
    rw [notifyLoop, Go.ensures_bind, Go.ensures_get]
    cases hl : s.ss.lookup sid with
    | none => exact ih s
    | some os =>
      by_cases hr : InRoom id os
      · simp only [if_pos hr, Go.ensures_bind]
        cases he : os.encoder with
        | none => exact .refl s
        | some c =>
          let m : ConnId × ServerResp := (c, { localState := some (env.makeLocalState s) })
          have hm : Tells (Notice s.ss id) s { s with sent := s.sent ++ [m] } :=
            ⟨rfl, [m], rfl, List.forall_mem_singleton.mpr ⟨⟨sid, os, hl, hr, he⟩, _, rfl⟩⟩
          exact (ih { s with sent := s.sent ++ [m] }).mono (fun _ _ ht => hm.trans ht)
            (fun _ ht => hm.trans ht) fun _ h => h
      · simp only [if_neg hr]
        exact ih s

lemma notifyRoom_tells (env : Env) (id : RoomId) (order : List SessionId) (s : State) :
    (notifyRoom env id order).Ensures s (fun _ => Tells (Notice s.ss id) s) (Tells (Notice s.ss id) s)
      (Tells (Notice s.ss id) s) := by
  rw [notifyRoom, Go.ensures_bind, Mutex.ensures_rLock]
  split
  · rw [Go.ensures_bind]
    have hlocked : Tells (Notice s.ss id) s (ssMutex.acquired s) := ⟨rfl, .of_eq rfl⟩
    refine (notifyLoop_tells env id order (ssMutex.acquired s)).mono ?_ ?_ fun _ h => h.elim
    · intro _ t ht
      exact hlocked.trans ⟨ht.ss, ht.writes⟩
    · intro t ht
      exact hlocked.trans ht
  · exact .refl s

def Touched (s : State) (pid : PeerId) (r : Option Room) (m : ConnId × ServerResp) : Prop :=
  ∃ r', (s.userRoomMap.lookup pid = some r' ∨ r = some r') ∧ Notice s.ss r'.id m

lemma leaveRoom_tells (env : Env) (pid : PeerId) (r : Option Room) (order : List SessionId)
    (s : State) : (leaveRoom env pid order).Ensures s (fun _ => Tells (Touched s pid r) s)
      (Tells (Touched s pid r) s) (Tells (Touched s pid r) s) := by
  rw [leaveRoom, Go.ensures_bind, Go.ensures_get]
  cases hl : s.userRoomMap.lookup pid with
  | none => exact .refl s
  | some rid =>
    have hm : ∀ u, Tells (Notice s.ss rid.id) s u → Tells (Touched s pid r) s u :=
      fun u hu => hu.mono fun m hm => ⟨rid, .inl hl, hm⟩
    simp only [Go.ensures_bind, removeUserFromRoom, Go.ensures_modify]
    exact (notifyRoom_tells env rid.id order _).mono (fun _ u hu => hm u ⟨hu.ss, hu.writes⟩)
      (fun u hu => hm u ⟨hu.ss, hu.writes⟩) fun u hu => hm u ⟨hu.ss, hu.writes⟩

lemma enterRoom_tells (env : Env) (pid : PeerId) (r : Option Room) (order : List SessionId)
    (hs : u.ss = s.ss) : (enterRoom env pid r order).Ensures u
      (fun _ => Tells (Touched s pid r) u) (Tells (Touched s pid r) u)
      (Tells (Touched s pid r) u) := by
  cases r with
  | none => exact .refl u
  | some r =>
    have hm : ∀ v, Tells (Notice u.ss r.id) u v → Tells (Touched s pid (some r)) u v :=
      fun v hv => hv.mono fun m hm => ⟨r, .inr rfl, hs ▸ hm⟩
    simp only [enterRoom, Go.ensures_bind, addUserToRoom, Go.ensures_modify]
    exact (notifyRoom_tells env r.id order _).mono (fun _ v hv => hm v ⟨hv.ss, hv.writes⟩)
      (fun v hv => hm v ⟨hv.ss, hv.writes⟩) fun v hv => hm v ⟨hv.ss, hv.writes⟩

lemma changeUserRoom_tells (env : Env) (pid : PeerId) (r : Option Room)
    (order₁ order₂ : List SessionId) (s : State) :
    (changeUserRoom env pid r order₁ order₂).Ensures s (fun _ => Tells (Touched s pid r) s)
      (Tells (Touched s pid r) s) (Tells (Touched s pid r) s) := by
  rw [changeUserRoom, Go.ensures_bind, Mutex.ensures_lock]
  split
  · rw [Go.ensures_bind]
    refine (leaveRoom_tells env pid r order₁ _).mono ?_ (fun _ h => ⟨h.ss, h.writes⟩)
      fun _ h => ⟨h.ss, h.writes⟩
    intro _ u hu
    have hsu : Tells (Touched s pid r) s u := ⟨hu.ss, hu.writes⟩
    rw [Go.ensures_bind]
    exact (enterRoom_tells env pid r order₂ hsu.ss).mono
      (fun _ v hv => (hsu.trans hv).trans ⟨rfl, .of_eq rfl⟩) (fun v hv => hsu.trans hv)
      fun v hv => hsu.trans hv
  · exact ⟨rfl, .of_eq rfl⟩

lemma makeAndChangeRoom_writes (env : Env) (sid : SessionId) (name desc : String) (id : RoomId)
    (order : List SessionId) (s : State) :
    (makeAndChangeRoom env sid name desc id order).Ensures s
      (fun _ t => Writes (Notice t.ss id) s t) (fun t => Writes (Notice t.ss id) s t)
      (fun t => Writes (Notice t.ss id) s t) := by
  rw [makeAndChangeRoom, Go.ensures_bind]
  refine (newRoom_ensures name desc id s).mono ?_ (fun _ h => h.elim) ?_
  · rintro r _ ⟨hr, -, -, rfl⟩
    obtain rfl : r.id = id := congrArg Room.id hr
    rw [Go.ensures_bind, Go.ensures_modify]
    let v : State := { s with rooms := s.rooms.insert r.id r, roomIdsLeft := s.roomIdsLeft - 1 }
    have hsent : (setCurRoom sid r v).sent = s.sent := by rw [setCurRoom_eq sid r v v rfl]
    have hw : ∀ u, Tells (Notice (setCurRoom sid r v).ss r.id) (setCurRoom sid r v) u →
        Writes (Notice u.ss r.id) s u := fun u hu =>
      (Writes.of_eq hsent).trans (hu.writes.mono fun m hm => hu.ss ▸ hm)
    exact (notifyRoom_tells env r.id order _).mono (fun _ => hw) hw hw
  · rintro _ ⟨-, rmsLock, rfl⟩
    exact .of_eq rfl

end Rooms

/-- What the server can write while it handles an action. -/
inductive Emitted (s t : State) : Action → ConnId × ServerResp → Prop
  | beat {c} : Alive s c → Emitted s t (.tick c) (c, {})
  | relayed {c req order m} : Relayed t c req.pcSignal m → Emitted s t (.request c req order) m
  | opened {sessionid name description id order₁ order₂ m} : Notice t.ss id m →
      Emitted s t (.postRooms sessionid name description id order₁ order₂) m
  | entered {sid roomId order₁ order₂ order₃ r m} : sid ∈ s.ss → s.rooms.lookup roomId = some r →
      Notice t.ss r.id m → Emitted s t (.changeroom (some sid.toString) roomId order₁ order₂ order₃) m
  | left {sid se roomId order₁ order₂ order₃ r m} : s.ss.lookup sid = some se →
      s.userRoomMap.lookup se.userId = some r → Notice t.ss r.id m →
      Emitted s t (.changeroom (some sid.toString) roomId order₁ order₂ order₃) m

section Steps

lemma postRooms_writes {sessionid name description : Option String} {order₁ order₂ : List SessionId}
    (hs : Sound env s) (hv : Visits s.ss order₁) :
    (postRooms env sessionid name description id order₁ order₂).Ensures s
      (fun _ t => Writes (Notice t.ss id) s t) (fun t => Writes (Notice t.ss id) s t)
      (fun t => Writes (Notice t.ss id) s t) := by
  rw [postRooms, Go.ensures_bind]
  refine (getSessionByRequest_ensures sessionid hs hv).mono ?_ (fun _ h => h.elim) ?_
  · rintro r _ ⟨rfl, -⟩
    cases r with
    | none => exact .of_eq rfl
    | some sid =>
      cases name with
      | none => exact .of_eq rfl
      | some name =>
        cases description with
        | none => exact .of_eq rfl
        | some desc => exact makeAndChangeRoom_writes env sid name desc id order₂ _
  · rintro _ ⟨rfl, -⟩
    exact .of_eq rfl

lemma touched_emitted {sid : SessionId} {se : Session} {roomId : RoomId} {room : Room}
    {order₁ order₂ order₃ : List SessionId} (hl : s.ss.lookup sid = some se)
    (hroom : s.rooms.lookup roomId = some room)
    (h : Tells (Touched s se.userId (some room)) s t) :
    Writes (Emitted s t (.changeroom (some sid.toString) roomId order₁ order₂ order₃)) s t := by
  refine h.writes.mono ?_
  rintro m ⟨r, hr, hm⟩
  rcases hr with hr | hr
  · exact .left hl hr (h.ss ▸ hm)
  · obtain rfl := Option.some.inj hr
    exact .entered (Finmap.mem_of_lookup_eq_some hl) hroom (h.ss ▸ hm)

lemma changeroom_writes {sessionid : Option String} {roomId : RoomId}
    {order₁ order₂ order₃ : List SessionId} (hs : Sound env s) (hv : Visits s.ss order₁) :
    (changeroom env sessionid roomId order₁ order₂ order₃).Ensures s
      (fun _ t => Writes (Emitted s t (.changeroom sessionid roomId order₁ order₂ order₃)) s t)
      (fun t => Writes (Emitted s t (.changeroom sessionid roomId order₁ order₂ order₃)) s t)
      (fun t => Writes (Emitted s t (.changeroom sessionid roomId order₁ order₂ order₃)) s t) := by
  rw [changeroom, Go.ensures_bind]
  refine (getSessionByRequest_ensures sessionid hs hv).mono ?_ (fun _ h => h.elim) ?_
  · intro r u hu
    obtain rfl := hu.1.symm
    cases r with
    | none => exact .of_eq rfl
    | some sid =>
      obtain rfl := ((hu.2 sid).mp rfl).1
      rw [Go.ensures_bind]
      refine (getRoom_ensures roomId s).mono ?_ (fun _ h => h.elim) ?_
      · intro room u hu
        obtain rfl := hu.1.symm
        cases room with
        | none => exact .of_eq rfl
        | some room =>
          rw [Go.ensures_bind, Go.ensures_get]
          split
          · exact .of_eq rfl
          · rename_i se hl
            have hroom := hu.2.symm
            exact (changeUserRoom_tells env _ (some room) order₂ order₃ s).mono
              (fun _ _ => touched_emitted hl hroom) (fun _ => touched_emitted hl hroom)
              fun _ => touched_emitted hl hroom
      · rintro u ⟨hu, -⟩
        exact .of_eq (congrArg State.sent hu)
  · intro u hu
    exact .of_eq (congrArg State.sent hu.1)

lemma step_writes (hs : Sound env s) (h : step env s a = some t) :
    Writes (Emitted s t a) s t := by
  cases a with
  | request c req order =>
    obtain ⟨-, hr⟩ := Option.ite_none_right_eq_some.mp h
    obtain ⟨new, hnew, hm⟩ := Spoofing.request_emits hs.readable hr
    exact ⟨new, hnew, fun m hmem => .relayed (hm m hmem)⟩
  | postRooms sessionid name description id order₁ order₂ =>
    obtain ⟨⟨-, hv, -⟩, h⟩ := Option.ite_none_right_eq_some.mp h
    obtain rfl := Option.some.inj h
    apply Go.Ensures.state (E := fun t => Writes (Emitted s t _) s t)
    exact (postRooms_writes hs hv).mono (fun _ _ ht => ht.mono fun m => .opened)
      (fun _ ht => ht.mono fun m => .opened) fun _ ht => ht.mono fun m => .opened
  | changeroom sessionid roomId order₁ order₂ order₃ =>
    obtain ⟨⟨hv, -⟩, h⟩ := Option.ite_none_right_eq_some.mp h
    obtain rfl := Option.some.inj h
    exact Go.Ensures.state (E := fun t => Writes (Emitted s t _) s t) (changeroom_writes hs hv)
  | tick c =>
    obtain ⟨ha, h⟩ := Option.ite_none_right_eq_some.mp h
    obtain rfl := Option.some.inj h
    exact ⟨[(c, {})], rfl, List.forall_mem_singleton.mpr (.beat ha)⟩
  | finish c =>
    cases step_effect hs h
    rw [detach_eq]
    exact .of_eq rfl
  | _ => cases step_effect hs h <;> exact .of_eq rfl

lemma sent_of_step (hs : Sound env s) (h : step env s a = some t) {m : ConnId × ServerResp}
    (hm : m ∈ t.sent) : m ∈ s.sent ∨ Emitted s t a m := by
  obtain ⟨new, ht, hn⟩ := step_writes hs h
  rw [ht, List.mem_append] at hm
  exact hm.imp_right (hn m)

def Accounts (env : Env) (tr : List (State × Action)) (m : ConnId × ServerResp) : Prop :=
  ∃ p ∈ tr, ∃ t, step env p.1 p.2 = some t ∧ Emitted p.1 t p.2 m

lemma sent_of_run {tr : List (State × Action)} (h : Run (Steps (step env)) s tr u)
    (hs : Sound env s) {m : ConnId × ServerResp} (hm : m ∈ u.sent) :
    m ∈ s.sent ∨ Accounts env tr m := by
  induction h with
  | nil => exact .inl hm
  | @cons s t u a tr he _ ih =>
    rcases ih (hs.step he) hm with ht | ⟨p, hp, hrest⟩
    · refine (sent_of_step hs he ht).imp_right fun hem => ?_
      exact ⟨(s, a), List.mem_cons_self, t, he, hem⟩
    · exact .inr ⟨p, List.mem_cons_of_mem _ hp, hrest⟩

end Steps

theorem sent_accounted {tr : List (State × Action)} (h : Run (Steps (step env)) init tr u) :
    ∀ m ∈ u.sent, Accounts env tr m :=
  fun _ hm => (sent_of_run h (sound_init env) hm).resolve_left List.not_mem_nil

section Samples

def aliceHears : List Action :=
  bothLogIn ++ [.connect 0, .request 0 (tokenReq alice) [aliceSession, bobSession],
    .postRooms (some aliceSession.toString) (some "halo") (some "2v2") gameRoom
      [aliceSession, bobSession] [aliceSession, bobSession], .tick 0]

theorem aliceHears_accounted : ∃ tr u, tr.map Prod.snd = aliceHears ∧
    Run (Steps (step sampleEnv)) init tr u ∧ u.sent.length = 2 ∧
    ∀ m ∈ u.sent, Accounts sampleEnv tr m := by
  have hend : (exec (step sampleEnv) init aliceHears).any (fun u => decide (u.sent.length = 2)) =
    true := rfl
  obtain ⟨tr, u, ha, hr, hu⟩ := exec_any _ hend
  exact ⟨tr, u, ha, hr, of_decide_eq_true hu, sent_accounted hr⟩

end Samples

end XbTunnel.Server.Emissions
