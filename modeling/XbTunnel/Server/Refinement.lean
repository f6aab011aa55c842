import XbTunnel.Server.Growth
import XbTunnel.Server.Uninterrupted

/-! The site refines the server. Whatever its handlers do to the two stores, the server could have
done from the start with the users that are in the database in the end. -/

namespace XbTunnel.Server.Api

open Common Lib.Effects Lib.Maps Lib.Runs Accounts Cookies Logins Growth

structure Extends (env env' : Env) (s : State) : Prop where
  makeLocalState : env'.makeLocalState = env.makeLocalState
  users : ∃ more, env'.users = env.users ++ more ∧ ∀ u ∈ more, Free s u.id.oid

variable {B : Bcrypt} {C : String → String} {makeLocalState : State → LocalState}
  {env env' env'' : Env} {s t : State} {w w' : Web} {a : Server.Action}

section Extends

lemma Extends.refl (env : Env) (s : State) : Extends env env s :=
  ⟨rfl, [], (List.append_nil _).symm, fun _ hu => by cases hu⟩

lemma Extends.trans (h : Extends env env' s) (h' : Extends env' env'' s) :
    Extends env env'' s := by
  obtain ⟨more, hm, hf⟩ := h.users
  obtain ⟨more', hm', hf'⟩ := h'.users
  refine ⟨h'.makeLocalState.trans h.makeLocalState, more ++ more', ?_, ?_⟩
  · rw [hm', hm, List.append_assoc]
  · exact List.forall_mem_append.mpr ⟨hf, hf'⟩

lemma Free.mono {oid : ObjectId} (h : Free t oid) (hg : Grown s t) : Free s oid := by
  refine ⟨fun hm => h.1 ?_, fun hm => h.2 ?_⟩
  · obtain ⟨se, hl⟩ := Finmap.mem_iff.mp hm
    obtain ⟨se', hl', -⟩ := hg.sessions _ se hl
    exact Finmap.mem_of_lookup_eq_some hl'
  · obtain ⟨r, hl⟩ := Finmap.mem_iff.mp hm
    exact Finmap.mem_of_lookup_eq_some (hg.rooms _ r hl)

lemma Extends.mono (h : Extends env env' t) (hg : Grown s t) : Extends env env' s := by
  obtain ⟨more, hm, hf⟩ := h.users
  exact ⟨h.makeLocalState, more, hm, fun u hu => (hf u hu).mono hg⟩

lemma Extends.fresh {oid : ObjectId} (h : Extends env env' t) (hf : Fresh env s oid)
    (ht : ¬ Free t oid) : Fresh env' s oid := by
  obtain ⟨more, hm, hfree⟩ := h.users
  refine ⟨hf.1, hf.2.1, hm ▸ List.forall_mem_append.mpr ⟨hf.2.2, fun u hu he => ht ?_⟩⟩
  exact he ▸ hfree u hu

lemma exists_fresh (env : Env) (s : State) : ∃ oid, Fresh env s oid := by
  obtain ⟨oid, h⟩ := Infinite.exists_notMem_finset (s.ss.keys.image SessionId.oid ∪
    (s.rooms.keys.image RoomId.oid ∪ (env.users.map fun u => u.id.oid).toFinset))
  simp only [Finset.mem_union, Finset.mem_image, List.mem_toFinset, List.mem_map, not_or,
    not_exists, not_and] at h
  exact ⟨oid, fun hm => h.1 _ (Finmap.mem_keys.mpr hm) rfl,
    fun hm => h.2.1 _ (Finmap.mem_keys.mpr hm) rfl, h.2.2⟩

end Extends

section Calls

lemma scan_approximates {test test' : Session → Option Bool}
    (h : ∀ se b, test se = some b → test' se = some b) (order : List SessionId) :
    Go.Approximates (scan test order) (scan test' order) := by
  induction order with
  | nil => exact Go.approximates_refl _
  | cons sid rest ih =>
    rw [scan, scan]
    refine (Go.approximates_refl _).bind fun s => ?_
    cases s.ss.lookup sid with
    | none => exact ih
    | some se =>
      refine (Go.approximates_refl _).bind fun _ => .deferred (fun s => ⟨_, rfl⟩) ?_
      cases ht : test se with
      | none => exact Go.approximates_panic _
      | some b =>
        rw [h se b ht]
        cases b with
        | true => exact Go.approximates_refl _
        | false => exact ih

lemma ofToken_append (users more : List User) (token : Token) (se : Session) (b : Bool)
    (h : ofToken users token se = some b) : ofToken (users ++ more) token se = some b := by
  rw [ofToken, Option.map_eq_some_iff] at h
  obtain ⟨user, hu, rfl⟩ := h
  rw [ofToken, List.find?_append, hu]
  rfl

lemma handleReq_approximates (h : Extends env env' t) (c : ConnId) (req : ServerReq)
    (order : List SessionId) :
    Go.Approximates (handleReq env c req order) (handleReq env' c req order) := by
  obtain ⟨more, hm, -⟩ := h.users
  refine Go.Approximates.bind ?_ fun _ => Go.approximates_refl _
  cases req.token with
  | none => exact Go.approximates_refl _
  | some token =>
    rw [selectSession, selectSession]
    refine Go.Approximates.bind ?_ fun _ => Go.approximates_refl _
    refine (Go.approximates_refl _).bind fun _ => .deferred (fun s => ⟨_, rfl⟩) ?_
    rw [hm]
    exact scan_approximates (ofToken_append env.users more token) order

lemma request_extends (hx : Extends env env' t) {c : ConnId} {req : ServerReq}
    {order : List SessionId} (h : request env c req order s = some t) :
    request env' c req order s = some t := by
  rw [request] at h ⊢
  rw [(handleReq_approximates hx c req order s).resolve_left ?_]
  · exact h
  · rintro ⟨u, hu⟩
    rw [hu] at h
    cases h

section SameRooms

variable (h : env'.makeLocalState = env.makeLocalState)

include h

lemma notifyLoop_congr (id : RoomId) (order : List SessionId) :
    notifyLoop env' id order = notifyLoop env id order := by
  induction order with
  | nil => rfl
  | cons sid rest ih => rw [notifyLoop, notifyLoop, ih, h]

lemma notifyRoom_congr (id : RoomId) (order : List SessionId) :
    notifyRoom env' id order = notifyRoom env id order := by
  rw [notifyRoom, notifyRoom, notifyLoop_congr h]

lemma postRooms_congr (sessionid name description : Option String) (id : RoomId)
    (order₁ order₂ : List SessionId) :
    postRooms env' sessionid name description id order₁ order₂ =
      postRooms env sessionid name description id order₁ order₂ := by
  simp only [postRooms, makeAndChangeRoom, notifyRoom_congr h]

lemma changeroom_congr (sessionid : Option String) (roomId : RoomId)
    (order₁ order₂ order₃ : List SessionId) :
    changeroom env' sessionid roomId order₁ order₂ order₃ =
      changeroom env sessionid roomId order₁ order₂ order₃ := by
  simp only [changeroom, changeUserRoom, leaveRoom, enterRoom, notifyRoom_congr h]

end SameRooms

end Calls

section Ids

variable {sessionid name description : Option String} {id id' : RoomId}
  {order order₁ order₂ : List SessionId}

lemma nextRoomId_eq (id : RoomId) (s : State) : nextRoomId id s =
    if s.roomIdsLeft = 0 then .hang s
    else .ok id { s with roomIdsLeft := s.roomIdsLeft - 1 } := by
  change (if s.roomIdsLeft = 0 then Go.hang else _ : Go State RoomId) s = _
  split <;> rfl

lemma newRoom_blocked (name desc : String)
    (hb : ¬ Lockable s.rmsLock ∨ s.roomIdsLeft = 0) : ∃ rmsLock, ∀ id,
      newRoom name desc id s = .hang { s with rmsLock } := by
  by_cases hk : Lockable s.rmsLock
  · obtain ⟨k, hl⟩ : ∃ k, rmsMutex.lock s = .ok () (rmsMutex.set k s) := ⟨_, if_pos hk⟩
    have h0 : (rmsMutex.set k s).roomIdsLeft = 0 := hb.resolve_left (not_not_intro hk)
    refine ⟨k, fun id => ?_⟩
    change Go.bind rmsMutex.lock _ s = _
    rw [Go.bind, hl]
    change Go.deferred _ (Go.bind (nextRoomId id) _) _ = _
    rw [Go.deferred, Go.bind, nextRoomId_eq, if_pos h0]
    rfl
  · obtain ⟨k, hl⟩ : ∃ k, rmsMutex.lock s = .hang (rmsMutex.set k s) := ⟨_, if_neg hk⟩
    refine ⟨k, fun id => ?_⟩
    change Go.bind rmsMutex.lock _ s = _
    rw [Go.bind, hl]
    rfl

lemma postRooms_blocked (hs : Sound env s) (hv : Visits s.ss order₁)
    (hb : ¬ Lockable s.rmsLock ∨ s.roomIdsLeft = 0) :
    serve (postRooms env sessionid name description id order₁ order₂) s =
      serve (postRooms env sessionid name description id' order₁ order₂) s := by
  have hget := getSessionByRequest_ensures sessionid hs hv
  change (Go.bind _ _ s).state = (Go.bind _ _ s).state
  rw [Go.bind, Go.bind]
  cases ho : getSessionByRequest sessionid order₁ s with
  | panic t | hang t => rfl
  | ok r t =>
    obtain ⟨rfl, -⟩ := hget.of_ok ho
    cases r with
    | none => rfl
    | some sid =>
      cases name with
      | none => rfl
      | some name =>
        cases description with
        | none => rfl
        | some desc =>
          obtain ⟨k, hk⟩ := newRoom_blocked name desc hb
          change (Go.bind (newRoom name desc id) _ _).state =
            (Go.bind (newRoom name desc id') _ _).state
          rw [Go.bind, Go.bind, hk, hk]

lemma postRooms_other (hs : Sound env s) (hv₁ : Visits s.ss order₁) (hv₂ : Visits s.ss order₂)
    (hm : ∀ sid, ¬ MakesRoom s sid (.postRooms sessionid name description id order₁ order₂)) :
    serve (postRooms env sessionid name description id order₁ order₂) s =
      serve (postRooms env sessionid name description id' order₁ order₂) s := by
  by_cases hb : ¬ Lockable s.rmsLock ∨ s.roomIdsLeft = 0
  · exact postRooms_blocked hs hv₁ hb
  · have hstays : ∀ id, serve (postRooms env sessionid name description id order₁ order₂) s = s := by
      intro id
      have he : Effect env s (.postRooms sessionid name description id order₁ order₂)
          (serve (postRooms env sessionid name description id order₁ order₂) s) :=
        postRooms_effect hs hv₁ hv₂
      generalize serve (postRooms env sessionid name description id order₁ order₂) s = t at he ⊢
      cases he with
      | refused => rfl
      | blocked hb' => exact absurd hb' hb
      | made hm' => exact absurd hm' (hm _)
    rw [hstays, hstays]

end Ids

section Steps

lemma makesRoom_id {sessionid name description : Option String} {id : RoomId}
    {order₁ order₂ : List SessionId} {sid : SessionId} (hs : Sound env s)
    (h : Server.step env s (.postRooms sessionid name description id order₁ order₂) = some t)
    (hm : MakesRoom s sid (.postRooms sessionid name description id order₁ order₂)) :
    id ∈ t.rooms := by
  cases step_effect hs h with
  | refused hn => exact absurd hm (hn sid)
  | blocked hb => exact (not_or.mpr ⟨not_not_intro hm.2.2.2.2.2.1, hm.2.2.2.2.2.2⟩ hb).elim
  | made _ hmade =>
    obtain ⟨r, rfl, -, hrooms⟩ := hmade.ss
    rw [hrooms]
    exact Finmap.mem_insert.mpr (.inl rfl)

lemma loginCreate_other {l : LoginId} {pid : PeerId} {sid sid' : SessionId}
    (hk : ¬ Lockable s.ssLock) : loginCreate l pid sid s = loginCreate l pid sid' s := by
  rw [loginCreate, loginCreate, createSession_eq, createSession_eq, if_neg hk, if_neg hk]

lemma step_extends (hs : Sound env s) (hx : Extends env env' t)
    (h : Server.step env s a = some t) : ∃ a', Server.step env' s a' = some t := by
  cases a with
  | loginCheck l pid order =>
    obtain ⟨⟨hi, hm, hv⟩, ht⟩ := Option.ite_none_right_eq_some.mp h
    obtain ⟨more, hmore, -⟩ := hx.users
    refine ⟨.loginCheck l pid order, (if_pos ⟨hi, ?_, hv⟩).trans ht⟩
    rw [hmore, List.map_append]
    exact List.mem_append_left _ hm
  | loginCreate l sid =>
    simp only [Server.step] at h
    split at h
    · rename_i pid hm
      obtain ⟨hf, ht⟩ := Option.ite_none_right_eq_some.mp h
      obtain rfl := Option.some.inj ht
      by_cases hk : Lockable s.ssLock
      · refine ⟨.loginCreate l sid, ?_⟩
        have hf' : Fresh env' s sid.oid := hx.fresh hf fun hfree => hfree.1 ?_
        · simp only [Server.step, hm, if_pos hf']
        · rw [loginCreate, createSession_eq, if_pos hk]
          exact Finmap.mem_insert.mpr (.inl rfl)
      · -- the login waits, and a new user may get the id that its session would have had
        obtain ⟨oid, hf'⟩ := exists_fresh env' s
        refine ⟨.loginCreate l ⟨oid⟩, ?_⟩
        simp only [Server.step, hm, if_pos hf']
        exact congrArg some (loginCreate_other hk)
    all_goals cases h
  | postRooms sessionid name description id order₁ order₂ =>
    obtain ⟨⟨hf, hv₁, hv₂⟩, ht⟩ := Option.ite_none_right_eq_some.mp h
    by_cases hm : ∃ sid, MakesRoom s sid (.postRooms sessionid name description id order₁ order₂)
    · obtain ⟨sid, hm⟩ := hm
      refine ⟨.postRooms sessionid name description id order₁ order₂, ?_⟩
      have hf' : Fresh env' s id.oid := hx.fresh hf fun hfree => hfree.2 ?_
      · rw [Server.step, if_pos ⟨hf', hv₁, hv₂⟩, postRooms_congr hx.makeLocalState]
        exact ht
      · exact makesRoom_id hs h hm
    · obtain ⟨oid, hf'⟩ := exists_fresh env' s
      refine ⟨.postRooms sessionid name description ⟨oid⟩ order₁ order₂, ?_⟩
      rw [Server.step, if_pos ⟨hf', hv₁, hv₂⟩, postRooms_congr hx.makeLocalState,
        ← postRooms_other hs hv₁ hv₂ (not_exists.mp hm)]
      exact ht
  | changeroom sessionid roomId order₁ order₂ order₃ =>
    refine ⟨.changeroom sessionid roomId order₁ order₂ order₃, ?_⟩
    rw [Server.step, changeroom_congr hx.makeLocalState]
    exact h
  | request c req order =>
    obtain ⟨hc, ht⟩ := Option.ite_none_right_eq_some.mp h
    exact ⟨.request c req order, (if_pos hc).trans (request_extends hx ht)⟩
  | connect c => exact ⟨.connect c, h⟩
  | decodeError c => exact ⟨.decodeError c, h⟩
  | finish c => exact ⟨.finish c, h⟩
  | tick c => exact ⟨.tick c, h⟩

end Steps

section Site

lemma register_extends (n p salt : Bytes) {inserted : Except String PeerId}
    (hu : Unused w.server inserted) :
    Extends (w.env C makeLocalState)
      ⟨(register B C n p salt inserted w.db).1.users (C "xbtusers"), makeLocalState⟩ w.server := by
  refine ⟨rfl, ?_⟩
  obtain ⟨id, hash, -, rfl, he⟩ | ⟨-, err, he⟩ :=
    register_cases (B := B) (C := C) n p salt inserted w.db <;> rw [he]
  · by_cases hc : C "xbtusers" = C "Users"
    · refine ⟨[⟨id, n, hash, issuedToken⟩], ?_, List.forall_mem_singleton.mpr hu⟩
      rw [hc, insertUser_users_self, Web.env, hc]
    · exact ⟨[], by rw [insertUser_users_of_ne hc, List.append_nil, Web.env],
        fun _ hu => by cases hu⟩
  · exact ⟨[], (List.append_nil _).symm, fun _ hu => by cases hu⟩

inductive Shows (B : Bcrypt) (C : String → String) (makeLocalState : State → LocalState)
    (w w' : Web) : Prop
  | quiet : w'.server = w.server →
      Extends (w.env C makeLocalState) (w'.env C makeLocalState) w.server →
      Shows B C makeLocalState w w'
  | step (a : Server.Action) : w'.db = w.db →
      Server.step (w.env C makeLocalState) w.server a = some w'.server →
      Shows B C makeLocalState w w'

lemma step_shows {op : Op} (hi : Inv B C makeLocalState w)
    (hs : step B C makeLocalState w op = some w') : Shows B C makeLocalState w w' := by
  cases op with
  | tcp a =>
    obtain ⟨-, hs⟩ := Option.ite_none_right_eq_some.mp hs
    obtain ⟨t, ht, rfl⟩ := Option.map_eq_some_iff.mp hs
    exact .step a rfl ht
  | register l n p salt inserted =>
    obtain ⟨⟨-, -, hu⟩, hs⟩ := Option.ite_none_right_eq_some.mp hs
    split at hs
    · rename_i n p _
      obtain rfl := Option.some.inj hs
      exact .quiet rfl (register_extends n p salt hu)
    · obtain rfl := Option.some.inj hs
      exact .quiet rfl (.refl _ _)
  | login l n p =>
    obtain ⟨-, hs⟩ := Option.ite_none_right_eq_some.mp hs
    split at hs <;> obtain rfl := Option.some.inj hs
    · exact .quiet rfl (.refl _ _)
    · exact .quiet rfl (.refl _ _)
  | find l pick =>
    simp only [Api.step] at hs
    split at hs
    · obtain rfl := Option.some.inj hs
      exact .quiet rfl (.refl _ _)
    · cases hs
  | check l order =>
    simp only [Api.step] at hs
    split at hs
    · obtain ⟨t, ht, rfl⟩ := Option.map_eq_some_iff.mp hs
      exact .step _ rfl ht
    · cases hs
  | create l sid =>
    obtain ⟨t, ht, rfl⟩ := Option.map_eq_some_iff.mp hs
    exact .step _ rfl ht
  | visit page cookies ch =>
    obtain ⟨⟨hf, hv₁, hv₂, hv₃⟩, hs⟩ := Option.ite_none_right_eq_some.mp hs
    obtain rfl := Option.some.inj hs
    rcases visit_step C w.db cookies page hi.sound hf hv₁ hv₂ hv₃ with he | ⟨a, -, ht⟩
    · exact .quiet he (.refl _ _)
    · exact .step a rfl ht

lemma Shows.extends (h : Shows B C makeLocalState w w')
    (hx : Extends (w'.env C makeLocalState) env w'.server)
    (hs : Sound (w.env C makeLocalState) w.server) :
    Extends (w.env C makeLocalState) env w.server := by
  cases h with
  | quiet he hw => exact hw.trans (he ▸ hx)
  | step a hd ht =>
    rw [Web.env, hd] at hx
    exact hx.mono (step_grown hs ht)

lemma run_refines {tr : List (Web × Op)} (h : Run (Steps (step B C makeLocalState)) w tr w')
    (hi : Inv B C makeLocalState w) :
    Extends (w.env C makeLocalState) (w'.env C makeLocalState) w.server ∧
      ∃ tr', Run (Steps (Server.step (w'.env C makeLocalState))) w.server tr' w'.server ∧
        SeenAs Web.server tr w' tr' := by
  induction h with
  | nil => exact ⟨.refl _ _, [], .nil, .nil _ _⟩
  | cons he hr ih =>
    obtain ⟨hx, tr', hr', hseen⟩ := ih (hi.step he)
    have hshows := step_shows hi he
    refine ⟨hshows.extends hx hi.sound, ?_⟩
    cases hshows with
    | quiet hq _ => exact ⟨tr', hq ▸ hr', hseen.quiet hr hq⟩
    | step a hd ht =>
      rw [Web.env, hd] at hx
      obtain ⟨a', ha'⟩ := step_extends hi.sound hx ht
      exact ⟨_, .cons ha' hr', hseen.moves⟩

end Site

/-- Every run of the site is one of the server, which from the start has the users that the database
has in the end. What holds of every state of that run holds of those of the site. -/
theorem site_refines (db : Db) {tr : List (Web × Op)}
    (h : Run (Steps (step B C makeLocalState)) (start C db) tr w) :
    ∃ tr', Run (Steps (Server.step (w.env C makeLocalState))) init tr' w.server ∧
      (tr'.map Prod.fst).Sublist (tr.map fun p => p.1.server) ∧
      ∀ P : State → Prop, AllStates P tr' w.server → AllStates (fun w => P w.server) tr w := by
  obtain ⟨-, tr', hr, hseen⟩ := run_refines h (inv_start db)
  exact ⟨tr', hr, hseen.order, fun _ hP => hseen.allStates hP⟩

section Samples

theorem aliceEnters_refines : ∃ tr w, tr.map Prod.snd = aliceEnters ∧
    Run (Steps (sampleSite oneCollection)) (start oneCollection emptyDb) tr w ∧
    w.server.ss.lookup aliceSession = some (newSession alice.id aliceSession) ∧
    ∃ tr', Run (Steps (Server.step (w.env oneCollection fun _ => LocalState.zero))) init tr'
        w.server ∧
      (tr'.map Prod.fst).Sublist (tr.map fun p => p.1.server) ∧
      ∀ P : State → Prop, AllStates P tr' w.server → AllStates (fun w => P w.server) tr w := by
  have hend : (exec (sampleSite oneCollection) (start oneCollection emptyDb) aliceEnters).any
      (fun w => decide (w.server.ss.lookup aliceSession =
        some (newSession alice.id aliceSession))) = true := rfl
  obtain ⟨tr, w, ha, hr, hd⟩ := exec_any _ hend
  exact ⟨tr, w, ha, hr, of_decide_eq_true hd, site_refines emptyDb hr⟩

end Samples

end XbTunnel.Server.Api
