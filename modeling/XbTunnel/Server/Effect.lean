import XbTunnel.Server.Lookup

/-! What each action of the server can do to its state. -/

namespace XbTunnel.Server

open Common Lib.Effects Lib.Maps Lib.Runs

structure Sound (env : Env) (s : State) : Prop where
  readable : SessionsReadable s
  keyed : ∀ sid se, s.ss.lookup sid = some se → se.id = sid
  apart : ∀ sid ∈ s.ss, ∀ u ∈ env.users, u.id.oid ≠ sid.oid
  bound : ∀ c sid, (s.conns c).s = some sid → sid ∈ s.ss
  closed : ∀ c, (s.conns c).phase = .closed → (s.conns c).s = none
  writer : s.ssLock.writer = false
  waiting : s.ssLock.waiting = true → s.ssLock.readers ≠ 0

def Mute (s : State) (id : RoomId) (sid : SessionId) : Prop :=
  ∃ se, s.ss.lookup sid = some se ∧ InRoom id se ∧ se.encoder = none

def SentOnly (s t : State) : Prop := ∃ sent, t = { s with sent }

def leak (l : RWMutex) : RWMutex := { l with readers := l.readers + 1 }

def Lockable (l : RWMutex) : Prop := l.writer = false ∧ l.readers = 0

instance (l : RWMutex) : Decidable (Lockable l) := inferInstanceAs (Decidable (_ ∧ _))

def Notified (l : RWMutex) (t : State) : Prop :=
  t.ssLock = l ∨ t.ssLock = leak l ∧ ∃ id sid, Mute t id sid

def MakesRoom (s : State) (sid : SessionId) : Action → Prop
  | .postRooms sessionid name description _ _ _ =>
    sessionid = some sid.toString ∧ name.isSome ∧ description.isSome ∧ sid ∈ s.ss ∧
      s.ssLock.Readable ∧ Lockable s.rmsLock ∧ s.roomIdsLeft ≠ 0
  | _ => False

structure Kept (s t : State) : Prop where
  conns : t.conns = s.conns
  logins : t.logins = s.logins
  sessionLock : t.sessionLock = s.sessionLock

structure Made (s : State) (sid : SessionId) (id : RoomId) (t : State) : Prop where
  kept : Kept s t
  ss : ∃ r : Room, r.id = id ∧ t.ss = (setCurRoom sid r s).ss ∧ t.rooms = s.rooms.insert id r
  userRoomMap : t.userRoomMap = s.userRoomMap
  notified : Notified s.ssLock t

structure Moved (s t : State) : Prop where
  kept : Kept s t
  ss : t.ss = s.ss
  rooms : t.rooms = s.rooms
  notified : Notified s.ssLock t

def attach (c : ConnId) (sid : SessionId) (s : State) : State :=
  setEncoder sid (some c) (setConn c { s.conns c with s := some sid } s)

lemma attach_eq (c : ConnId) (sid : SessionId) (s : State) :
    attach c sid s = setConn c { s.conns c with s := some sid }
      { s with ss := (setEncoder sid (some c) s).ss } :=
  setEncoder_eq sid (some c) s (setConn c { s.conns c with s := some sid } s) rfl

inductive Effect (env : Env) (s : State) : Action → State → Prop
  | found {l pid order sid se} : s.ss.lookup sid = some se → se.localState.userId = pid →
      Effect env s (.loginCheck l pid order) (setLogin l (.done sid) s)
  | missed {l pid order} : s.logins l = .idle → s.ssLock.Readable →
      (∀ sid se, s.ss.lookup sid = some se → se.localState.userId ≠ pid) →
      Effect env s (.loginCheck l pid order) (setLogin l (.missed pid) s)
  | checkWaits {l pid order} : ¬ s.ssLock.Readable →
      Effect env s (.loginCheck l pid order) (setLogin l .stuck s)
  | created {l pid sid} : s.logins l = .missed pid → Fresh env s sid.oid → Lockable s.ssLock →
      Effect env s (.loginCreate l sid)
        (setLogin l (.done sid) { s with ss := s.ss.insert sid (newSession pid sid) })
  | createWaits {l sid} : ¬ Lockable s.ssLock →
      Effect env s (.loginCreate l sid)
        (setLogin l .stuck { s with ssLock := { s.ssLock with waiting := true } })
  | refused {sessionid name description id order₁ order₂} :
      (∀ sid, ¬ MakesRoom s sid (.postRooms sessionid name description id order₁ order₂)) →
      Effect env s (.postRooms sessionid name description id order₁ order₂) s
  | blocked {sessionid name description id order₁ order₂ rmsLock} :
      ¬ Lockable s.rmsLock ∨ s.roomIdsLeft = 0 →
      Effect env s (.postRooms sessionid name description id order₁ order₂) { s with rmsLock }
  | made {sessionid name description id order₁ order₂ sid t} :
      MakesRoom s sid (.postRooms sessionid name description id order₁ order₂) →
      Made s sid id t → Effect env s (.postRooms sessionid name description id order₁ order₂) t
  | stayed {sessionid roomId order₁ order₂ order₃} :
      Effect env s (.changeroom sessionid roomId order₁ order₂ order₃) s
  | moved {sessionid roomId order₁ order₂ order₃ t} : roomId ∈ s.rooms → Moved s t →
      Effect env s (.changeroom sessionid roomId order₁ order₂ order₃) t
  | connected {c} : (s.conns c).phase = .closed →
      Effect env s (.connect c) (setConn c { s.conns c with phase := .reading } s)
  | waits {c req order} : (s.conns c).phase = .reading → ¬ s.ssLock.Readable →
      Effect env s (.request c req order) (setConn c { s.conns c with phase := .stuck } s)
  | served {c req order sent} : req.token = none →
      Effect env s (.request c req order) { s with sent }
  | selected {c req order sent token sid} : (s.conns c).phase = .reading → s.ssLock.Readable →
      req.token = some token → order.find? (passes (ofToken env.users token) s) = some sid →
      Effect env s (.request c req order) { attach c sid s with sent }
  | broke {c} : (s.conns c).phase = .reading →
      Effect env s (.decodeError c) (setConn c { s.conns c with phase := .dying } s)
  | finished {c} : (s.conns c).phase = .dying →
      Effect env s (.finish c) (setConn c { s.conns c with phase := .ended } (detach c s))
  | ticked {c sent} : Effect env s (.tick c) { s with sent }

section Notify

variable {env : Env} {id : RoomId} {order : List SessionId} {s : State}

lemma notifyLoop_ensures (env : Env) (id : RoomId) (order : List SessionId) (s : State) :
    (notifyLoop env id order).Ensures s
      (fun _ t => SentOnly s t ∧ ∀ sid ∈ order, ¬ Mute s id sid)
      (fun t => SentOnly s t ∧ ∃ sid ∈ order, Mute s id sid) (fun _ => False) := by
  induction order generalizing s with
  | nil => exact ⟨⟨s.sent, rfl⟩, by simp⟩
  | cons sid rest ih =>
    -- sending leaves the sessions alone, so it does not matter before which turn they are looked at
    have hrest : ∀ sent, ¬ Mute s id sid →
        (notifyLoop env id rest).Ensures { s with sent }
          (fun _ t => SentOnly s t ∧ ∀ sid' ∈ sid :: rest, ¬ Mute s id sid')
          (fun t => SentOnly s t ∧ ∃ sid' ∈ sid :: rest, Mute s id sid') fun _ => False := by
      intro sent hm
      refine (ih { s with sent }).mono ?_ ?_ fun _ h => h
      · rintro _ t ⟨⟨sent', rfl⟩, h⟩
        exact ⟨⟨sent', rfl⟩, List.forall_mem_cons.mpr ⟨hm, h⟩⟩
      · rintro t ⟨⟨sent', rfl⟩, sid', h, hm'⟩
        exact ⟨⟨sent', rfl⟩, sid', List.mem_cons_of_mem _ h, hm'⟩
    rw [notifyLoop, Go.ensures_bind, Go.ensures_get]
    cases hl : s.ss.lookup sid with
    | none => exact hrest s.sent fun ⟨se, h, _⟩ => by simp [hl] at h
    | some os =>
      by_cases hr : InRoom id os
      · simp only [if_pos hr, Go.ensures_bind]
        cases he : os.encoder with
        | none =>
          exact ⟨⟨s.sent, rfl⟩, sid, List.mem_cons_self, os, hl, hr, he⟩
        | some c =>
          apply hrest
          rintro ⟨se, h, -, hn⟩
          obtain rfl := Option.some.inj (hl.symm.trans h)
          simp [he] at hn
      · simp only [if_neg hr]
        apply hrest s.sent
        rintro ⟨se, h, hr', -⟩
        obtain rfl := Option.some.inj (hl.symm.trans h)
        exact hr hr'

lemma notifyRoom_ensures (env : Env) (id : RoomId) (hv : ∀ sid ∈ s.ss, sid ∈ order) :
    (notifyRoom env id order).Ensures s
      (fun _ t => SentOnly s t ∧ s.ssLock.Readable ∧ ∀ sid, ¬ Mute s id sid)
      (fun t => SentOnly (ssMutex.acquired s) t ∧ s.ssLock.Readable ∧ ∃ sid, Mute s id sid)
      (fun t => t = s ∧ ¬ s.ssLock.Readable) := by
  rw [notifyRoom, Go.ensures_bind, Mutex.ensures_rLock]
  split
  · rename_i hr
    rw [Go.ensures_bind]
    refine (notifyLoop_ensures env id order (ssMutex.acquired s)).mono ?_ ?_ fun _ h => h.elim
    · rintro _ t ⟨⟨sent, rfl⟩, hm⟩
      refine Mutex.ensures_rUnlock.mpr ⟨⟨sent, ?_⟩, hr, ?_⟩
      · simp [Mutex.released, Mutex.acquired, ssMutex]
      · rintro sid ⟨se, hl, h⟩
        exact hm sid (hv sid (Finmap.mem_of_lookup_eq_some hl)) ⟨se, hl, h⟩
    · rintro t ⟨ht, sid, -, hm⟩
      exact ⟨ht, hr, sid, hm⟩
  · rename_i hr
    exact ⟨rfl, hr⟩

end Notify

section Actions

variable {env : Env} {s t : State}

lemma unlocked {l : RWMutex} (h : l.writer = false) : { l with writer := false } = l := by
  cases l
  cases h
  rfl

lemma loginCheck_effect {l : LoginId} {pid : PeerId} {order : List SessionId}
    (hs : SessionsReadable s) (hv : Visits s.ss order) (hi : s.logins l = .idle) :
    Effect env s (.loginCheck l pid order) (loginCheck l pid order s) := by
  have h := findSession_ensures (ofPeerId pid) order hs
  rw [loginCheck, getSessionByPeerId]
  cases hf : findSession (ofPeerId pid) order s with
  | ok r t =>
    obtain ⟨rfl, hr, rfl⟩ := h.of_ok hf
    cases hp : order.find? (passes (ofPeerId pid) t) with
    | none =>
      apply Effect.missed hi hr
      intro sid se hl hu
      have hn := (find_passes_eq_none hv).mp hp sid
      rw [passes_ofPeerId.mpr ⟨se, hl, hu⟩] at hn
      cases hn
    | some sid =>
      obtain ⟨se, hl, hu⟩ := passes_ofPeerId.mp (List.find?_some hp)
      exact .found hl hu
  | panic t => exact (ofPeerId_not_fails pid s (h.of_panic hf).2.2).elim
  | hang t =>
    obtain ⟨rfl, hr⟩ := h.of_hang hf
    exact .checkWaits hr

lemma createSession_ensures (pid : PeerId) (sid : SessionId) (s : State) :
    (createSession pid sid).Ensures s
      (fun r t => r = sid ∧ Lockable s.ssLock ∧
        t = { s with ss := s.ss.insert sid (newSession pid sid) })
      (fun _ => False)
      (fun t => ¬ Lockable s.ssLock ∧
        t = { s with ssLock := { s.ssLock with waiting := true } }) := by
  rw [createSession, Go.ensures_bind, Mutex.ensures_lock]
  split
  · rename_i h
    refine ⟨rfl, h, ?_⟩
    exact congrArg (fun ssLock => { s with ss := s.ss.insert sid (newSession pid sid), ssLock })
      (unlocked h.1)
  · rename_i h
    exact ⟨h, rfl⟩

lemma loginCreate_effect {l : LoginId} {pid : PeerId} {sid : SessionId}
    (hl : s.logins l = .missed pid) (hf : Fresh env s sid.oid) :
    Effect env s (.loginCreate l sid) (loginCreate l pid sid s) := by
  have h := createSession_ensures pid sid s
  rw [loginCreate]
  cases hc : createSession pid sid s with
  | ok r t =>
    obtain ⟨rfl, hk, rfl⟩ := h.of_ok hc
    exact .created hl hf hk
  | panic t => exact (h.of_panic hc).elim
  | hang t =>
    obtain ⟨hk, rfl⟩ := h.of_hang hc
    exact .createWaits hk

lemma getSessionByRequest_ensures (sessionid : Option String) {order : List SessionId}
    (hs : Sound env s) (hv : Visits s.ss order) :
    (getSessionByRequest sessionid order).Ensures s
      (fun r t => t = s ∧ ∀ sid, r = some sid ↔
        sessionid = some sid.toString ∧ sid ∈ s.ss ∧ s.ssLock.Readable)
      (fun _ => False)
      (fun t => t = s ∧ ¬ s.ssLock.Readable) := by
  cases sessionid with
  | none => exact ⟨rfl, by simp⟩
  | some value =>
    refine (findSession_ensures (ofCookie value) order hs.readable).mono ?_ ?_ fun _ h => h
    · rintro r t ⟨rfl, hr, rfl⟩
      refine ⟨rfl, fun sid => ?_⟩
      have hp : ∀ sid, passes (ofCookie value) t sid = true ↔
          sid.toString = value ∧ sid ∈ t.ss := by
        intro sid
        rw [passes_iff]
        constructor
        · rintro ⟨se, hl, ht⟩
          rw [ofCookie, hs.keyed sid se hl, Option.some_inj, decide_eq_true_eq] at ht
          exact ⟨ht, Finmap.mem_of_lookup_eq_some hl⟩
        · rintro ⟨ht, hm⟩
          obtain ⟨se, hl⟩ := Finmap.mem_iff.mp hm
          exact ⟨se, hl, by rw [ofCookie, hs.keyed sid se hl, decide_eq_true ht]⟩
      constructor
      · intro h
        obtain ⟨rfl, hm⟩ := (hp sid).mp (List.find?_some h)
        exact ⟨rfl, hm, hr⟩
      · rintro ⟨h, hm, -⟩
        obtain rfl := Option.some.inj h
        cases hf : order.find? (passes (ofCookie sid.toString) t) with
        | none =>
          have hn := (find_passes_eq_none hv).mp hf sid
          rw [(hp sid).mpr ⟨rfl, hm⟩] at hn
          cases hn
        | some sid' =>
          rw [SessionId.toString_injective ((hp sid').mp (List.find?_some hf)).1]
    · rintro t ⟨-, -, hf⟩
      exact ofCookie_not_fails value s hf

lemma newRoom_ensures (name desc : String) (id : RoomId) (s : State) :
    (newRoom name desc id).Ensures s
      (fun r t => r = ⟨id, name, desc⟩ ∧ Lockable s.rmsLock ∧ s.roomIdsLeft ≠ 0 ∧
        t = { s with rooms := s.rooms.insert id r, roomIdsLeft := s.roomIdsLeft - 1 })
      (fun _ => False)
      (fun t => (¬ Lockable s.rmsLock ∨ s.roomIdsLeft = 0) ∧
        ∃ rmsLock, t = { s with rmsLock }) := by
  rw [newRoom, Go.ensures_bind, Mutex.ensures_lock]
  split
  · rename_i h
    rw [Go.ensures_deferred, Go.ensures_bind, nextRoomId, Go.ensures_bind, Go.ensures_get]
    split
    · rename_i h0
      exact ⟨.inr h0, _, rfl⟩
    · rename_i h0
      refine ⟨rfl, h, h0, ?_⟩
      exact congrArg (fun rmsLock => { s with
        rooms := s.rooms.insert id ⟨id, name, desc⟩, roomIdsLeft := s.roomIdsLeft - 1, rmsLock })
        (unlocked h.1)
  · rename_i h
    exact ⟨.inl h, _, rfl⟩

lemma makeAndChangeRoom_ensures (env : Env) {sid : SessionId} (name desc : String) (id : RoomId)
    {order : List SessionId} (hv : ∀ sid' ∈ s.ss, sid' ∈ order) (hr : s.ssLock.Readable) :
    (makeAndChangeRoom env sid name desc id order).Ensures s
      (fun _ t => Made s sid id t ∧ Lockable s.rmsLock ∧ s.roomIdsLeft ≠ 0)
      (fun t => Made s sid id t ∧ Lockable s.rmsLock ∧ s.roomIdsLeft ≠ 0)
      (fun t => (¬ Lockable s.rmsLock ∨ s.roomIdsLeft = 0) ∧
        ∃ rmsLock, t = { s with rmsLock }) := by
  rw [makeAndChangeRoom, Go.ensures_bind]
  refine (newRoom_ensures name desc id s).mono ?_ (fun _ h => h.elim) fun _ h => h
  rintro r _ ⟨hr', hk, h0, rfl⟩
  obtain rfl : r.id = id := congrArg Room.id hr'
  rw [Go.ensures_bind, Go.ensures_modify, setCurRoom_eq sid r s]
  · refine (notifyRoom_ensures env r.id fun sid' hm => ?_).mono ?_ ?_ ?_
    · exact hv sid' ((mem_setCurRoom sid sid' r s).mp hm)
    · rintro _ t ⟨⟨sent, rfl⟩, -, -⟩
      exact ⟨⟨⟨rfl, rfl, rfl⟩, ⟨r, rfl, rfl, rfl⟩, rfl, .inl rfl⟩, hk, h0⟩
    · rintro t ⟨⟨sent, rfl⟩, -, sid', hm⟩
      exact ⟨⟨⟨rfl, rfl, rfl⟩, ⟨r, rfl, rfl, rfl⟩, rfl, .inr ⟨rfl, r.id, sid', hm⟩⟩, hk, h0⟩
    · rintro t ⟨-, h⟩
      exact absurd hr h
  · rfl

lemma postRooms_effect {sessionid name description : Option String} {id : RoomId}
    {order₁ order₂ : List SessionId} (hs : Sound env s) (hv₁ : Visits s.ss order₁)
    (hv₂ : Visits s.ss order₂) :
    Effect env s (.postRooms sessionid name description id order₁ order₂)
      (serve (postRooms env sessionid name description id order₁ order₂) s) := by
  apply Go.Ensures.state (E := Effect env s _)
  rw [postRooms, Go.ensures_bind]
  refine (getSessionByRequest_ensures sessionid hs hv₁).mono ?_ (fun _ h => h.elim) ?_
  · rintro r _ ⟨rfl, hf⟩
    cases r with
    | none =>
      apply Effect.refused
      intro sid h
      cases (hf sid).mpr ⟨h.1, h.2.2.2.1, h.2.2.2.2.1⟩
    | some sid =>
      obtain ⟨hc, hm, hr⟩ := (hf sid).mp rfl
      cases name with
      | none => exact .refused fun sid h => by simp [MakesRoom] at h
      | some name =>
        cases description with
        | none => exact .refused fun sid h => by simp [MakesRoom] at h
        | some desc =>
          have hmade : Lockable _ → _ ≠ 0 → MakesRoom _ sid
              (.postRooms sessionid (some name) (some desc) id order₁ order₂) :=
            fun hk h0 => ⟨hc, rfl, rfl, hm, hr, hk, h0⟩
          refine (makeAndChangeRoom_ensures env name desc id (fun _ => hv₂.mem_iff.mpr) hr).mono
            ?_ ?_ ?_
          · rintro _ t ⟨h, hk, h0⟩
            exact .made (hmade hk h0) h
          · rintro t ⟨h, hk, h0⟩
            exact .made (hmade hk h0) h
          · rintro t ⟨h, rmsLock, rfl⟩
            exact .blocked h
  · rintro _ ⟨rfl, hn⟩
    exact .refused fun sid h => hn h.2.2.2.2.1

lemma notifyRoom_moved (env : Env) (id : RoomId) {order : List SessionId} {u : State}
    (hm : Moved s u) (hl : u.ssLock = s.ssLock) (hr : s.ssLock.Readable)
    (hv : ∀ sid ∈ s.ss, sid ∈ order) :
    (notifyRoom env id order).Ensures u (fun _ t => Moved s t ∧ t.ssLock = s.ssLock)
      (fun t => Moved s t) (fun _ => False) := by
  refine (notifyRoom_ensures env id (s := u) fun sid h => hv sid (hm.ss ▸ h)).mono ?_ ?_ ?_
  · rintro _ t ⟨⟨sent, rfl⟩, -, -⟩
    exact ⟨⟨⟨hm.kept.1, hm.kept.2, hm.kept.3⟩, hm.ss, hm.rooms, .inl hl⟩, hl⟩
  · rintro t ⟨⟨sent, rfl⟩, -, sid, hmute⟩
    refine ⟨⟨hm.kept.1, hm.kept.2, hm.kept.3⟩, hm.ss, hm.rooms, .inr ⟨?_, id, sid, hmute⟩⟩
    exact congrArg leak hl
  · rintro t ⟨-, h⟩
    exact h (hl ▸ hr)

lemma changeUserRoom_ensures (env : Env) (pid : PeerId) (r : Option Room)
    {order₁ order₂ : List SessionId} (hr : s.ssLock.Readable) (hv₁ : ∀ sid ∈ s.ss, sid ∈ order₁)
    (hv₂ : ∀ sid ∈ s.ss, sid ∈ order₂) :
    (changeUserRoom env pid r order₁ order₂).Ensures s (fun _ t => Moved s t)
      (fun t => Moved s t) (fun t => Moved s t) := by
  have hleave : ∀ u, Moved s u → u.ssLock = s.ssLock →
      (leaveRoom env pid order₁).Ensures u (fun _ t => Moved s t ∧ t.ssLock = s.ssLock)
        (fun t => Moved s t) (fun _ => False) := by
    intro u hm hl
    rw [leaveRoom, Go.ensures_bind, Go.ensures_get]
    split
    · rw [Go.ensures_bind, removeUserFromRoom, Go.ensures_modify]
      refine notifyRoom_moved env _ ?_ hl hr hv₁
      exact ⟨⟨hm.kept.1, hm.kept.2, hm.kept.3⟩, hm.ss, hm.rooms, .inl hl⟩
    · exact ⟨hm, hl⟩
  have henter : ∀ u, Moved s u → u.ssLock = s.ssLock →
      (enterRoom env pid r order₂).Ensures u (fun _ t => Moved s t ∧ t.ssLock = s.ssLock)
        (fun t => Moved s t) (fun _ => False) := by
    intro u hm hl
    cases r with
    | none => exact ⟨hm, hl⟩
    | some r =>
      rw [enterRoom, Go.ensures_bind, addUserToRoom, Go.ensures_modify]
      refine notifyRoom_moved env _ ?_ hl hr hv₂
      exact ⟨⟨hm.kept.1, hm.kept.2, hm.kept.3⟩, hm.ss, hm.rooms, .inl hl⟩
  rw [changeUserRoom, Go.ensures_bind, Mutex.ensures_lock]
  split
  · rw [Go.ensures_bind]
    have hlocked : ∀ l, Moved s (rmsMutex.set l s) ∧ (rmsMutex.set l s).ssLock = s.ssLock :=
      fun l => ⟨⟨⟨rfl, rfl, rfl⟩, rfl, rfl, .inl rfl⟩, rfl⟩
    refine (hleave _ (hlocked _).1 (hlocked _).2).mono ?_ (fun _ h => h) fun _ h => h.elim
    rintro _ u ⟨hm, hl⟩
    rw [Go.ensures_bind]
    refine (henter u hm hl).mono ?_ (fun _ h => h) fun _ h => h.elim
    rintro _ u ⟨hm, hl⟩
    exact ⟨⟨hm.kept.1, hm.kept.2, hm.kept.3⟩, hm.ss, hm.rooms, .inl hl⟩
  · exact ⟨⟨rfl, rfl, rfl⟩, rfl, rfl, .inl rfl⟩

lemma getRoom_ensures (id : RoomId) (s : State) :
    (getRoom id).Ensures s (fun r t => t = s ∧ r = s.rooms.lookup id) (fun _ => False)
      (fun t => t = s ∧ ¬ s.rmsLock.Readable) := by
  have hbody : Go.Ensures (do pure ((← Go.get).rooms.lookup id)) (rmsMutex.acquired s)
      (fun r t => t = rmsMutex.acquired s ∧ r = s.rooms.lookup id)
      (fun t => t = rmsMutex.acquired s ∧ False) fun _ => False := ⟨rfl, rfl⟩
  exact (Mutex.ensures_readSection fun _ => hbody).mono (fun r t h => ⟨h.1, h.2.2⟩)
    (fun t h => h.2.2) fun _ h => h

lemma changeroom_effect {sessionid : Option String} {roomId : RoomId}
    {order₁ order₂ order₃ : List SessionId} (hs : Sound env s) (hv₁ : Visits s.ss order₁)
    (hv₂ : Visits s.ss order₂) (hv₃ : Visits s.ss order₃) :
    Effect env s (.changeroom sessionid roomId order₁ order₂ order₃)
      (serve (changeroom env sessionid roomId order₁ order₂ order₃) s) := by
  apply Go.Ensures.state (E := Effect env s _)
  rw [changeroom, Go.ensures_bind]
  refine (getSessionByRequest_ensures sessionid hs hv₁).mono ?_ (fun _ h => h.elim) ?_
  · rintro r _ ⟨rfl, hf⟩
    cases r with
    | none => exact .stayed
    | some sid =>
      have hr := ((hf sid).mp rfl).2.2
      rw [Go.ensures_bind]
      refine (getRoom_ensures roomId _).mono ?_ (fun _ h => h.elim) ?_
      · rintro room _ ⟨rfl, hroom⟩
        cases room with
        | none => exact .stayed
        | some room =>
          have hmem := Finmap.mem_of_lookup_eq_some hroom.symm
          rw [Go.ensures_bind, Go.ensures_get]
          split
          · exact .stayed
          · refine (changeUserRoom_ensures env _ _ hr (fun _ => hv₂.mem_iff.mpr)
              fun _ => hv₃.mem_iff.mpr).mono ?_ ?_ ?_
            · exact fun _ t h => .moved hmem h
            · exact fun t h => .moved hmem h
            · exact fun t h => .moved hmem h
      · rintro _ ⟨rfl, -⟩
        exact .stayed
  · rintro _ ⟨rfl, -⟩
    exact .stayed

lemma selectSession_ensures (env : Env) (c : ConnId) (token : Option Token)
    (order : List SessionId) (hs : SessionsReadable s) :
    (selectSession env c token order).Ensures s
      (fun _ t => token = none ∧ t = s ∨ s.ssLock.Readable ∧ ∃ tok sid, token = some tok ∧
        order.find? (passes (ofToken env.users tok) s) = some sid ∧ t = attach c sid s)
      (fun _ => True) (fun t => t = s ∧ ¬ s.ssLock.Readable) := by
  cases token with
  | none => exact .inl ⟨rfl, rfl⟩
  | some tok =>
    rw [selectSession, Go.ensures_bind, getSessionByToken]
    refine (findSession_ensures (ofToken env.users tok) order hs).mono ?_ (fun _ _ => trivial)
      fun _ h => h
    rintro r _ ⟨rfl, hr, rfl⟩
    rw [Go.ensures_bind, Go.ensures_modify]
    split
    · trivial
    · rename_i sid hf
      exact .inr ⟨hr, tok, sid, rfl, hf, by rw [attach, hf]⟩

def Relayed (s : State) (c : ConnId) (pcSignal : Option PcSignal) (m : ConnId × ServerResp) : Prop :=
  ∃ sid se pc to_s, (s.conns c).s = some sid ∧ s.ss.lookup sid = some se ∧ pcSignal = some pc ∧
    s.ss.lookup ⟨pc.toId.oid⟩ = some to_s ∧ to_s.encoder = some m.1 ∧
    m.2 = { pcSignal := some { pc with fromId := se.localState.userId } }

lemma relaySignal_ensures (c : ConnId) (pcSignal : Option PcSignal) (hs : SessionsReadable s) :
    (relaySignal c pcSignal).Ensures s
      (fun _ t => ∃ new, t = { s with sent := s.sent ++ new } ∧
        ∀ m ∈ new, Relayed s c pcSignal m)
      (fun _ => False) (fun t => t = s ∧ ¬ s.ssLock.Readable) := by
  have hnone : ∃ new, s = { s with sent := s.sent ++ new } ∧
      ∀ m ∈ new, Relayed s c pcSignal m := ⟨[], by simp, by simp⟩
  rw [relaySignal, Go.ensures_bind, Go.ensures_get]
  split
  · rename_i se pc hse
    obtain ⟨sid, hsid, hl⟩ := Option.bind_eq_some_iff.mp hse
    rw [Go.ensures_bind, Mutex.ensures_rLock]
    split
    · rw [Go.ensures_bind, Go.ensures_get, Go.ensures_bind, Mutex.ensures_rUnlock,
        Mutex.released_acquired]
      split
      · rename_i to_s hto
        have hread : ((sessionMutex ⟨pc.toId.oid⟩).get s).Readable := hs _
        rw [Go.ensures_bind, Mutex.ensures_rLock, if_pos hread]
        cases he : to_s.encoder with
        | none =>
          refine ⟨[], ?_, by simp⟩
          rw [List.append_nil]
          exact Mutex.released_acquired _ _
        | some e =>
          let m : ConnId × ServerResp :=
            (e, { pcSignal := some { pc with fromId := se.localState.userId } })
          refine ⟨[m], Mutex.released_acquired _ { s with sent := s.sent ++ [m] }, ?_⟩
          intro m' hm
          obtain rfl := List.mem_singleton.mp hm
          exact ⟨sid, se, pc, to_s, hsid, hl, rfl, hto, he, rfl⟩
      · exact hnone
    · rename_i hr
      exact ⟨rfl, hr⟩
  · exact hnone

lemma request_effect {c : ConnId} {req : ServerReq} {order : List SessionId}
    (hs : SessionsReadable s) (hc : (s.conns c).phase = .reading)
    (h : request env c req order s = some t) : Effect env s (.request c req order) t := by
  have he : (handleReq env c req order).Ensures s
      (fun _ t => Effect env s (.request c req order) t) (fun _ => True)
      (fun t => t = s ∧ ¬ s.ssLock.Readable) := by
    rw [handleReq, Go.ensures_bind]
    refine (selectSession_ensures env c req.token order hs).mono ?_ (fun _ h => h) fun _ h => h
    rintro _ u (⟨hn, rfl⟩ | ⟨hr, tok, sid, ht, hf, rfl⟩)
    · refine (relaySignal_ensures c req.pcSignal hs).mono ?_ (fun _ _ => trivial) fun _ h => h
      rintro _ t ⟨new, rfl, -⟩
      exact .served hn
    · have ha : SessionsReadable (attach c sid s) := by
        rw [attach_eq]
        exact hs
      refine (relaySignal_ensures c req.pcSignal ha).mono ?_ (fun _ _ => trivial) ?_
      · rintro _ t ⟨new, rfl, -⟩
        exact .selected hc hr ht hf
      · rintro t ⟨-, hn⟩
        rw [attach_eq] at hn
        exact absurd hr hn
  rw [request] at h
  cases hh : handleReq env c req order s with
  | ok _ u =>
    rw [hh] at h
    obtain rfl := Option.some.inj h
    exact he.of_ok hh
  | panic u =>
    rw [hh] at h
    cases h
  | hang u =>
    rw [hh] at h
    obtain ⟨rfl, hn⟩ := he.of_hang hh
    obtain rfl := Option.some.inj h
    exact .waits hc hn

lemma step_effect {a : Action} (hs : Sound env s) (h : step env s a = some t) :
    Effect env s a t := by
  cases a with
  | loginCheck l pid order =>
    obtain ⟨⟨hi, -, hv⟩, h⟩ := Option.ite_none_right_eq_some.mp h
    obtain rfl := Option.some.inj h
    exact loginCheck_effect hs.readable hv hi
  | loginCreate l sid =>
    rw [step] at h
    split at h
    · rename_i pid hl
      obtain ⟨hf, h⟩ := Option.ite_none_right_eq_some.mp h
      obtain rfl := Option.some.inj h
      exact loginCreate_effect hl hf
    all_goals cases h
  | postRooms sessionid name description id order₁ order₂ =>
    obtain ⟨⟨-, hv₁, hv₂⟩, h⟩ := Option.ite_none_right_eq_some.mp h
    obtain rfl := Option.some.inj h
    exact postRooms_effect hs hv₁ hv₂
  | changeroom sessionid roomId order₁ order₂ order₃ =>
    obtain ⟨⟨hv₁, hv₂, hv₃⟩, h⟩ := Option.ite_none_right_eq_some.mp h
    obtain rfl := Option.some.inj h
    exact changeroom_effect hs hv₁ hv₂ hv₃
  | connect c =>
    obtain ⟨hp, h⟩ := Option.ite_none_right_eq_some.mp h
    obtain rfl := Option.some.inj h
    exact .connected hp
  | request c req order =>
    obtain ⟨⟨hp, -⟩, h⟩ := Option.ite_none_right_eq_some.mp h
    exact request_effect hs.readable hp h
  | decodeError c =>
    obtain ⟨hp, h⟩ := Option.ite_none_right_eq_some.mp h
    obtain rfl := Option.some.inj h
    exact .broke hp
  | finish c =>
    obtain ⟨hp, h⟩ := Option.ite_none_right_eq_some.mp h
    obtain rfl := Option.some.inj h
    exact .finished hp
  | tick c =>
    obtain ⟨-, h⟩ := Option.ite_none_right_eq_some.mp h
    obtain rfl := Option.some.inj h
    exact .ticked

lemma made_of_makesRoom {a : Action} {sid : SessionId} (hs : Sound env s)
    (h : step env s a = some t) (hm : MakesRoom s sid a) : ∃ id, Made s sid id t := by
  cases step_effect hs h with
  | refused hn => exact absurd hm (hn sid)
  | blocked hb => exact absurd hm.2.2.2.2.2 fun ⟨hk, h0⟩ => hb.elim (· hk) (h0 ·)
  | made hm' hmade =>
    obtain rfl := SessionId.toString_injective (Option.some.inj (hm.1.symm.trans hm'.1))
    exact ⟨_, hmade⟩
  | _ => exact hm.elim

lemma Made.lookup {sid : SessionId} {id : RoomId} {se : Session} (h : Made s sid id t)
    (hl : s.ss.lookup sid = some se) : ∃ r, t.ss.lookup sid =
      some { se with localState := { se.localState with curRoom := some r } } := by
  obtain ⟨r, -, hss, -⟩ := h.ss
  refine ⟨r, ?_⟩
  rw [hss, lookup_setCurRoom, if_pos rfl, hl]
  rfl

end Actions

end XbTunnel.Server
