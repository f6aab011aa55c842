import XbTunnel.Common.Messages
import XbTunnel.Lib.Effects
import XbTunnel.Lib.Maps

/-! The server's session store and room store. -/

namespace XbTunnel.Server

open Common Lib.Effects Lib.Maps

structure SessionId where
  oid : ObjectId
deriving DecidableEq

def hexDigit (n : ℕ) : Char := if n < 10 then Char.ofNat (48 + n) else Char.ofNat (87 + n)

def hex (oid : ObjectId) : String :=
  String.ofList (oid.flatMap fun b => [hexDigit (b.toNat / 16), hexDigit (b.toNat % 16)])

def SessionId.toString (sid : SessionId) : String := hex sid.oid

abbrev ConnId := ℕ

abbrev LoginId := ℕ

/-- The fields of a session's `LocalState` that the server reads. -/
structure SessionState where
  userId : PeerId
  curRoom : Option Room
deriving DecidableEq

structure Session where
  id : SessionId
  -- not the id that `localState` holds: nothing sets this one
  userId : PeerId
  localState : SessionState
  encoder : Option ConnId
deriving DecidableEq

structure ServerResp where
  localState : Option LocalState := none
  pcSignal : Option PcSignal := none
deriving DecidableEq

inductive Phase
  | closed
  | reading
  -- only the deferred function is left
  | dying
  -- the request goroutine waits for a lock
  | stuck
  | ended
deriving DecidableEq

structure Conn where
  phase : Phase
  s : Option SessionId
deriving DecidableEq

inductive Login
  | idle
  -- between the search for a session and the creation of one
  | missed (pid : PeerId)
  | done (sid : SessionId)
  | stuck
deriving DecidableEq

structure State where
  ss : Map SessionId Session
  ssLock : RWMutex
  sessionLock : SessionId → RWMutex
  rooms : Map RoomId Room
  userRoomMap : Map PeerId Room
  rmsLock : RWMutex
  roomIdsLeft : ℕ
  conns : ConnId → Conn
  logins : LoginId → Login
  sent : List (ConnId × ServerResp)

def init : State where
  ss := ∅
  ssLock := .free
  sessionLock := fun _ => .free
  rooms := ∅
  userRoomMap := ∅
  rmsLock := .free
  roomIdsLeft := 9900
  conns := fun _ => ⟨.closed, none⟩
  logins := fun _ => .idle
  sent := []

/-- The database and the one function that the repository calls without defining it. -/
structure Env where
  users : List User
  makeLocalState : State → LocalState

def ssMutex : Mutex State where
  get := State.ssLock
  set l s := { s with ssLock := l }
  get_set _ _ := rfl
  set_get _ := rfl
  set_set _ _ _ := rfl

def rmsMutex : Mutex State where
  get := State.rmsLock
  set l s := { s with rmsLock := l }
  get_set _ _ := rfl
  set_get _ := rfl
  set_set _ _ _ := rfl

def sessionMutex (sid : SessionId) : Mutex State where
  get s := s.sessionLock sid
  set l s := { s with sessionLock := Function.update s.sessionLock sid l }
  get_set _ _ := Function.update_self ..
  set_get s := by rw [Function.update_eq_self]
  set_set _ _ _ := by rw [Function.update_idem]

def encode (encoder : Option ConnId) (resp : ServerResp) : Go State Unit :=
  match encoder with
  -- a method call on a nil encoder
  | none => .panic
  | some c => .modify fun s => { s with sent := s.sent ++ [(c, resp)] }

def newSession (pid : PeerId) (sid : SessionId) : Session :=
  ⟨sid, emptyPeerId, ⟨pid, none⟩, none⟩

def createSession (pid : PeerId) (sid : SessionId) : Go State SessionId := do
  ssMutex.lock
  .modify fun s => { s with ss := s.ss.insert sid (newSession pid sid) }
  ssMutex.unlock
  pure sid

def getSessionById (id : SessionId) : Go State (Option SessionId) := do
  ssMutex.rLock
  .deferred ssMutex.rUnlock do
    pure (((← Go.get).ss.lookup id).map fun _ => id)

def scan (test : Session → Option Bool) : List SessionId → Go State (Option SessionId)
  | [] => pure none
  | sid :: rest => do
    match (← Go.get).ss.lookup sid with
    | none => scan test rest
    | some s =>
      (sessionMutex sid).rLock
      .deferred (sessionMutex sid).rUnlock
        (match test s with
        -- the test dereferences a nil pointer
        | none => .panic
        | some true => pure (some sid)
        | some false => scan test rest)

def findSession (test : Session → Option Bool) (order : List SessionId) :
    Go State (Option SessionId) := do
  ssMutex.rLock
  .deferred ssMutex.rUnlock (scan test order)

/-- The source hands `One` the nil pointer `user` itself. It is read here as the pointer to the
document that is found, nil only for an unknown token; `Requests.unfilled` takes it as it is
written. -/
def ofToken (users : List User) (token : Token) (s : Session) : Option Bool :=
  (users.find? fun u => u.token = token).map fun user => s.localState.userId = user.id

def getSessionByToken (env : Env) (token : Token) (order : List SessionId) :
    Go State (Option SessionId) :=
  findSession (ofToken env.users token) order

def ofPeerId (pid : PeerId) (s : Session) : Option Bool := some (s.localState.userId = pid)

def getSessionByPeerId (pid : PeerId) (order : List SessionId) : Go State (Option SessionId) :=
  findSession (ofPeerId pid) order

def ofCookie (value : String) (s : Session) : Option Bool := some (s.id.toString = value)

def getSessionByRequest (sessionid : Option String) (order : List SessionId) :
    Go State (Option SessionId) :=
  match sessionid with
  -- a request without the cookie
  | none => pure none
  | some value => findSession (ofCookie value) order

def userIdLoop (id : PeerId) : List SessionId → Go State (Option SessionId)
  | [] => do
    ssMutex.rUnlock
    pure none
  | sid :: rest => do
    match (← Go.get).ss.lookup sid with
    | none => userIdLoop id rest
    | some s =>
      (sessionMutex sid).rLock
      if s.localState.userId = id then
        -- no `defer`: both locks are still held
        pure (some sid)
      else
        (sessionMutex sid).rUnlock
        userIdLoop id rest

def getSessionByUserId (id : PeerId) (order : List SessionId) : Go State (Option SessionId) := do
  ssMutex.rLock
  userIdLoop id order

def nextRoomId (id : RoomId) : Go State RoomId := do
  -- the generator behind `roomIdGen` has stopped, and the receive waits forever
  if (← Go.get).roomIdsLeft = 0 then .hang
  else
    .modify fun s => { s with roomIdsLeft := s.roomIdsLeft - 1 }
    pure id

def newRoom (name desc : String) (id : RoomId) : Go State Room := do
  rmsMutex.lock
  .deferred rmsMutex.unlock do
    let id ← nextRoomId id
    let r : Room := ⟨id, name, desc⟩
    .modify fun s => { s with rooms := s.rooms.insert id r }
    pure r

def getRoom (id : RoomId) : Go State (Option Room) := do
  rmsMutex.rLock
  .deferred rmsMutex.rUnlock do
    pure ((← Go.get).rooms.lookup id)

def addUserToRoom (pid : PeerId) (r : Room) : Go State Unit :=
  .modify fun s => { s with userRoomMap := s.userRoomMap.insert pid r }

def removeUserFromRoom (rid : Room) : Go State Unit :=
  -- the caller passes a room where a user is meant
  .modify fun s => { s with userRoomMap := s.userRoomMap.erase ⟨rid.id.oid⟩ }

def InRoom (id : RoomId) (se : Session) : Prop :=
  se.localState.curRoom.any (fun r => decide (r.id = id)) = true

instance (id : RoomId) (se : Session) : Decidable (InRoom id se) :=
  inferInstanceAs (Decidable (_ = _))

def notifyLoop (env : Env) (id : RoomId) : List SessionId → Go State Unit
  | [] => pure ()
  | sid :: rest => do
    let s ← Go.get
    match s.ss.lookup sid with
    | none => notifyLoop env id rest
    | some os =>
      if InRoom id os then
        encode os.encoder { localState := some (env.makeLocalState s) }
      notifyLoop env id rest

def notifyRoom (env : Env) (id : RoomId) (order : List SessionId) : Go State Unit := do
  -- no `defer`: a panic in the loop leaves the lock taken
  ssMutex.rLock
  notifyLoop env id order
  ssMutex.rUnlock

def leaveRoom (env : Env) (pid : PeerId) (order : List SessionId) : Go State Unit := do
  match (← Go.get).userRoomMap.lookup pid with
  | some rid =>
    removeUserFromRoom rid
    notifyRoom env rid.id order
  | none => pure ()

def enterRoom (env : Env) (pid : PeerId) (r : Option Room) (order : List SessionId) :
    Go State Unit :=
  match r with
  | some r => do
    addUserToRoom pid r
    notifyRoom env r.id order
  | none => pure ()

def changeUserRoom (env : Env) (pid : PeerId) (r : Option Room) (order₁ order₂ : List SessionId) :
    Go State Unit := do
  rmsMutex.lock
  leaveRoom env pid order₁
  enterRoom env pid r order₂
  rmsMutex.unlock

def setCurRoom (sid : SessionId) (r : Room) (s : State) : State :=
  match s.ss.lookup sid with
  | some se => { s with
      ss := s.ss.insert sid { se with localState := { se.localState with curRoom := some r } } }
  | none => s

def setEncoder (sid : SessionId) (encoder : Option ConnId) (s : State) : State :=
  match s.ss.lookup sid with
  | some se => { s with ss := s.ss.insert sid { se with encoder } }
  | none => s

section Updates

variable (sid sid' : SessionId) (r : Room) (encoder : Option ConnId) (s : State)

lemma setCurRoom_eq (t : State) (h : t.ss = s.ss) :
    setCurRoom sid r t = { t with ss := (setCurRoom sid r s).ss } := by
  rw [setCurRoom, setCurRoom, h]
  split
  · rfl
  · rw [← h]

lemma setEncoder_eq (t : State) (h : t.ss = s.ss) :
    setEncoder sid encoder t = { t with ss := (setEncoder sid encoder s).ss } := by
  rw [setEncoder, setEncoder, h]
  split
  · rfl
  · rw [← h]

lemma lookup_setCurRoom : (setCurRoom sid r s).ss.lookup sid' =
    if sid' = sid then (s.ss.lookup sid).map fun se =>
      { se with localState := { se.localState with curRoom := some r } }
    else s.ss.lookup sid' := by
  rw [setCurRoom]
  split_ifs with h
  · subst h
    cases hl : s.ss.lookup sid' <;> simp [hl]
  · cases s.ss.lookup sid with
    | none => rfl
    | some se => exact Finmap.lookup_insert_of_ne _ h

lemma lookup_setEncoder : (setEncoder sid encoder s).ss.lookup sid' =
    if sid' = sid then (s.ss.lookup sid).map fun se => { se with encoder }
    else s.ss.lookup sid' := by
  rw [setEncoder]
  split_ifs with h
  · subst h
    cases hl : s.ss.lookup sid' <;> simp [hl]
  · cases s.ss.lookup sid with
    | none => rfl
    | some se => exact Finmap.lookup_insert_of_ne _ h

lemma map_lookup_setCurRoom {β : Type} (f : Session → β)
    (hf : ∀ se, f { se with localState := { se.localState with curRoom := some r } } = f se) :
    ((setCurRoom sid r s).ss.lookup sid').map f = (s.ss.lookup sid').map f := by
  rw [lookup_setCurRoom]
  split_ifs with h
  · rw [h, Option.map_map]
    exact congrArg (fun g => (s.ss.lookup sid).map g) (funext hf)
  · rfl

lemma map_lookup_setEncoder {β : Type} (f : Session → β)
    (hf : ∀ se e, f { se with encoder := e } = f se) :
    ((setEncoder sid encoder s).ss.lookup sid').map f = (s.ss.lookup sid').map f := by
  rw [lookup_setEncoder]
  split_ifs with h
  · rw [h, Option.map_map]
    exact congrArg (fun g => (s.ss.lookup sid).map g) (funext fun se => hf se encoder)
  · rfl

lemma mem_setCurRoom : sid' ∈ (setCurRoom sid r s).ss ↔ sid' ∈ s.ss := by
  rw [← Finmap.lookup_isSome, ← Finmap.lookup_isSome, lookup_setCurRoom]
  split_ifs with h
  · rw [h, Option.isSome_map]
  · rfl

lemma mem_setEncoder : sid' ∈ (setEncoder sid encoder s).ss ↔ sid' ∈ s.ss := by
  rw [← Finmap.lookup_isSome, ← Finmap.lookup_isSome, lookup_setEncoder]
  split_ifs with h
  · rw [h, Option.isSome_map]
  · rfl

end Updates

def makeAndChangeRoom (env : Env) (sid : SessionId) (roomName roomDesc : String) (id : RoomId)
    (order : List SessionId) : Go State Unit := do
  let r ← newRoom roomName roomDesc id
  .modify (setCurRoom sid r)
  notifyRoom env r.id order

end XbTunnel.Server
