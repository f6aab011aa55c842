import XbTunnel.Lib.Runs
import XbTunnel.Server.Store

/-! The server as a transition system: web requests and the goroutines of every TCP connection take
steps in any order. -/

namespace XbTunnel.Server

open Common Lib.Effects Lib.Maps Lib.Runs

def postRooms (env : Env) (sessionid : Option String) (name description : Option String)
    (id : RoomId) (order₁ order₂ : List SessionId) : Go State Unit := do
  match ← getSessionByRequest sessionid order₁ with
  | none => pure ()
  | some s =>
    -- the type assertions panic on a field that is no string
    match name, description with
    | some roomName, some roomDesc => makeAndChangeRoom env s roomName roomDesc id order₂
    | _, _ => .panic

def changeroom (env : Env) (sessionid : Option String) (roomId : RoomId)
    (order₁ order₂ order₃ : List SessionId) : Go State Unit := do
  match ← getSessionByRequest sessionid order₁ with
  | none => pure ()
  | some sid =>
    match ← getRoom roomId with
    | none => pure ()
    | some room =>
      match (← Go.get).ss.lookup sid with
      | none => pure ()
      | some s => changeUserRoom env s.userId (some room) order₂ order₃

def setConn (c : ConnId) (conn : Conn) (s : State) : State :=
  { s with conns := Function.update s.conns c conn }

def setLogin (l : LoginId) (login : Login) (s : State) : State :=
  { s with logins := Function.update s.logins l login }

def selectSession (env : Env) (c : ConnId) (token : Option Token) (order : List SessionId) :
    Go State Unit := do
  match token with
  | none => pure ()
  | some token =>
    let s ← getSessionByToken env token order
    -- the variable of the loop is assigned before it is checked
    .modify fun st => setConn c { st.conns c with s } st
    match s with
    -- after an unknown token the encoder is written through the nil session
    | none => .panic
    | some sid => .modify (setEncoder sid (some c))

def relaySignal (c : ConnId) (pcSignal : Option PcSignal) : Go State Unit := do
  let st ← Go.get
  match (st.conns c).s.bind st.ss.lookup, pcSignal with
  | some s, some pc =>
    let pc := { pc with fromId := s.localState.userId }
    -- the receiver, a user, is looked up as a session
    let toSid : SessionId := ⟨pc.toId.oid⟩
    ssMutex.rLock
    let found := (← Go.get).ss.lookup toSid
    ssMutex.rUnlock
    match found with
    | some to_s =>
      (sessionMutex toSid).rLock
      if to_s.encoder.isSome then
        encode to_s.encoder { pcSignal := some pc }
      (sessionMutex toSid).rUnlock
    | none => pure ()
  | _, _ => pure ()

def handleReq (env : Env) (c : ConnId) (req : ServerReq) (order : List SessionId) :
    Go State Unit := do
  selectSession env c req.token order
  -- the branch for the list of consoles only logs
  relaySignal c req.pcSignal

inductive Action
  | loginCheck (l : LoginId) (pid : PeerId) (order : List SessionId)
  | loginCreate (l : LoginId) (sid : SessionId)
  | postRooms (sessionid name description : Option String) (id : RoomId)
      (order₁ order₂ : List SessionId)
  | changeroom (sessionid : Option String) (roomId : RoomId)
      (order₁ order₂ order₃ : List SessionId)
  | connect (c : ConnId)
  | request (c : ConnId) (req : ServerReq) (order : List SessionId)
  | decodeError (c : ConnId)
  | finish (c : ConnId)
  | tick (c : ConnId)

def Fresh (env : Env) (s : State) (oid : ObjectId) : Prop :=
  (⟨oid⟩ : SessionId) ∉ s.ss ∧ (⟨oid⟩ : RoomId) ∉ s.rooms ∧ ∀ u ∈ env.users, u.id.oid ≠ oid

instance (env : Env) (s : State) (oid : ObjectId) : Decidable (Fresh env s oid) :=
  inferInstanceAs (Decidable (_ ∧ _ ∧ _))

def Phase.alive : Phase → Bool
  | .reading | .dying | .stuck => true
  | .closed | .ended => false

def Alive (s : State) (c : ConnId) : Prop := (s.conns c).phase.alive = true

instance (s : State) (c : ConnId) : Decidable (Alive s c) := inferInstanceAs (Decidable (_ = _))

section Updates

variable {c c' : ConnId} {conn : Conn} {s : State}

@[simp] lemma setConn_conns_self : (setConn c conn s).conns c = conn :=
  Function.update_self ..

lemma setConn_conns_of_ne (h : c' ≠ c) : (setConn c conn s).conns c' = s.conns c' :=
  Function.update_of_ne h ..

@[simp] lemma alive_setConn_self : Alive (setConn c conn s) c ↔ conn.phase.alive = true := by
  rw [Alive, setConn_conns_self]

lemma alive_setConn_of_ne (h : c' ≠ c) : Alive (setConn c conn s) c' ↔ Alive s c' := by
  rw [Alive, Alive, setConn_conns_of_ne h]

@[simp] lemma setLogin_self {l : LoginId} {login : Login} :
    (setLogin l login s).logins l = login :=
  Function.update_self ..

lemma setLogin_of_ne {l l' : LoginId} {login : Login} (h : l' ≠ l) :
    (setLogin l login s).logins l' = s.logins l' :=
  Function.update_of_ne h ..

lemma setLogin_eq_iff {l l' : LoginId} {login login' : Login} :
    (setLogin l login s).logins l' = login' ↔
      l' = l ∧ login = login' ∨ l' ≠ l ∧ s.logins l' = login' := by
  by_cases he : l' = l
  · rw [he, setLogin_self]
    simp
  · rw [setLogin_of_ne he]
    simp [he]

end Updates

def serve (m : Go State Unit) (s : State) : State :=
  -- `net/http` recovers a panic in the goroutine of a request
  (m s).state

def loginCheck (l : LoginId) (pid : PeerId) (order : List SessionId) (s : State) : State :=
  match getSessionByPeerId pid order s with
  | .ok (some sid) t => setLogin l (.done sid) t
  | .ok none t => setLogin l (.missed pid) t
  | .panic t => t
  | .hang t => setLogin l .stuck t

def loginCreate (l : LoginId) (pid : PeerId) (sid : SessionId) (s : State) : State :=
  match createSession pid sid s with
  | .ok sid t => setLogin l (.done sid) t
  | .panic t => t
  | .hang t => setLogin l .stuck t

def request (env : Env) (c : ConnId) (req : ServerReq) (order : List SessionId) (s : State) :
    Option State :=
  match handleReq env c req order s with
  | .ok _ t => some t
  -- nothing recovers the panic, so the server ends
  | .panic _ => none
  | .hang t => some (setConn c { t.conns c with phase := .stuck } t)

def detach (c : ConnId) (s : State) : State :=
  match (s.conns c).s with
  | some sid => setEncoder sid none s
  | none => s

def step (env : Env) (s : State) : Action → Option State
  | .loginCheck l pid order =>
    if s.logins l = .idle ∧ pid ∈ env.users.map User.id ∧ Visits s.ss order then
      some (loginCheck l pid order s)
    else none
  | .loginCreate l sid =>
    match s.logins l with
    | .missed pid => if Fresh env s sid.oid then some (loginCreate l pid sid s) else none
    | .idle | .done _ | .stuck => none
  | .postRooms sessionid name description id order₁ order₂ =>
    if Fresh env s id.oid ∧ Visits s.ss order₁ ∧ Visits s.ss order₂ then
      some (serve (postRooms env sessionid name description id order₁ order₂) s)
    else none
  | .changeroom sessionid roomId order₁ order₂ order₃ =>
    if Visits s.ss order₁ ∧ Visits s.ss order₂ ∧ Visits s.ss order₃ then
      some (serve (changeroom env sessionid roomId order₁ order₂ order₃) s)
    else none
  | .connect c =>
    if (s.conns c).phase = .closed then some (setConn c { s.conns c with phase := .reading } s)
    else none
  | .request c req order =>
    if (s.conns c).phase = .reading ∧ Visits s.ss order then request env c req order s else none
  | .decodeError c =>
    if (s.conns c).phase = .reading then some (setConn c { s.conns c with phase := .dying } s)
    else none
  | .finish c =>
    if (s.conns c).phase = .dying then
      some (setConn c { s.conns c with phase := .ended } (detach c s))
    else none
  | .tick c => if Alive s c then some (serve (encode (some c) {}) s) else none

end XbTunnel.Server
