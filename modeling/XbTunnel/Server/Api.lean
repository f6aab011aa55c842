import XbTunnel.Server.Accounts
import XbTunnel.Server.Cookies

/-! The handlers of the HTTP requests. A login takes three steps, between which the goroutines of
other requests and connections run. -/

namespace XbTunnel.Server.Api

open Common Lib.Effects Lib.Maps Lib.Runs Accounts Cookies Logins

inductive Content
  | empty
  | text (text : String)
  | rooms (rooms : List Room)
  | session (s : Session)
  | archive (binaryName : String) (token : Token)
deriving DecidableEq

structure Response where
  status : ℕ := 200
  cookie : Option Cookie := none
  content : Content := .empty
deriving DecidableEq

inductive Method
  | get
  | post
  | other

/-- The pages that ask for a session. The fields are `none` where the body has no string. -/
inductive Page
  | download
  | rooms (method : Method) (name description : Option String)
  | status
  | changeroom (roomId : RoomId)

structure Choices where
  id : RoomId
  order₁ : List SessionId
  order₂ : List SessionId
  order₃ : List SessionId

def denied : Response := { status := 403 }

section Pages

variable (C : String → String) (env : Env) (db : Db)

def withSession (cookies : List Cookie) (order : List SessionId)
    (page : SessionId → Go State Response) : Go State Response := do
  match ← resolve cookies order with
  | none => pure denied
  | some sid => page sid

def download (os : String) (u : Option User) : Go State Response :=
  match u with
  | none => .panic
  | some u => do
    let binaryName := if os = "windows" then "xbtunnel" ++ ".exe" else "xbtunnel"
    pure { content := .archive binaryName u.token }

def downloadPage (sid : SessionId) : Go State Response := do
  match (← Go.get).ss.lookup sid with
  | none => .panic
  -- `One` is handed the nil pointer itself, so that nothing it finds gets into `u`
  | some _ => download "windows" none

def roomsPage (method : Method) (name description : Option String) (id : RoomId)
    (order : List SessionId) (sid : SessionId) : Go State Response :=
  match method with
  | .get => pure { content := .rooms (listRooms C db) }
  | .post =>
    match name, description with
    | some roomName, some roomDesc => do
      makeAndChangeRoom env sid roomName roomDesc id order
      pure {}
    | _, _ => .panic
  | .other => pure {}

def statusPage (sid : SessionId) : Go State Response := do
  match (← Go.get).ss.lookup sid with
  | none => .panic
  | some s => pure { content := .session s }

def changeroomPage (roomId : RoomId) (order₂ order₃ : List SessionId) (sid : SessionId) :
    Go State Response := do
  match ← getRoom roomId with
  | none => pure { status := 502 }
  | some room =>
    match (← Go.get).ss.lookup sid with
    | none => .panic
    | some s => do
      changeUserRoom env s.userId (some room) order₂ order₃
      pure {}

def servePage (page : Page) (ch : Choices) (sid : SessionId) : Go State Response :=
  match page with
  | .download => downloadPage sid
  | .rooms method name description =>
    roomsPage C env db method name description ch.id ch.order₂ sid
  | .status => statusPage sid
  | .changeroom roomId => changeroomPage env roomId ch.order₂ ch.order₃ sid

def visit (page : Page) (cookies : List Cookie) (ch : Choices) : Go State Response :=
  withSession cookies ch.order₁ (servePage C env db page ch)

end Pages

inductive Kind
  | register
  | login
deriving DecidableEq

/-- A request to register or to log in. After it is admitted, `State.logins` says how far it is. -/
inductive Call
  | idle
  | sent (kind : Kind) (nickname password : Bytes)
  | admitted (kind : Kind) (nickname password : Bytes) (pid : PeerId)
  | answered (kind : Kind) (r : Response)
  -- the type assertion on a field of the body panicked
  | aborted
deriving DecidableEq

structure Web where
  db : Db
  server : State
  calls : LoginId → Call
  registered : List Registration

inductive Op
  | tcp (a : Server.Action)
  | register (l : LoginId) (nickname password : Option Bytes) (salt : Bytes)
      (inserted : Except String PeerId)
  | login (l : LoginId) (nickname password : Option Bytes)
  | find (l : LoginId) (pick : ℕ)
  | check (l : LoginId) (order : List SessionId)
  | create (l : LoginId) (sid : SessionId)
  | visit (page : Page) (cookies : List Cookie) (ch : Choices)

def isTcp : Server.Action → Bool
  | .connect _ | .request _ _ _ | .decodeError _ | .finish _ | .tick _ => true
  | _ => false

def setCall (l : LoginId) (call : Call) (w : Web) : Web :=
  { w with calls := Function.update w.calls l call }

def failed : Kind → String → Response
  -- the handler does not look at the error of the login
  | .register, _ => {}
  | .login, err => { status := 403, content := .text err }

section Step

variable (B : Bcrypt) (C : String → String) (makeLocalState : State → LocalState)

def start (db : Db) : Web := ⟨initMgo C db, init, fun _ => .idle, []⟩

def Web.env (w : Web) : Env := ⟨w.db.users (C "xbtusers"), makeLocalState⟩

def Free (s : State) (oid : ObjectId) : Prop :=
  (⟨oid⟩ : SessionId) ∉ s.ss ∧ (⟨oid⟩ : RoomId) ∉ s.rooms

instance (s : State) (oid : ObjectId) : Decidable (Free s oid) :=
  inferInstanceAs (Decidable (_ ∧ _))

def Unused (s : State) : Except String PeerId → Prop
  | .ok id => Free s id.oid
  | .error _ => True

instance (s : State) : ∀ inserted, Decidable (Unused s inserted)
  | .ok id => inferInstanceAs (Decidable (Free s id.oid))
  | .error _ => .isTrue trivial

def afterRegister (nickname password : Bytes) : Except String User → Call
  | .ok _ => .sent .register nickname password
  | .error _ => .answered .register denied

def registerUser (l : LoginId) (nickname password salt : Bytes)
    (inserted : Except String PeerId) (w : Web) : Web :=
  let (db, res) := register B C nickname password salt inserted w.db
  setCall l (afterRegister nickname password res)
    { w with db, registered := w.registered ++ record nickname password inserted res }

def findUser (db : Db) (kind : Kind) (nickname password : Bytes) (pick : ℕ) : Call :=
  match one pick ((db.users (C "xbtusers")).filter fun u => u.nickname = nickname) with
  | .error err => .answered kind (failed kind ("err: " ++ err))
  | .ok user =>
    if user.id = emptyPeerId then .answered kind (failed kind "Unknown nickname")
    else if B.compareHashAndPassword user.password password = false then
      .answered kind (failed kind "Wrong password")
    else .admitted kind nickname password user.id

def serverStep (a : Server.Action) (w : Web) : Option Web :=
  (Server.step (w.env C makeLocalState) w.server a).map fun server => { w with server }

def step (w : Web) : Op → Option Web
  | .tcp a => if isTcp a = true then serverStep C makeLocalState a w else none
  | .register l nickname password salt inserted =>
    if w.calls l = .idle ∧ FreshUser C w.db inserted ∧ Unused w.server inserted then
      match nickname, password with
      | some nickname, some password =>
        some (registerUser B C l nickname password salt inserted w)
      | _, _ => some (setCall l .aborted w)
    else none
  | .login l nickname password =>
    if w.calls l = .idle then
      match nickname, password with
      | some nickname, some password => some (setCall l (.sent .login nickname password) w)
      | _, _ => some (setCall l .aborted w)
    else none
  | .find l pick =>
    match w.calls l with
    | .sent kind nickname password =>
      some (setCall l (findUser B C w.db kind nickname password pick) w)
    | _ => none
  | .check l order =>
    match w.calls l with
    | .admitted _ _ _ pid => serverStep C makeLocalState (.loginCheck l pid order) w
    | _ => none
  | .create l sid => serverStep C makeLocalState (.loginCreate l sid) w
  | .visit page cookies ch =>
    if Fresh (w.env C makeLocalState) w.server ch.id.oid ∧ Visits w.server.ss ch.order₁ ∧
        Visits w.server.ss ch.order₂ ∧ Visits w.server.ss ch.order₃ then
      some { w with
        server := (visit C (w.env C makeLocalState) w.db page cookies ch w.server).state }
    else none

end Step

def response (w : Web) (l : LoginId) : Option Response :=
  match w.calls l, w.server.logins l with
  | .answered _ r, _ => some r
  | .admitted .., .done sid => some { cookie := some (Cookies.setSessionCookie sid) }
  | _, _ => none

variable {B : Bcrypt} {C : String → String} {makeLocalState : State → LocalState} {env : Env}
  {db : Db} {w w' : Web} {s t : State} {a : Server.Action} {pid : PeerId} {sid : SessionId}
  {cookies : List Cookie}

@[simp] lemma setCall_calls_self (l : LoginId) (call : Call) (w : Web) :
    (setCall l call w).calls l = call :=
  Function.update_self ..

lemma setCall_calls_of_ne {l l' : LoginId} (h : l' ≠ l) (call : Call) (w : Web) :
    (setCall l call w).calls l' = w.calls l' :=
  Function.update_of_ne h ..

section Visit

def Presents (cookies : List Cookie) (sid : SessionId) : Prop :=
  (namedCookie cookies "sessionid").map Cookie.value = some sid.toString

instance (cookies : List Cookie) (sid : SessionId) : Decidable (Presents cookies sid) :=
  inferInstanceAs (Decidable (_ = _))

lemma Presents.inj {sid' : SessionId} (h : Presents cookies sid) (h' : Presents cookies sid') :
    sid = sid' :=
  SessionId.toString_injective (Option.some.inj (h.symm.trans h'))

variable {page : SessionId → Go State Response} {Q : Response → State → Prop} {E H : State → Prop}

lemma withSession_ensures {order : List SessionId} (hs : Sound env s) (hv : Visits s.ss order)
    (hnone : (∀ sid, Presents cookies sid → sid ∉ s.ss) → Q denied s)
    (hsome : ∀ sid, Presents cookies sid → sid ∈ s.ss → s.ssLock.Readable →
      (page sid).Ensures s Q E H)
    (hwait : ¬ s.ssLock.Readable → H s) :
    (withSession cookies order page).Ensures s Q E H := by
  have hg := getSessionByRequest_ensures ((namedCookie cookies "sessionid").map Cookie.value) hs hv
  rw [withSession, Go.ensures_bind, resolve]
  cases ho : getSessionByRequest ((namedCookie cookies "sessionid").map Cookie.value) order s with
  | ok r t =>
    obtain ⟨rfl, hr⟩ := hg.of_ok ho
    rw [Go.Ensures, ho]
    cases r with
    | none =>
      refine hnone fun sid hp hm => ?_
      rw [show _ = some sid.toString from hp] at ho hr
      have hl := ((findSession_ensures (ofCookie sid.toString) order hs.readable).of_ok ho).2.1
      cases (hr sid).mpr ⟨rfl, hm, hl⟩
    | some sid =>
      obtain ⟨hc, hm, hl⟩ := (hr sid).mp rfl
      exact hsome sid hc hm hl
  | panic t => exact (hg.of_panic ho).elim
  | hang t =>
    obtain ⟨rfl, hn⟩ := hg.of_hang ho
    rw [Go.Ensures, ho]
    exact hwait hn

lemma visit_postRooms {name description : Option String} (ch : Choices) :
    (visit C env db (.rooms .post name description) cookies ch s).state =
      serve (postRooms env ((namedCookie cookies "sessionid").map Cookie.value) name description
        ch.id ch.order₁ ch.order₂) s := by
  apply Go.state_bind_congr
  intro r t
  cases r with
  | none => rfl
  | some sid =>
    cases name with
    | none => rfl
    | some name =>
      cases description with
      | none => rfl
      | some desc => exact Go.state_bind_pure _ t

lemma visit_changeroom {roomId : RoomId} (ch : Choices) :
    (visit C env db (.changeroom roomId) cookies ch s).state =
      serve (changeroom env ((namedCookie cookies "sessionid").map Cookie.value) roomId
        ch.order₁ ch.order₂ ch.order₃) s := by
  apply Go.state_bind_congr
  intro r t
  cases r with
  | none => rfl
  | some sid =>
    apply Go.state_bind_congr
    intro room t
    cases room with
    | none => rfl
    | some room =>
      apply Go.state_bind_congr
      intro st t
      cases st.ss.lookup sid with
      | none => rfl
      | some se => exact Go.state_bind_pure _ t

variable (C db cookies) in
lemma visit_step (page : Page) {ch : Choices} (hs : Sound env s) (hf : Fresh env s ch.id.oid)
    (hv₁ : Visits s.ss ch.order₁) (hv₂ : Visits s.ss ch.order₂) (hv₃ : Visits s.ss ch.order₃) :
    (visit C env db page cookies ch s).state = s ∨ ∃ a, isLogin a = false ∧
      Server.step env s a = some (visit C env db page cookies ch s).state := by
  have hreads : ∀ page', (∀ sid, (page' sid).Ensures s (fun _ t => t = s) (· = s) (· = s)) →
      (withSession cookies ch.order₁ page' s).state = s := fun page' h =>
    (withSession_ensures (E := (· = s)) hs hv₁ (fun _ => rfl) (fun sid _ _ _ => h sid)
      fun _ => rfl).state
  cases page with
  | download =>
    refine .inl (hreads _ fun sid => ?_)
    rw [servePage, downloadPage, Go.ensures_bind, Go.ensures_get]
    split <;> rfl
  | rooms method name description =>
    cases method with
    | get | other => exact .inl (hreads _ fun _ => rfl)
    | post =>
      rw [visit_postRooms]
      exact .inr ⟨.postRooms .., rfl, if_pos ⟨hf, hv₁, hv₂⟩⟩
  | status =>
    refine .inl (hreads _ fun sid => ?_)
    rw [servePage, statusPage, Go.ensures_bind, Go.ensures_get]
    split <;> rfl
  | changeroom roomId =>
    rw [visit_changeroom]
    exact .inr ⟨.changeroom .., rfl, if_pos ⟨hv₁, hv₂, hv₃⟩⟩

end Visit

section Samples

def sampleSite (C : String → String) : Web → Op → Option Web :=
  step sampleBcrypt C fun _ => LocalState.zero

def aliceRegisters : Op :=
  .register 0 (some alice.nickname) (some [0x70]) sampleSalt (.ok alice.id)

def opensStatus (cookies : List Cookie) (order : List SessionId) : Op :=
  .visit .status cookies ⟨⟨[50]⟩, order, order, order⟩

def aliceEnters : List Op :=
  [aliceRegisters, opensStatus [] [], .find 0 0, .check 0 [], .create 0 aliceSession,
    opensStatus [Cookies.setSessionCookie aliceSession] [aliceSession]]

end Samples

end XbTunnel.Server.Api
