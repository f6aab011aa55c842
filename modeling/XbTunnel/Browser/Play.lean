import XbTunnel.Server.Entry

/-! The controller of the page on which the rooms are, in a browser in front of the server. -/

namespace XbTunnel.Browser

open Common Lib.Effects Lib.Maps Lib.Runs Server
open Server.Api (Choices Content Page Response Web response)
open Cookies (Cookie)

inductive Dialog
  | makeroom
  | login
deriving DecidableEq

structure Scope where
  loggedIn : Bool
  rooms : Option Content
  dialogs : List Dialog
deriving DecidableEq

inductive Caller
  | refreshRooms
  | makeRoom
  | login
  | register
  | changeRoom
deriving DecidableEq

inductive Message
  | page (page : Page)
  | register (nickname password : Option Bytes)
  | login (nickname password : Option Bytes)

inductive Progress
  | sent
  | call (l : LoginId)
  -- the handler waits for a lock
  | waiting
  -- `none` for a connection that was closed without an answer
  | answered (r : Option Response)
  | handled
deriving DecidableEq

structure Flight where
  caller : Caller
  message : Message
  cookies : List Cookie
  progress : Progress

structure Tab where
  scope : Scope
  timer : Bool
  sessionid : Option Cookie
  flights : ℕ → Option Flight
  typed : List (Bytes × Bytes)

structure State where
  tab : Tab
  web : Web

/-- What the user does; the fields of a form are `none` until something is typed into them. -/
inductive Click
  | revealMakeRoom
  | makeRoom (name description : Option String)
  | login (nickname password : Option Bytes)
  | register (nickname password : Option Bytes)
  -- the function is there, though the page has no link to it
  | changeRoom (roomId : RoomId)

inductive Op
  | timer (i : ℕ)
  | click (i : ℕ) (c : Click)
  | receive (i : ℕ) (l : LoginId) (salt : Bytes) (inserted : Except String PeerId)
  | serve (i : ℕ) (ch : Choices)
  | respond (i : ℕ)
  | fail (i : ℕ)
  | deliver (i : ℕ)
  | web (op : Api.Op)

def revealMakeRoom (s : Scope) : Scope := { s with dialogs := s.dialogs ++ [.makeroom] }

def revealLogin (s : Scope) : Scope := { s with dialogs := s.dialogs ++ [.login] }

def succeeds (r : Response) : Bool := 200 ≤ r.status && r.status < 300

def success (caller : Caller) (data : Content) (s : Scope) : Scope :=
  match caller with
  | .refreshRooms => { s with loggedIn := true, rooms := some data }
  -- the other functions only log the answer
  | .makeRoom | .login | .register | .changeRoom => s

def error (caller : Caller) (status : ℕ) (s : Scope) : Scope :=
  match caller with
  | .refreshRooms => revealLogin (if status = 403 then { s with loggedIn := false } else s)
  | .makeRoom | .login | .register | .changeRoom => s

def handle (caller : Caller) (r : Option Response) (s : Scope) : Scope :=
  match r with
  | some r => if succeeds r = true then success caller r.content s else error caller r.status s
  | none => error caller 0 s

def typedIn : Option Bytes → Option Bytes → List (Bytes × Bytes)
  | some nickname, some password => [(nickname, password)]
  | _, _ => []

def Message.typed : Message → List (Bytes × Bytes)
  | .register nickname password | .login nickname password => typedIn nickname password
  | .page _ => []

def Click.request : Click → Option (Caller × Message)
  | .revealMakeRoom => none
  | .makeRoom name description => some (.makeRoom, .page (.rooms .post name description))
  | .login nickname password => some (.login, .login nickname password)
  | .register nickname password => some (.register, .register nickname password)
  | .changeRoom roomId => some (.changeRoom, .page (.changeroom roomId))

def setFlight (i : ℕ) (f : Flight) (tab : Tab) : Tab :=
  { tab with flights := Function.update tab.flights i (some f) }

@[simp] lemma setFlight_flights_self (i : ℕ) (f : Flight) (tab : Tab) :
    (setFlight i f tab).flights i = some f :=
  Function.update_self ..

lemma setFlight_flights_of_ne {i j : ℕ} (h : j ≠ i) (f : Flight) (tab : Tab) :
    (setFlight i f tab).flights j = tab.flights j :=
  Function.update_of_ne h ..

def send (i : ℕ) (caller : Caller) (message : Message) (tab : Tab) : Tab :=
  setFlight i ⟨caller, message, tab.sessionid.toList, .sent⟩ tab

def receive (i : ℕ) (f : Flight) (r : Option Response) (tab : Tab) : Tab :=
  setFlight i { f with progress := .handled } { tab with
    scope := handle f.caller r tab.scope
    sessionid := (r.bind Response.cookie).or tab.sessionid }

def served {σ : Type} : Outcome σ Response → Progress
  | .ok r _ => .answered (some r)
  | .panic _ => .answered none
  | .hang _ => .waiting

def callAnswer (w : Web) (l : LoginId) : Option (Option Response) :=
  match w.calls l with
  | .aborted => some none
  | _ => (response w l).map some

def callOp (l : LoginId) (salt : Bytes) (inserted : Except String PeerId) : Message → Option Api.Op
  | .register nickname password => some (.register l nickname password salt inserted)
  | .login nickname password => some (.login l nickname password)
  | .page _ => none

def Progress.pending : Progress → Bool
  | .sent | .call _ | .waiting => true
  | .answered _ | .handled => false

section Step

variable (B : Bcrypt) (C : String → String) (makeLocalState : Server.State → LocalState)

/-- The page is opened once, in a browser that has no cookie of the site yet. -/
def start (db : Db) : State :=
  ⟨⟨⟨false, none, []⟩, true, none, fun _ => none, []⟩, Api.start C db⟩

def step (x : State) : Op → Option State
  -- the page asks for the rooms one second after it is opened, and at no other time
  | .timer i =>
    if x.tab.timer = true ∧ x.tab.flights i = none then
      some { x with
        tab := send i .refreshRooms (.page (.rooms .get none none)) { x.tab with timer := false } }
    else none
  | .click i c =>
    match c.request with
    | none => some { x with tab := { x.tab with scope := revealMakeRoom x.tab.scope } }
    | some (caller, message) =>
      if x.tab.flights i = none then
        some { x with
          tab := send i caller message { x.tab with typed := x.tab.typed ++ message.typed } }
      else none
  | .receive i l salt inserted =>
    match x.tab.flights i with
    | some ⟨caller, message, cookies, .sent⟩ =>
      (callOp l salt inserted message).bind fun op =>
        (Api.step B C makeLocalState x.web op).map fun web =>
          ⟨setFlight i ⟨caller, message, cookies, .call l⟩ x.tab, web⟩
    | _ => none
  | .serve i ch =>
    match x.tab.flights i with
    | some ⟨caller, .page page, cookies, .sent⟩ =>
      (Api.step B C makeLocalState x.web (.visit page cookies ch)).map fun web =>
        ⟨setFlight i ⟨caller, .page page, cookies, served (Api.visit C
          (x.web.env C makeLocalState) x.web.db page cookies ch x.web.server)⟩ x.tab, web⟩
    | _ => none
  | .respond i =>
    match x.tab.flights i with
    | some ⟨caller, message, cookies, .call l⟩ =>
      (callAnswer x.web l).map fun r =>
        { x with tab := setFlight i ⟨caller, message, cookies, .answered r⟩ x.tab }
    | _ => none
  | .fail i =>
    match x.tab.flights i with
    | some f =>
      if f.progress.pending = true then
        some { x with tab := setFlight i { f with progress := .answered none } x.tab }
      else none
    | none => none
  | .deliver i =>
    match x.tab.flights i with
    | some ⟨caller, message, cookies, .answered r⟩ =>
      some { x with tab := receive i ⟨caller, message, cookies, .answered r⟩ r x.tab }
    | _ => none
  | .web op => (Api.step B C makeLocalState x.web op).map fun web => { x with web }

end Step

end XbTunnel.Browser
