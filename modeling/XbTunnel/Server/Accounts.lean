import XbTunnel.Server.Database
import XbTunnel.Server.Logins

/-! Sequences of registrations and logins. The two calls name different collections. -/

namespace XbTunnel.Server.Accounts

open Common Lib.Effects Lib.Maps Lib.Runs Logins

structure Registration where
  nickname : Bytes
  password : Bytes
  -- the stored document
  user : User
deriving DecidableEq

structure Backend where
  db : Db
  server : State
  registered : List Registration

inductive Call
  | register (nickname password salt : Bytes) (inserted : Except String PeerId)
  | login (nickname password : Bytes) (pick : ℕ) (order : List SessionId) (sid : SessionId)

variable (B : Bcrypt) (C : String → String)

def start (db : Db) : Backend := ⟨initMgo C db, init, []⟩

def record (nickname password : Bytes) : Except String PeerId → Except String User →
    List Registration
  | .ok id, .ok user => [⟨nickname, password, { user with id }⟩]
  | _, _ => []

def step (w : Backend) : Call → Option Backend
  | .register nickname password salt inserted =>
    if FreshUser C w.db inserted then
      let (db, res) := register B C nickname password salt inserted w.db
      some { w with db, registered := w.registered ++ record nickname password inserted res }
    else none
  | .login nickname password pick order sid =>
    if Visits w.server.ss order ∧ sid ∉ w.server.ss then
      some { w with
        server := (login B C w.db nickname password pick order sid w.server).state }
    else none

def Matches (n p : Bytes) (r : Registration) : Prop := r.nickname = n ∧ r.password = p

def LoginCorrect (w : Backend) : Call → Prop
  | .login n p pick order sid =>
    ((∃ s t, login B C w.db n p pick order sid w.server = .ok (.ok s) t) ↔
      ∃ r ∈ w.registered, Matches n p r) ∧
    ∀ s t, login B C w.db n p pick order sid w.server = .ok (.ok s) t →
      ∃ r ∈ w.registered, Matches n p r ∧ HasSession t r.user.id s
  | .register .. => True

def Unregistered (w : Backend) : Call → Prop
  | .login n p _ _ _ => ∀ r ∈ w.registered, ¬ Matches n p r
  | .register .. => True

instance (n p : Bytes) (r : Registration) : Decidable (Matches n p r) :=
  inferInstanceAs (Decidable (_ ∧ _))

instance (w : Backend) : ∀ a, Decidable (Unregistered w a)
  | .login _ _ _ _ _ => inferInstanceAs (Decidable (∀ r ∈ w.registered, _))
  | .register .. => .isTrue trivial

variable {B C} {w w' : Backend} {s : State}

structure Admits (B : Bcrypt) (C : String → String) (db : Db) (n p : Bytes) (pick : ℕ)
    (user : User) : Prop where
  found : one pick ((db.users (C "xbtusers")).filter fun u => u.nickname = n) = .ok user
  id : user.id ≠ emptyPeerId
  password : B.compareHashAndPassword user.password p = true

lemma Admits.mem {db : Db} {n p : Bytes} {pick : ℕ} {user : User}
    (h : Admits B C db n p pick user) : user ∈ db.users (C "xbtusers") :=
  List.mem_of_mem_filter (one_eq_ok h.found)

lemma setSessionCookie_ensures {s : State} (hs : SessionsReadable s) (hl : s.ssLock = .free)
    (pid : PeerId) (order : List SessionId) (sid : SessionId) :
    (setSessionCookie pid order sid).Ensures s (fun r t => HasSession t pid r ∧
      (t = s ∨ t = { s with ss := s.ss.insert sid (newSession pid sid) }))
      (fun _ => False) fun _ => False := by
  have hr : s.ssLock.Readable := hl ▸ RWMutex.free_readable
  rw [setSessionCookie, Go.ensures_bind, Go.Ensures, getSessionByPeerId_eq hs, if_pos hr]
  cases hf : order.find? (passes (ofPeerId pid) s) with
  | some r => exact ⟨passes_iff_hasSession.mp (List.find?_some hf), .inl rfl⟩
  | none =>
    refine (createSession_ensures pid sid s).mono ?_ (fun _ h => h) ?_
    · rintro r t ⟨rfl, -, rfl⟩
      exact ⟨⟨_, Finmap.lookup_insert _, rfl⟩, .inr rfl⟩
    · rintro t ⟨hn, -⟩
      exact hn (hl ▸ ⟨rfl, rfl⟩)

lemma login_refused {db : Db} {n p : Bytes} {pick : ℕ} (order : List SessionId) (sid : SessionId)
    (h : ∀ user, ¬ Admits B C db n p pick user) :
    ∃ err, login B C db n p pick order sid = pure (.error err) := by
  simp only [login]
  cases ho : one pick ((db.users (C "xbtusers")).filter fun u => u.nickname = n) with
  | error err => exact ⟨_, rfl⟩
  | ok user =>
    by_cases hid : user.id = emptyPeerId
    · exact ⟨_, if_pos hid⟩
    · simp only [if_neg hid]
      cases hp : B.compareHashAndPassword user.password p with
      | false => exact ⟨_, if_pos rfl⟩
      | true => exact absurd ⟨ho, hid, hp⟩ (h user)

lemma login_admitted {db : Db} {n p : Bytes} {pick : ℕ} {user : User} {s : State}
    (hs : SessionsReadable s) (hl : s.ssLock = .free) (order : List SessionId) (sid : SessionId)
    (h : Admits B C db n p pick user) :
    ∃ r t, login B C db n p pick order sid s = .ok (.ok r) t ∧ HasSession t user.id r ∧
      (t = s ∨ t = { s with ss := s.ss.insert sid (newSession user.id sid) }) := by
  have hlogin : login B C db n p pick order sid =
      setSessionCookie user.id order sid >>= fun r => pure (.ok r) := by
    simp only [login, h.found, if_neg h.id, h.password, Bool.true_eq_false, if_false]
  have hc := setSessionCookie_ensures hs hl user.id order sid
  rw [hlogin]
  cases ho : setSessionCookie user.id order sid s with
  | ok r t =>
    refine ⟨r, t, ?_, hc.of_ok ho⟩
    change Go.bind _ _ s = _
    rw [Go.bind, ho]
    rfl
  | panic t => exact (hc.of_panic ho).elim
  | hang t => exact (hc.of_hang ho).elim

section Separate

lemma step_xbtusers {a : Call} (hw : w.db.users "xbtusers" = [])
    (hs : step B id w a = some w') : w'.db.users "xbtusers" = [] := by
  cases a with
  | register n p salt inserted =>
    simp only [step, Option.ite_none_right_eq_some, Option.some.injEq] at hs
    obtain ⟨-, rfl⟩ := hs
    obtain ⟨id, hash, -, -, he⟩ | ⟨-, err, he⟩ := register_cases n p salt inserted w.db <;> rw [he]
    · exact (insertUser_users_of_ne (by decide) _ _).trans hw
    · exact hw
  | login n p pick order sid =>
    simp only [step, Option.ite_none_right_eq_some, Option.some.injEq] at hs
    obtain ⟨-, rfl⟩ := hs
    exact hw

lemma login_not_found (hw : w.db.users "xbtusers" = []) (n p : Bytes) (pick : ℕ)
    (order : List SessionId) (sid : SessionId) :
    login B id w.db n p pick order sid w.server = .ok (.error "err: not found") w.server := by
  simp only [login, id_eq, hw, List.filter_nil, one_nil]
  rfl

lemma loginCorrect_iff {a : Call} (hw : w.db.users "xbtusers" = []) :
    LoginCorrect B id w a ↔ Unregistered w a := by
  cases a with
  | register => rfl
  | login n p pick order sid =>
    have hn : ∀ s t, login B id w.db n p pick order sid w.server ≠ .ok (.ok s) t := by
      intro s t h
      rw [login_not_found hw] at h
      cases h
    simp only [LoginCorrect, Unregistered, hn, exists_false, false_iff, not_exists, not_and,
      false_implies, implies_true, and_true]

theorem login_correct_iff (db : Db) {tr : List (Backend × Call)} {u : Backend}
    (h : Run (Steps (step B id)) (start id db) tr u) :
    AllSteps (LoginCorrect B id) tr ↔ AllSteps Unregistered tr :=
  h.all_steps_iff (fun w => w.db.users "xbtusers" = []) (fun _ _ _ => step_xbtusers)
    (fun _ _ _ hw _ => loginCorrect_iff hw) (initMgo_xbtusers db)

end Separate

section Samples

def aliceRegisters : Call := .register alice.nickname [0x70] sampleSalt (.ok alice.id)

def aliceLogsIn (order : List SessionId) (sid : SessionId) : Call :=
  .login alice.nickname [0x70] 0 order sid

def wrongPassword : List Call :=
  [aliceRegisters, .login alice.nickname [0x71] 0 [] aliceSession,
    .login bob.nickname [0x70] 0 [] aliceSession]

theorem wrongPassword_correct : ∃ tr u, tr.map Prod.snd = wrongPassword ∧
    Run (Steps (step sampleBcrypt id)) (start id emptyDb) tr u ∧
    AllSteps (LoginCorrect sampleBcrypt id) tr := by
  obtain ⟨tr, u, ha, hr, hs⟩ :=
    follow_decide (step sampleBcrypt id) Unregistered (start id emptyDb) wrongPassword rfl
  exact ⟨tr, u, ha, hr, (login_correct_iff emptyDb hr).mpr hs⟩

def aliceDoc : User := ⟨alice.id, alice.nickname, sampleSalt ++ [0x70], issuedToken⟩

def aliceRegistered : Backend where
  db := (initMgo id emptyDb).insertUser "Users" aliceDoc
  server := init
  registered := [⟨alice.nickname, [0x70], aliceDoc⟩]

theorem aliceLogsIn_incorrect : ∃ tr u,
    tr.map Prod.snd = [aliceRegisters, aliceLogsIn [] aliceSession] ∧
    Run (Steps (step sampleBcrypt id)) (start id emptyDb) tr u ∧
    ¬ AllSteps (LoginCorrect sampleBcrypt id) tr := by
  refine ⟨[(start id emptyDb, aliceRegisters), (aliceRegistered, aliceLogsIn [] aliceSession)],
    _, rfl, .cons rfl (.cons rfl .nil), fun h => ?_⟩
  rw [allSteps_cons, allSteps_cons] at h
  exact (loginCorrect_iff rfl).mp h.2.1 _ List.mem_cons_self ⟨rfl, rfl⟩

end Samples

end XbTunnel.Server.Accounts
