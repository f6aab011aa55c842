import XbTunnel.Server.Step

/-! The Mongo collections and the calls that read and write them. -/

namespace XbTunnel.Server

open Common Lib.Effects Lib.Maps Lib.Runs

structure Db where
  users : String → List User
  rooms : String → List Room

namespace Db

def insertUser (c : String) (user : User) (db : Db) : Db :=
  { db with users := Function.update db.users c (db.users c ++ [user]) }

def dropCollection (c : String) (db : Db) : Db where
  users := Function.update db.users c []
  rooms := Function.update db.rooms c []

end Db

structure Bcrypt where
  generateFromPassword (salt password : Bytes) : Except String Bytes
  compareHashAndPassword (hash password : Bytes) : Bool
  compare_iff : ∀ salt password hash, generateFromPassword salt password = .ok hash →
    ∀ p, compareHashAndPassword hash p = true ↔ p = password

/-- The database is free to answer with any of the documents that match. -/
def one {α : Type} (pick : ℕ) (docs : List α) : Except String α :=
  match docs[pick % docs.length]? with
  | some doc => .ok doc
  | none => .error "not found"

lemma one_eq_ok {α : Type} {pick : ℕ} {docs : List α} {doc : α} (h : one pick docs = .ok doc) :
    doc ∈ docs := by
  rw [one] at h
  split at h
  · rename_i hd
    obtain rfl := Except.ok.inj h
    exact List.mem_of_getElem? hd
  · cases h

lemma one_surjective {α : Type} {docs : List α} {doc : α} (h : doc ∈ docs) :
    ∃ pick, one pick docs = .ok doc := by
  obtain ⟨i, hi, rfl⟩ := List.getElem_of_mem h
  refine ⟨i, ?_⟩
  rw [one, Nat.mod_eq_of_lt hi, List.getElem?_eq_getElem hi]

lemma one_eq_error {α : Type} {pick : ℕ} {docs : List α} {err : String}
    (h : one pick docs = .error err) : docs = [] := by
  rw [one] at h
  split at h
  · cases h
  · rename_i hd
    have hle := List.getElem?_eq_none_iff.mp hd
    by_contra hne
    exact absurd (Nat.mod_lt pick (List.length_pos_iff.mpr hne)) (Nat.not_lt.mpr hle)

@[simp] lemma one_nil {α : Type} (pick : ℕ) : one pick ([] : List α) = .error "not found" := by
  simp [one]

section Calls

-- `C` says which collection is behind the name that is passed to `db.C`
variable (B : Bcrypt) (C : String → String)

def initMgo (db : Db) : Db :=
  ((db.dropCollection (C "xbtusers")).dropCollection (C "xbtsessions")).dropCollection
    (C "xbtrooms")

def issuedToken : Token := ⟨[0x74, 0x6f, 0x6b, 0x65, 0x6e]⟩

def register (nickname password salt : Bytes) (inserted : Except String PeerId) (db : Db) :
    Db × Except String User :=
  match B.generateFromPassword salt password with
  | .error err => (db, .error err)
  | .ok hashedPw =>
    let user : User := ⟨emptyPeerId, nickname, hashedPw, issuedToken⟩
    match inserted with
    | .error err => (db, .error err)
    -- the id is assigned to the document, not to the value that is returned
    | .ok id => (db.insertUser (C "Users") { user with id }, .ok user)

def FreshUser (db : Db) : Except String PeerId → Prop
  | .ok id => id ≠ emptyPeerId ∧ ∀ u ∈ db.users (C "Users"), u.id ≠ id
  | .error _ => True

instance (db : Db) : ∀ inserted, Decidable (FreshUser C db inserted)
  | .ok _ => inferInstanceAs (Decidable (_ ∧ _))
  | .error _ => .isTrue trivial

def setSessionCookie (id : PeerId) (order : List SessionId) (sid : SessionId) :
    Go State SessionId := do
  match ← getSessionByPeerId id order with
  | some s => pure s
  | none => createSession id sid

def login (db : Db) (nickname password : Bytes) (pick : ℕ) (order : List SessionId)
    (sid : SessionId) : Go State (Except String SessionId) :=
  match one pick ((db.users (C "xbtusers")).filter fun u => u.nickname = nickname) with
  | .error err => pure (.error ("err: " ++ err))
  | .ok user =>
    if user.id = emptyPeerId then pure (.error "Unknown nickname")
    else if B.compareHashAndPassword user.password password = false then
      pure (.error "Wrong password")
    else do
      let s ← setSessionCookie user.id order sid
      pure (.ok s)

def listRooms (db : Db) : List Room := db.rooms (C "rooms")

end Calls

variable {B : Bcrypt} {C : String → String}

@[simp] lemma insertUser_users_self (c : String) (user : User) (db : Db) :
    (db.insertUser c user).users c = db.users c ++ [user] :=
  Function.update_self ..

lemma insertUser_users_of_ne {c c' : String} (h : c' ≠ c) (user : User) (db : Db) :
    (db.insertUser c user).users c' = db.users c' :=
  Function.update_of_ne h ..

lemma initMgo_xbtusers (db : Db) : (initMgo C db).users (C "xbtusers") = [] := by
  simp only [initMgo, Db.dropCollection, Function.update_apply]
  split_ifs <;> rfl

lemma register_cases (n p salt : Bytes) (inserted : Except String PeerId) (db : Db) :
    (∃ id hash, B.generateFromPassword salt p = .ok hash ∧ inserted = .ok id ∧
      register B C n p salt inserted db =
        (db.insertUser (C "Users") ⟨id, n, hash, issuedToken⟩,
          .ok ⟨emptyPeerId, n, hash, issuedToken⟩)) ∨
    ((∀ hash, B.generateFromPassword salt p ≠ .ok hash) ∨ ∀ id, inserted ≠ .ok id) ∧
      ∃ err, register B C n p salt inserted db = (db, .error err) := by
  rw [register]
  cases hg : B.generateFromPassword salt p with
  | error err => exact .inr ⟨.inl (by simp), err, rfl⟩
  | ok hash =>
    cases inserted with
    | error err => exact .inr ⟨.inr (by simp), err, rfl⟩
    | ok id => exact .inl ⟨id, hash, rfl, rfl, rfl⟩

lemma register_rooms (n p salt : Bytes) (inserted : Except String PeerId) (db : Db) :
    (register B C n p salt inserted db).1.rooms = db.rooms := by
  obtain ⟨id, hash, -, -, he⟩ | ⟨-, err, he⟩ :=
    register_cases (B := B) (C := C) n p salt inserted db <;> rw [he]
  rfl

lemma register_users {n p salt : Bytes} {inserted : Except String PeerId} {db : Db} {c : String}
    {user : User} (h : user ∈ (register B C n p salt inserted db).1.users c) :
    user ∈ db.users c ∨ inserted = .ok user.id := by
  obtain ⟨id, hash, -, hi, he⟩ | ⟨-, err, he⟩ :=
    register_cases (B := B) (C := C) n p salt inserted db <;> rw [he] at h
  · by_cases hc : c = C "Users"
    · rw [hc, insertUser_users_self, List.mem_append, List.mem_singleton] at h
      rcases h with h | rfl
      · exact .inl (hc ▸ h)
      · exact .inr hi
    · rw [insertUser_users_of_ne hc] at h
      exact .inl h
  · exact .inl h

section Samples

def emptyDb : Db := ⟨fun _ => [], fun _ => []⟩

-- the collection that users are looked for in is the one that they are stored in
def oneCollection (c : String) : String := if c = "Users" then "xbtusers" else c

def sampleBcrypt : Bcrypt where
  generateFromPassword salt password :=
    if salt.length = 16 then .ok (salt ++ password) else .error "salt"
  compareHashAndPassword hash password := decide (hash.drop 16 = password)
  compare_iff salt password hash h p := by
    split_ifs at h with hl
    obtain rfl := Except.ok.inj h
    rw [decide_eq_true_eq, ← hl, List.drop_left, eq_comm]

def sampleSalt : Bytes := List.replicate 16 0

end Samples

end XbTunnel.Server
