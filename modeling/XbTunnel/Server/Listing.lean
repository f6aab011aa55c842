import XbTunnel.Server.Database
import XbTunnel.Server.Rooms

/-! The rooms that `listRooms` reads from Mongo and the rooms that the room store holds. -/

namespace XbTunnel.Server.Listing

open Common Lib.Effects Lib.Maps Lib.Runs Rooms

structure Site where
  db : Db
  server : State

inductive Op
  | serve (a : Action)
  | register (nickname password salt : Bytes) (inserted : Except String PeerId)

variable (B : Bcrypt) (C : String → String) (makeLocalState : State → LocalState)

def Site.env (w : Site) : Env := ⟨w.db.users (C "xbtusers"), makeLocalState⟩

def Unused (w : Site) : Except String PeerId → Prop
  | .ok id => (⟨id.oid⟩ : SessionId) ∉ w.server.ss
  | .error _ => True

instance (w : Site) : ∀ inserted, Decidable (Unused w inserted)
  | .ok _ => inferInstanceAs (Decidable (¬ _))
  | .error _ => .isTrue trivial

def step (w : Site) : Op → Option Site
  | .serve a => (Server.step (w.env C makeLocalState) w.server a).map fun server =>
    { w with server }
  | .register nickname password salt inserted =>
    if FreshUser C w.db inserted ∧ Unused w inserted then
      some { w with db := (register B C nickname password salt inserted w.db).1 }
    else none

structure RoomsListed (w : Site) : Prop where
  same : ∀ r, r ∈ listRooms C w.db ↔ w.server.rooms.lookup r.id = some r
  -- the handler of `changeroom` turns away exactly the rooms that this does not find
  entered : ∀ r ∈ listRooms C w.db, ∀ found t, getRoom r.id w.server = .ok found t →
    found = some r

def OpensNoRoom (w : Site) : Op → Prop
  | .serve a => MakesNoRoom w.server a
  | .register .. => True

structure Roomless (w : Site) : Prop where
  sound : Sound (w.env C makeLocalState) w.server
  rooms : w.server.rooms = ∅
  listed : listRooms C w.db = []

variable {B C makeLocalState} {w w' : Site}

lemma Roomless.roomsListed (h : Roomless C makeLocalState w) : RoomsListed C w where
  same r := by simp [h.listed, h.rooms]
  entered r hr := by simp [h.listed] at hr

lemma Roomless.step {a : Op} (h : Roomless C makeLocalState w)
    (hs : step B C makeLocalState w a = some w') (ha : OpensNoRoom w a) :
    Roomless C makeLocalState w' := by
  cases a with
  | serve a =>
    obtain ⟨t, ht, rfl⟩ := Option.map_eq_some_iff.mp hs
    exact ⟨h.sound.step ht, (step_rooms h.sound ht ha).trans h.rooms, h.listed⟩
  | register n p salt inserted =>
    simp only [Listing.step, Option.ite_none_right_eq_some, Option.some.injEq] at hs
    obtain ⟨⟨-, hn⟩, rfl⟩ := hs
    refine ⟨h.sound.of_users fun sid hm u hu => ?_, h.rooms, ?_⟩
    · rcases register_users hu with hu | rfl
      · exact h.sound.apart sid hm u hu
      · intro he
        obtain rfl : (⟨u.id.oid⟩ : SessionId) = sid := congrArg SessionId.mk he
        exact hn hm
    · rw [listRooms, register_rooms]
      exact h.listed

lemma made_unlisted {a : Op} (h : Roomless C makeLocalState w)
    (hs : step B C makeLocalState w a = some w') (ha : ¬ OpensNoRoom w a) : ¬ RoomsListed C w' := by
  cases a with
  | register => exact absurd trivial ha
  | serve a =>
    obtain ⟨t, ht, rfl⟩ := Option.map_eq_some_iff.mp hs
    obtain ⟨r, hr⟩ := step_makes_room h.sound ht ha
    intro hl
    have hm := (hl.same r).mpr hr
    rw [h.listed] at hm
    cases hm

theorem rooms_listed_iff (db : Db) (h0 : db.rooms (C "rooms") = []) {tr : List (Site × Op)}
    {u : Site} (h : Run (Steps (step B C makeLocalState)) ⟨db, init⟩ tr u) :
    AllStates (RoomsListed C) tr u ↔ AllSteps OpensNoRoom tr :=
  h.all_states_iff (Roomless C makeLocalState) (fun _ => Roomless.roomsListed)
    (fun _ _ _ => Roomless.step) (fun _ _ _ => made_unlisted) ⟨sound_init _, rfl, h0⟩

section Samples

def usersDb : Db := ⟨fun c => if c = "xbtusers" then [alice, bob] else [], fun _ => []⟩

def sampleStep : Site → Op → Option Site :=
  step sampleBcrypt id fun _ => LocalState.zero

def opensRoom : Op → Bool
  | .serve a => asksForRoom a
  | .register .. => false

lemma opensNoRoom_of_not_opensRoom {a : Op} (h : opensRoom a = false) : OpensNoRoom w a := by
  cases a with
  | serve a => exact makesNoRoom_of_not_asksForRoom h
  | register => trivial

def quietSite : List Op :=
  quietDay.map .serve ++ [.register [0x63] [0x70] sampleSalt (.ok ⟨[3]⟩)]

theorem quietSite_listed : ∃ tr u, tr.map Prod.snd = quietSite ∧
    Run (Steps sampleStep) ⟨usersDb, init⟩ tr u ∧ AllStates (RoomsListed id) tr u := by
  have hok : ∀ w a, (!opensRoom a) = true → OpensNoRoom w a :=
    fun _ _ h => opensNoRoom_of_not_opensRoom ((Bool.not_eq_true' _).mp h)
  obtain ⟨tr, u, ha, hr, hs⟩ := follow_run sampleStep _ hok ⟨usersDb, init⟩ quietSite rfl
  exact ⟨tr, u, ha, hr, (rooms_listed_iff usersDb rfl hr).mpr hs⟩

theorem roomDay_unlisted : ∃ tr u, tr.map Prod.snd = roomDay.map Op.serve ∧
    Run (Steps sampleStep) ⟨usersDb, init⟩ tr u ∧ ¬ RoomsListed id u := by
  have hend : (exec sampleStep ⟨usersDb, init⟩ (roomDay.map .serve)).any (fun u =>
      decide (u.server.rooms.lookup gameRoom = some ⟨gameRoom, "halo", "2v2"⟩
      ∧ u.db.rooms "rooms" = [])) = true := rfl
  obtain ⟨tr, u, ha, hr, hd⟩ := exec_any _ hend
  obtain ⟨hroom, hdb⟩ := of_decide_eq_true hd
  refine ⟨tr, u, ha, hr, fun hl => ?_⟩
  have hm := (hl.same ⟨gameRoom, "halo", "2v2"⟩).mpr hroom
  rw [listRooms, id, hdb] at hm
  cases hm

end Samples

end XbTunnel.Server.Listing
