import Mathlib.Data.Fintype.EquivFin
import Mathlib.Data.Multiset.OrderedMonoid
import Mathlib.Tactic.Abel
import XbTunnel.Lib.Channels
import XbTunnel.Lib.Tallies
import XbTunnel.Server.Effect

/-! The goroutine that makes room ids, and the calls of `newRoom` that wait for them. The loop of
that goroutine ends, and a call that gets no id any more keeps the lock of the room store. -/

namespace XbTunnel.Server.RoomIds

open Common Lib.Channels Lib.Effects Lib.Maps Lib.Runs Lib.Tallies

inductive Generator
  | testing
  | sending (id : RoomId)
  | returned
deriving DecidableEq

inductive Call
  | locking (name desc : String)
  | receiving (name desc : String)
  | storing (r : Room)
  | returned (r : Room)
deriving DecidableEq

/-- `ids` is what `NewObjectId` has returned so far, and `calls` are all the calls of `newRoom`, in
the order in which they were made. -/
structure World where
  i : ℕ
  generator : Generator
  roomIdGen : Chan RoomId
  ids : List RoomId
  locked : Bool
  rooms : Map RoomId Room
  calls : List Call

def start : World where
  i := 100
  generator := .testing
  roomIdGen := .make 1
  ids := []
  locked := false
  rooms := ∅
  calls := []

inductive Action
  | newId (id : RoomId)
  | sendId
  | leaveLoop
  | call (name desc : String)
  | lock (k : ℕ)
  | receive (k : ℕ)
  | store (k : ℕ)
deriving DecidableEq

def Action.isCall : Action → Bool
  | .call _ _ => true
  | _ => false

def step (w : World) : Action → Option World
  | .newId id =>
    if w.generator = .testing ∧ w.i < 10000 ∧ id ∉ w.ids then
      some { w with generator := .sending id, ids := id :: w.ids }
    else none
  | .sendId =>
    match w.generator with
    | .sending id => do
      let roomIdGen ← w.roomIdGen.send id
      some { w with roomIdGen, generator := .testing, i := w.i + 1 }
    | _ => none
  | .leaveLoop =>
    if w.generator = .testing ∧ 10000 ≤ w.i then some { w with generator := .returned } else none
  | .call name desc => some { w with calls := w.calls ++ [.locking name desc] }
  | .lock k =>
    match w.calls[k]? with
    | some (.locking name desc) =>
      if w.locked then none
      else some { w with locked := true, calls := w.calls.set k (.receiving name desc) }
    | _ => none
  | .receive k =>
    match w.calls[k]? with
    | some (.receiving name desc) => do
      let (id, roomIdGen) ← w.roomIdGen.recv
      some { w with roomIdGen, calls := w.calls.set k (.storing ⟨id, name, desc⟩) }
    | _ => none
  | .store k =>
    match w.calls[k]? with
    | some (.storing r) => some { w with
        rooms := w.rooms.insert r.id r, locked := false, calls := w.calls.set k (.returned r) }
    | _ => none

inductive Effect (w : World) : Action → World → Prop
  | newId {id} : w.generator = .testing → w.i < 10000 → id ∉ w.ids →
      Effect w (.newId id) { w with generator := .sending id, ids := id :: w.ids }
  | sendId {id roomIdGen} : w.generator = .sending id → w.roomIdGen.send id = some roomIdGen →
      Effect w .sendId { w with roomIdGen, generator := .testing, i := w.i + 1 }
  | leaveLoop : w.generator = .testing → 10000 ≤ w.i →
      Effect w .leaveLoop { w with generator := .returned }
  | call {name desc} :
      Effect w (.call name desc) { w with calls := w.calls ++ [.locking name desc] }
  | lock {k name desc} : w.calls[k]? = some (.locking name desc) → w.locked = false →
      Effect w (.lock k) { w with locked := true, calls := w.calls.set k (.receiving name desc) }
  | receive {k name desc id roomIdGen} : w.calls[k]? = some (.receiving name desc) →
      w.roomIdGen.recv = some (id, roomIdGen) → Effect w (.receive k)
        { w with roomIdGen, calls := w.calls.set k (.storing ⟨id, name, desc⟩) }
  | store {k r} : w.calls[k]? = some (.storing r) → Effect w (.store k) { w with
      rooms := w.rooms.insert r.id r, locked := false, calls := w.calls.set k (.returned r) }

def AddsOnly (w : World) (a : Action) : Prop :=
  ∀ v, step w a = some v → match a with
    | .store k => ∃ r, w.calls[k]? = some (.storing r) ∧ r.id ∉ w.rooms ∧
        v.rooms = w.rooms.insert r.id r ∧ v.calls[k]? = some (.returned r)
    | _ => v.rooms = w.rooms

def AllReturned (w : World) : Prop := ∀ c ∈ w.calls, ∃ r, c = .returned r

def Quiet (w : World) (a : Action) (v : World) : Prop := a.isCall = false ∧ step w a = some v

def Serves (w : World) : Prop :=
  ∀ tr u, Run Quiet w tr u → AllSteps AddsOnly tr ∧ CanReach Quiet AllReturned u

def Call.served : Call → ℕ
  | .storing _ | .returned _ => 1
  | .locking _ _ | .receiving _ _ => 0

def Call.inside : Call → ℕ
  | .receiving _ _ | .storing _ => 1
  | .locking _ _ | .returned _ => 0

def Call.id : Call → Multiset RoomId
  | .storing r => {r.id}
  | .locking _ _ | .receiving _ _ | .returned _ => 0

def Generator.id : Generator → Multiset RoomId
  | .sending id => {id}
  | .testing | .returned => 0

def Call.rank : Call → ℕ
  | .locking _ _ => 10
  | .receiving _ _ => 9
  | .storing _ => 1
  | .returned _ => 0

def Generator.rank : Generator → ℕ
  | .testing => 3
  | .sending _ => 2
  | .returned => 0

def rank (w : World) : ℕ :=
  total Call.rank w.calls + if w.roomIdGen.buf = [] then w.generator.rank else 0

def placed (w : World) : Multiset RoomId :=
  w.generator.id + w.roomIdGen.buf + total Call.id w.calls + w.rooms.keys.val

structure Inv (w : World) : Prop where
  cap : w.roomIdGen.cap = 1
  open_ : w.roomIdGen.closed = false
  length : w.roomIdGen.buf.length ≤ 1
  served : 100 + total Call.served w.calls + w.roomIdGen.buf.length = w.i
  le : w.i ≤ 10000
  sending : ∀ id, w.generator = .sending id → w.i < 10000
  ended : w.generator = .returned → w.i = 10000
  inside : total Call.inside w.calls = w.locked.toNat
  -- each id is in one place: with the generator, in the channel, with a call or in the store
  placed : (w.ids : Multiset RoomId) = placed w
  nodup : w.ids.Nodup

structure Exhausted (k : ℕ) (name desc : String) (w : World) : Prop where
  inv : Inv w
  ended : w.generator = .returned
  empty : w.roomIdGen.buf = []
  receiving : w.calls[k]? = some (.receiving name desc)

variable {w v u : World} {a : Action} {tr : List (World × Action)}

lemma step_effect (h : step w a = some v) : Effect w a v := by
  cases a with
  | newId id =>
    obtain ⟨⟨hg, hi, hid⟩, h⟩ := Option.ite_none_right_eq_some.mp h
    cases h
    exact .newId hg hi hid
  | sendId =>
    simp only [step] at h
    split at h
    · rename_i id hg
      obtain ⟨_, hs, h⟩ := Option.bind_eq_some_iff.mp h
      cases h
      exact .sendId hg hs
    · cases h
  | leaveLoop =>
    obtain ⟨⟨hg, hi⟩, h⟩ := Option.ite_none_right_eq_some.mp h
    cases h
    exact .leaveLoop hg hi
  | call name desc =>
    cases h
    exact .call
  | lock k =>
    simp only [step] at h
    split at h
    · rename_i hk
      obtain ⟨hl, h⟩ := Option.ite_none_left_eq_some.mp h
      cases h
      exact .lock hk (Bool.not_eq_true _ ▸ hl)
    · cases h
  | receive k =>
    simp only [step] at h
    split at h
    · rename_i hk
      obtain ⟨_, hr, h⟩ := Option.bind_eq_some_iff.mp h
      cases h
      exact .receive hk hr
    · cases h
  | store k =>
    simp only [step] at h
    split at h
    · rename_i hk
      cases h
      exact .store hk
    · cases h

section Invariant

variable {k : ℕ} {r : Room}

lemma storing_fresh (hi : Inv w) (hk : w.calls[k]? = some (.storing r)) : r.id ∉ w.rooms := by
  have hmem : r.id ∈ total Call.id w.calls := by
    have hle := single_le_total Call.id (List.mem_of_getElem? hk)
    exact Multiset.mem_of_le hle (Multiset.mem_singleton_self _)
  have hn : (RoomIds.placed w).Nodup := hi.placed ▸ Multiset.coe_nodup.mpr hi.nodup
  have hd := (Multiset.nodup_add.mp hn).2.2
  intro hr
  exact Multiset.disjoint_left.mp hd (Multiset.mem_add.mpr (.inr hmem)) (Finmap.mem_keys.mpr hr)

lemma received_id {id : RoomId} {roomIdGen : Chan RoomId} (hi : Inv w)
    (h : w.roomIdGen.recv = some (id, roomIdGen)) :
    w.roomIdGen.buf = [id] ∧ roomIdGen.buf = [] := by
  obtain ⟨rest, hb, rfl⟩ := Chan.recv_eq_some.mp h
  have hlen := hi.length
  rw [hb, List.length_cons] at hlen
  obtain rfl := List.length_eq_zero_iff.mp (by omega : rest.length = 0)
  exact ⟨hb, rfl⟩

lemma inv_start : Inv start where
  cap := rfl
  open_ := rfl
  length := Nat.zero_le _
  served := rfl
  le := by decide
  sending _ h := by cases h
  ended h := by cases h
  inside := rfl
  placed := rfl
  nodup := List.nodup_nil

lemma Inv.newId {id : RoomId} (hi : Inv w) (hg : w.generator = .testing) (hlt : w.i < 10000)
    (hid : id ∉ w.ids) : Inv { w with generator := .sending id, ids := id :: w.ids } := by
  refine { hi with sending := fun _ _ => hlt, ended := nofun, placed := ?_, nodup := ?_ }
  · have hp := hi.placed
    simp only [RoomIds.placed, hg, Generator.id] at hp ⊢
    rw [← Multiset.cons_coe, hp, zero_add, ← Multiset.singleton_add]
    simp only [add_assoc]
  · exact List.nodup_cons.mpr ⟨hid, hi.nodup⟩

lemma Inv.sendId {id : RoomId} {roomIdGen : Chan RoomId} (hi : Inv w)
    (hg : w.generator = .sending id) (hs : w.roomIdGen.send id = some roomIdGen) :
    Inv { w with roomIdGen, generator := .testing, i := w.i + 1 } := by
  obtain ⟨hroom, rfl⟩ := Chan.send_eq_some.mp hs
  have hb : w.roomIdGen.buf = [] := by
    rw [hi.cap] at hroom
    exact List.length_eq_zero_iff.mp (by omega)
  refine ⟨hi.cap, hi.open_, ?_, ?_, hi.sending id hg, nofun, nofun, hi.inside, ?_, hi.nodup⟩
  · simp [hb]
  · have hserved := hi.served
    simp only [hb, List.length_nil, List.nil_append, List.length_singleton] at hserved ⊢
    omega
  · have hp := hi.placed
    simp only [RoomIds.placed, hg, hb, Generator.id] at hp ⊢
    rw [hp]
    simp

lemma Inv.leaveLoop (hi : Inv w) (hg : w.generator = .testing) (hge : 10000 ≤ w.i) :
    Inv { w with generator := .returned } := by
  refine { hi with sending := nofun, ended := fun _ => le_antisymm hi.le hge, placed := ?_ }
  have hp := hi.placed
  simpa only [RoomIds.placed, hg, Generator.id] using hp

lemma Inv.call (hi : Inv w) (name desc : String) :
    Inv { w with calls := w.calls ++ [.locking name desc] } := by
  refine { hi with served := ?_, inside := ?_, placed := ?_ }
  · simpa [Call.served] using hi.served
  · simpa [Call.inside] using hi.inside
  · simpa [RoomIds.placed, Call.id] using hi.placed

lemma Inv.lock {name desc : String} (hi : Inv w) (hk : w.calls[k]? = some (.locking name desc))
    (hl : w.locked = false) :
    Inv { w with locked := true, calls := w.calls.set k (.receiving name desc) } := by
  have hs := total_set Call.served hk (.receiving name desc)
  have hin := total_set Call.inside hk (.receiving name desc)
  have hid := total_set Call.id hk (.receiving name desc)
  simp only [Call.served, Call.inside, Call.id, add_zero] at hs hin hid
  refine { hi with served := ?_, inside := ?_, placed := ?_ }
  · exact hs ▸ hi.served
  · rw [hin, hi.inside, hl]
    rfl
  · rw [RoomIds.placed, hid]
    exact hi.placed

lemma Inv.receive {name desc : String} {id : RoomId} {roomIdGen : Chan RoomId} (hi : Inv w)
    (hk : w.calls[k]? = some (.receiving name desc))
    (hr : w.roomIdGen.recv = some (id, roomIdGen)) :
    Inv { w with roomIdGen, calls := w.calls.set k (.storing ⟨id, name, desc⟩) } := by
  obtain ⟨hb, hb'⟩ := received_id hi hr
  have hs := total_set Call.served hk (.storing ⟨id, name, desc⟩)
  have hin := total_set Call.inside hk (.storing ⟨id, name, desc⟩)
  have hid := total_set Call.id hk (.storing ⟨id, name, desc⟩)
  simp only [Call.served, Call.inside, Call.id, add_zero] at hs hin hid
  refine { hi with
    cap := (Chan.recv_cap hr).trans hi.cap, open_ := (Chan.recv_closed hr).trans hi.open_,
    length := ?_, served := ?_, inside := ?_, placed := ?_ }
  · rw [hb']
    exact Nat.zero_le _
  · have hserved := hi.served
    rw [hb, List.length_singleton] at hserved
    rw [hs, hb', List.length_nil]
    exact hserved
  · exact (Nat.add_right_cancel hin).trans hi.inside
  · have hp := hi.placed
    rw [RoomIds.placed, hb] at hp
    rw [RoomIds.placed, hid, hb', hp]
    simp only [Multiset.coe_singleton, Multiset.coe_nil, add_zero]
    abel

lemma Inv.store (hi : Inv w) (hk : w.calls[k]? = some (.storing r)) : Inv { w with
    rooms := w.rooms.insert r.id r, locked := false, calls := w.calls.set k (.returned r) } := by
  have hs := total_set Call.served hk (.returned r)
  have hin := total_set Call.inside hk (.returned r)
  have hid := total_set Call.id hk (.returned r)
  simp only [Call.served, Call.inside, Call.id, add_zero] at hs hin hid
  refine { hi with served := ?_, inside := ?_, placed := ?_ }
  · rw [Nat.add_right_cancel hs]
    exact hi.served
  · have hle := hi.inside.trans_le (Bool.toNat_le _)
    exact Nat.le_zero.mp (Nat.le_of_succ_le_succ (hin.trans_le hle))
  · have hp := hi.placed
    rw [RoomIds.placed, ← hid] at hp
    rw [RoomIds.placed, keys_insert_val (storing_fresh hi hk), hp, ← Multiset.singleton_add]
    abel

lemma Inv.step (hi : Inv w) (h : step w a = some v) : Inv v := by
  cases step_effect h with
  | newId hg hlt hid => exact hi.newId hg hlt hid
  | sendId hg hs => exact hi.sendId hg hs
  | leaveLoop hg hge => exact hi.leaveLoop hg hge
  | call => exact hi.call _ _
  | lock hk hl => exact hi.lock hk hl
  | receive hk hr => exact hi.receive hk hr
  | store hk => exact hi.store hk

end Invariant

section Progress

variable {k : ℕ} {name desc : String} {r : Room}

lemma lock_progress (hi : Inv w) (hk : w.calls[k]? = some (.locking name desc))
    (h0 : total Call.inside w.calls = 0) : ∃ a v, Quiet w a v ∧ rank v < rank w := by
  have hl : w.locked = false := by
    have htoNat := hi.inside.symm.trans h0
    exact Bool.toNat_eq_zero.mp htoNat
  have hs : step w (.lock k) = some { w with
      locked := true, calls := w.calls.set k (.receiving name desc) } := by
    simp only [step, hk, hl, Bool.false_eq_true, if_false]
  refine ⟨_, _, ⟨rfl, hs⟩, ?_⟩
  have hr := total_set Call.rank hk (.receiving name desc)
  simp only [rank, Call.rank] at hr ⊢
  omega

lemma store_progress (hk : w.calls[k]? = some (.storing r)) :
    ∃ a v, Quiet w a v ∧ rank v < rank w := by
  have hs : step w (.store k) = some { w with
      rooms := w.rooms.insert r.id r, locked := false, calls := w.calls.set k (.returned r) } := by
    simp only [step, hk]
  refine ⟨_, _, ⟨rfl, hs⟩, ?_⟩
  have hr := total_set Call.rank hk (.returned r)
  simp only [rank, Call.rank] at hr ⊢
  omega

lemma generator_progress (hi : Inv w) (hb : w.roomIdGen.buf = []) :
    (∃ a v, Quiet w a v ∧ rank v < rank w) ∨ w.generator = .returned := by
  cases hg : w.generator with
  | testing =>
    left
    rcases Nat.lt_or_ge w.i 10000 with hlt | hge
    · obtain ⟨oid, hid⟩ := Infinite.exists_notMem_finset (w.ids.map RoomId.oid).toFinset
      have hs : step w (.newId ⟨oid⟩) = some { w with
          generator := .sending ⟨oid⟩, ids := ⟨oid⟩ :: w.ids } := by
        refine if_pos ⟨hg, hlt, fun h => hid ?_⟩
        exact List.mem_toFinset.mpr (List.mem_map_of_mem (f := RoomId.oid) h)
      refine ⟨_, _, ⟨rfl, hs⟩, ?_⟩
      simp only [rank, hb, hg, Generator.rank, if_true]
      omega
    · have hs : step w .leaveLoop = some { w with generator := .returned } := if_pos ⟨hg, hge⟩
      refine ⟨_, _, ⟨rfl, hs⟩, ?_⟩
      simp only [rank, hb, hg, Generator.rank, if_true]
      omega
  | sending id =>
    have hsend : w.roomIdGen.send id = some { w.roomIdGen with buf := w.roomIdGen.buf ++ [id] } :=
      Chan.send_eq_some.mpr ⟨⟨hi.open_, by simp [hb, hi.cap]⟩, rfl⟩
    have hs : step w .sendId = some { w with
        roomIdGen := { w.roomIdGen with buf := w.roomIdGen.buf ++ [id] }, generator := .testing
        i := w.i + 1 } := by
      simp only [step, hg, hsend, Option.bind_eq_bind, Option.bind_some]
    refine .inl ⟨_, _, ⟨rfl, hs⟩, ?_⟩
    simp [rank, hb, hg, Generator.rank]
  | returned => exact .inr rfl

lemma receive_progress (hi : Inv w) (hk : w.calls[k]? = some (.receiving name desc)) :
    (∃ a v, Quiet w a v ∧ rank v < rank w) ∨ Exhausted k name desc w := by
  cases hb : w.roomIdGen.buf with
  | nil => exact (generator_progress hi hb).imp_right fun hg => ⟨hi, hg, hb, hk⟩
  | cons id rest =>
    have hr : w.roomIdGen.recv = some (id, { w.roomIdGen with buf := rest }) :=
      Chan.recv_eq_some.mpr ⟨rest, hb, rfl⟩
    have hs : step w (.receive k) = some { w with
        roomIdGen := { w.roomIdGen with buf := rest }
        calls := w.calls.set k (.storing ⟨id, name, desc⟩) } := by
      simp only [step, hk, hr, Option.bind_eq_bind, Option.bind_some]
    refine .inl ⟨_, _, ⟨rfl, hs⟩, ?_⟩
    have hrank := total_set Call.rank hk (.storing ⟨id, name, desc⟩)
    have hgen : w.generator.rank ≤ 3 := by cases w.generator <;> simp [Generator.rank]
    simp only [rank, Call.rank, hb, reduceCtorEq, if_false] at hrank ⊢
    split <;> omega

lemma progress (hi : Inv w) (hd : ¬ AllReturned w) :
    (∃ a v, Quiet w a v ∧ rank v < rank w) ∨ ∃ k name desc, Exhausted k name desc w := by
  by_cases hin : ∃ c ∈ w.calls, c.inside ≠ 0
  · obtain ⟨c, hm, h0⟩ := hin
    obtain ⟨k, hk⟩ := List.getElem?_of_mem hm
    cases c with
    | receiving name desc => exact (receive_progress hi hk).imp_right fun h => ⟨k, name, desc, h⟩
    | storing r => exact .inl (store_progress hk)
    | locking name desc | returned r => exact absurd rfl h0
  · push Not at hin
    simp only [AllReturned, not_forall] at hd
    obtain ⟨c, hm, hn⟩ := hd
    obtain ⟨k, hk⟩ := List.getElem?_of_mem hm
    cases c with
    | locking name desc => exact .inl (lock_progress hi hk (total_eq_zero hin))
    | receiving name desc | storing r => exact absurd (hin _ hm) Nat.one_ne_zero
    | returned r => exact absurd ⟨r, rfl⟩ hn

end Progress

section Serving

lemma step_calls (h : step w a = some v) :
    v.calls.length = w.calls.length + if a.isCall then 1 else 0 := by
  cases step_effect h with
  | call => exact List.length_append
  | lock | receive | store => exact List.length_set
  | _ => rfl

lemma run_calls (h : Run (Steps step) w tr u) :
    u.calls.length = w.calls.length + (tr.map Prod.snd).countP Action.isCall := by
  induction h with
  | nil => rfl
  | cons he _ ih =>
    rw [ih, step_calls he, List.map_cons, List.countP_cons]
    ac_rfl

lemma Quiet.calls (h : Quiet w a v) : v.calls.length = w.calls.length := by
  rw [step_calls h.2, h.1]
  rfl

lemma Exhausted.length {k : ℕ} {name desc : String} (h : Exhausted k name desc w) :
    9900 < w.calls.length := by
  have hlt : total Call.served w.calls < w.calls.length := by
    refine total_lt_length ?_ (List.mem_of_getElem? h.receiving) rfl
    rintro (_ | _ | _ | _) <;> simp [Call.served]
  have hserved := h.inv.served
  rw [h.empty, h.inv.ended h.ended, List.length_nil] at hserved
  omega

lemma can_return (hi : Inv w) (hc : w.calls.length ≤ 9900) : CanReach Quiet AllReturned w := by
  refine CanReach.of_rank (fun w => Inv w ∧ w.calls.length ≤ 9900) rank ?_ ⟨hi, hc⟩
  rintro w ⟨hi, hc⟩ hd
  rcases progress hi hd with ⟨a, v, hq, hlt⟩ | ⟨k, name, desc, h⟩
  · exact ⟨a, v, hq, ⟨hi.step hq.2, hq.calls.trans_le hc⟩, hlt⟩
  · exact absurd h.length (Nat.not_lt.mpr hc)

lemma returned_le (hi : Inv w) (hd : AllReturned w) : w.calls.length ≤ 9900 := by
  have hall : total Call.served w.calls = w.calls.length := by
    apply total_eq_length
    intro c hc
    obtain ⟨r, rfl⟩ := hd c hc
    rfl
  have hserved := hi.served
  have hle := hi.le
  omega

lemma addsOnly (hi : Inv w) (a : Action) : AddsOnly w a := by
  intro v h
  cases step_effect h with
  | @store k r hk =>
    refine ⟨r, hk, storing_fresh hi hk, rfl, ?_⟩
    exact List.getElem?_set_self (List.getElem?_eq_some_iff.mp hk).1
  | _ => rfl

lemma quiet_run (hi : Inv w) (h : Run Quiet w tr u) :
    AllStates (fun v => Inv v ∧ v.calls.length = w.calls.length) tr u :=
  h.invariant (fun _ _ _ hv hq => ⟨hv.1.step hq.2, hq.calls.trans hv.2⟩) ⟨hi, rfl⟩

lemma serves_iff (hi : Inv w) : Serves w ↔ w.calls.length ≤ 9900 := by
  constructor
  · intro h
    obtain ⟨tr, u, hr, hd⟩ := (h [] w .nil).2
    obtain ⟨-, hu, hlen⟩ := quiet_run hi hr
    exact hlen ▸ returned_le hu hd
  · intro hc tr u hr
    obtain ⟨htr, hu, hlen⟩ := quiet_run hi hr
    exact ⟨fun p hp => addsOnly (htr p hp).1 p.2, can_return hu (hlen.trans_le hc)⟩

theorem newRoom_served_iff (h : Run (Steps step) start tr w) (name desc : String)
    (hs : step w (.call name desc) = some v) :
    Serves v ↔ (tr.map Prod.snd).countP Action.isCall < 9900 := by
  have hi : Inv w := h.invariant_last (fun _ _ _ => Inv.step) inv_start
  have hlen : w.calls.length = (tr.map Prod.snd).countP Action.isCall := by
    rw [run_calls h]
    exact Nat.zero_add _
  rw [serves_iff (hi.step hs), step_calls hs, hlen]
  exact Nat.succ_le_iff

section Samples

def firstRoom : List Action :=
  [.call "halo" "2v2", .newId ⟨[21]⟩, .lock 0, .sendId, .newId ⟨[22]⟩, .receive 0, .store 0]

theorem secondRoom_served : ∃ tr w v, tr.map Prod.snd = firstRoom ∧
    Run (Steps step) start tr w ∧ step w (.call "halo" "4v4") = some v ∧ Serves v := by
  have hend : (exec step start firstRoom).any (fun _ => true) = true := rfl
  obtain ⟨tr, w, ha, hr, -⟩ := exec_any _ hend
  refine ⟨tr, w, _, ha, hr, rfl, (newRoom_served_iff hr "halo" "4v4" rfl).mpr ?_⟩
  rw [ha]
  decide

lemma calls_run (n : ℕ) : ∃ tr w, Run (Steps step) start tr w ∧ w.calls.length = n := by
  induction n with
  | zero => exact ⟨[], start, .nil, rfl⟩
  | succ n ih =>
    obtain ⟨tr, w, hr, hlen⟩ := ih
    have hs : step w (.call "halo" "2v2") = some _ := rfl
    exact ⟨_, _, hr.snoc hs, (step_calls hs).trans (congrArg Nat.succ hlen)⟩

theorem room_9901_not_served : ∃ tr w v, Run (Steps step) start tr w ∧
    (tr.map Prod.snd).countP Action.isCall = 9900 ∧ AllReturned w ∧
    step w (.call "halo" "2v2") = some v ∧ ¬ Serves v := by
  obtain ⟨tr, w, hr, hw⟩ := calls_run 9900
  have hi : Inv w := hr.invariant_last (fun _ _ _ => Inv.step) inv_start
  obtain ⟨tr', u, hq, hd⟩ := can_return hi hw.le
  obtain ⟨-, hu, hlen⟩ := quiet_run hi hq
  have hrun : Run (Steps step) start (tr ++ tr') u := hr.trans (hq.mono fun _ _ _ hs => hs.2)
  have hcalls : 9900 = 0 + _ := (hlen.trans hw).symm.trans (run_calls hrun)
  have hs : step u (.call "halo" "2v2") = some _ := rfl
  refine ⟨_, u, _, hrun, (hcalls.trans (Nat.zero_add _)).symm, hd, hs, ?_⟩
  rw [serves_iff (hu.step hs), step_calls hs, hlen, hw]
  exact Nat.not_succ_le_self 9900

end Samples

end Serving

section Waiting

variable {k : ℕ} {name desc : String}

lemma Exhausted.locked (h : Exhausted k name desc w) : w.locked = true := by
  have hle := single_le_total Call.inside (List.mem_of_getElem? h.receiving)
  rw [h.inv.inside] at hle
  exact Bool.toNat_eq_one.mp (le_antisymm (Bool.toNat_le _) hle)

lemma Exhausted.alone (h : Exhausted k name desc w) {k' : ℕ} {r : Room} :
    w.calls[k']? ≠ some (.storing r) := by
  intro hk'
  have hne : k ≠ k' := by
    rintro rfl
    cases h.receiving.symm.trans hk'
  have hset := total_set Call.inside h.receiving (.locking name desc)
  rw [h.inv.inside, h.locked] at hset
  rw [← List.getElem?_set_ne hne] at hk'
  have hle := single_le_total Call.inside (List.mem_of_getElem? hk')
  have h0 := Nat.add_right_cancel (hset.trans (Nat.add_comm _ _))
  rw [h0] at hle
  cases hle

lemma Exhausted.step (h : Exhausted k name desc w) (hs : step w a = some v) :
    Exhausted k name desc v := by
  have hi := h.inv.step hs
  cases step_effect hs with
  | newId hg | sendId hg | leaveLoop hg => cases h.ended.symm.trans hg
  | call =>
    have hlt := (List.getElem?_eq_some_iff.mp h.receiving).1
    exact ⟨hi, h.ended, h.empty, (List.getElem?_append_left hlt).trans h.receiving⟩
  | lock _ hl => cases h.locked.symm.trans hl
  | receive _ hr =>
    obtain ⟨rest, hb, -⟩ := Chan.recv_eq_some.mp hr
    cases h.empty.symm.trans hb
  | store hk => exact absurd hk h.alone

lemma exhausted_run (h : Exhausted k name desc w) (hr : Run (Steps step) w tr u) :
    Exhausted k name desc u :=
  hr.invariant_last (fun _ _ _ => Exhausted.step) h

lemma can_exhaust (hi : Inv w) (hc : 9900 < w.calls.length) :
    CanReach Quiet (fun u => ∃ k name desc, Exhausted k name desc u) w := by
  refine CanReach.of_rank (fun w => Inv w ∧ 9900 < w.calls.length) rank ?_ ⟨hi, hc⟩
  rintro w ⟨hi, hc⟩ hn
  have hd : ¬ AllReturned w := fun hd => absurd (returned_le hi hd) (Nat.not_le.mpr hc)
  obtain ⟨a, v, hq, hlt⟩ := (progress hi hd).resolve_right hn
  exact ⟨a, v, hq, ⟨hi.step hq.2, hc.trans_eq hq.calls.symm⟩, hlt⟩

def Blocked (w : World) : Prop :=
  ∃ (k : ℕ) (name desc : String), ∀ tr (u : World), Run (Steps step) w tr u →
    u.locked = true ∧ u.calls[k]? = some (.receiving name desc)

theorem can_block (h : Run (Steps step) start tr w)
    (hc : 9900 < (tr.map Prod.snd).countP Action.isCall) : CanReach Quiet Blocked w := by
  have hlen : 9900 < w.calls.length := hc.trans_eq ((run_calls h).trans (Nat.zero_add _)).symm
  obtain ⟨tr', u, hr, k, name, desc, hu⟩ :=
    can_exhaust (h.invariant_last (fun _ _ _ => Inv.step) inv_start) hlen
  refine ⟨tr', u, hr, k, name, desc, fun tr'' t hr' => ?_⟩
  have ht := exhausted_run hu hr'
  exact ⟨ht.locked, ht.receiving⟩

end Waiting

section Atomic

def Call.done : Call → ℕ
  | .returned _ => 1
  | .locking _ _ | .receiving _ _ | .storing _ => 0

structure Abstracts (w : World) (s : State) : Prop where
  rooms : s.rooms = w.rooms
  left : s.roomIdsLeft + total Call.done w.calls = 9900
  free : Lockable s.rmsLock

def Atomic (s : State) (r : Room) (t : State) : Prop :=
  newRoom r.name r.description r.id s = .ok r t

variable {s : State} {k : ℕ} {r : Room}

lemma done_lt (hi : Inv w) (hk : w.calls[k]? = some (.storing r)) :
    total Call.done w.calls < 9900 := by
  have hdone := total_set Call.done hk (.returned r)
  have hserved := total_set Call.served hk (.returned r)
  have hmono : total Call.done (w.calls.set k (.returned r)) ≤
      total Call.served (w.calls.set k (.returned r)) := by
    apply total_mono
    rintro (_ | _ | _ | _) <;> simp [Call.done, Call.served]
  have hs := hi.served
  have hle := hi.le
  simp only [Call.done, Call.served] at hdone hserved
  omega

lemma newRoom_ok (hf : Lockable s.rmsLock) (h0 : s.roomIdsLeft ≠ 0) (r : Room) :
    Atomic s r { s with rooms := s.rooms.insert r.id r, roomIdsLeft := s.roomIdsLeft - 1 } := by
  have h := newRoom_ensures r.name r.description r.id s
  rw [Atomic]
  cases ho : newRoom r.name r.description r.id s with
  | ok r' t =>
    obtain ⟨rfl, -, -, rfl⟩ := h.of_ok ho
    rfl
  | panic t => exact (h.of_panic ho).elim
  | hang t => exact ((h.of_hang ho).1.elim (absurd hf) fun h => absurd h h0)

lemma step_atomic (hi : Inv w) (h : step w a = some v) (ha : Abstracts w s) :
    ∃ tr t, Run Atomic s tr t ∧ Abstracts v t := by
  have hstays : ∀ {v : World}, v.rooms = w.rooms →
      total Call.done v.calls = total Call.done w.calls →
      ∃ tr t, Run Atomic s tr t ∧ Abstracts v t :=
    fun hr hd => ⟨[], s, .nil, ha.rooms.trans hr.symm, hd ▸ ha.left, ha.free⟩
  cases step_effect h with
  | newId | sendId | leaveLoop => exact hstays rfl rfl
  | call => exact hstays rfl (by simp [Call.done])
  | lock hk => exact hstays rfl (total_set Call.done hk _)
  | receive hk => exact hstays rfl (total_set Call.done hk _)
  | @store k r hk =>
    have hlt := done_lt hi hk
    have hset := total_set Call.done hk (.returned r)
    have hleft := ha.left
    simp only [Call.done, add_zero] at hset
    have hsub : s.roomIdsLeft - 1 + (total Call.done w.calls + 1) = 9900 := by omega
    refine ⟨_, _, .single (newRoom_ok ha.free (by omega) r), ?_, ?_, ha.free⟩
    · rw [ha.rooms]
    · rw [hset]
      exact hsub

lemma run_atomic_from (hi : Inv w) (ha : Abstracts w s) (h : Run (Steps step) w tr u) :
    ∃ tr' t, Run Atomic s tr' t ∧ Abstracts u t := by
  induction h generalizing s with
  | nil => exact ⟨[], s, .nil, ha⟩
  | cons he _ ih =>
    obtain ⟨tr₁, t, hr₁, ht⟩ := step_atomic hi he ha
    obtain ⟨tr₂, u, hr₂, hu⟩ := ih (hi.step he) ht
    exact ⟨tr₁ ++ tr₂, u, hr₁.trans hr₂, hu⟩

theorem run_atomic (h : Run (Steps step) start tr w) :
    ∃ tr' t, Run Atomic init tr' t ∧ Abstracts w t :=
  run_atomic_from inv_start ⟨rfl, rfl, ⟨rfl, rfl⟩⟩ h

end Atomic

end XbTunnel.Server.RoomIds
