import XbTunnel.Daemon.Lan
import XbTunnel.Daemon.Moves
import XbTunnel.Daemon.Routing

/-! When the state manager sends its local state to the server: after every event that is no signal,
whether it changed that state or not. -/

namespace XbTunnel.Daemon.Updates

open Common Udp Remote StateManager Network Lib.Maps Lib.Runs

def Tells (t : State) (done : List Op) : Prop :=
  ∃ req, .sendServer req ∈ done ∧ req.read t.localState = { localState := some t.localState }

/-- The server gets an update exactly if there is something new, and a captured packet moves nothing
but the out queues. -/
structure Reports (s : State) (e : Event) (t : State) (done : List Op) : Prop where
  sends : Tells t done ↔ t.localState ≠ s.localState
  forwards : ∀ packet, e = .remote packet → t = s ∧ ∀ op ∈ done, ∃ pc, op = .sendOut pc packet

def Announces (s : State) : Event → Prop
  | .localState ls => ls.userId ≠ s.localState.userId ∨ ls.curRoomId ≠ s.localState.curRoomId
  | .pcSignal _ | .newXbox _ => True
  | .remote _ | .newPeerConn _ | .removePeer _ => False

instance (s : State) (e : Event) : Decidable (Announces s e) :=
  match e with
  | .localState _ => inferInstanceAs (Decidable (_ ∨ _))
  | .pcSignal _ | .newXbox _ => inferInstanceAs (Decidable True)
  | .remote _ | .newPeerConn _ | .removePeer _ => inferInstanceAs (Decidable False)

section Turns

variable {s : State} {e : Event} {o : Orders}

lemma turn_ops (s : State) (e : Event) (o : Orders) : (turn s e o).2 =
    (handle s e o).2 ++ if sendUpdate e then [.sendServer .localState] else [] := rfl

lemma turn_tells (h : sendUpdate e = true) : Tells (turn s e o).1 (turn s e o).2 := by
  rw [turn_ops, if_pos h]
  exact ⟨.localState, List.mem_append_right _ (List.mem_singleton_self _), rfl⟩

lemma signal_tells_nothing (pcSignal : PcSignal) :
    ¬ Tells (turn s (.pcSignal pcSignal) o).1 (turn s (.pcSignal pcSignal) o).2 := by
  rintro ⟨req, hm, -⟩
  simp only [turn, handle, sendUpdate] at hm
  cases hl : s.peerConnMap.lookup pcSignal.toId <;> simp [hl] at hm

lemma newXbox_changes (x : Xbox) : (turn s (.newXbox x) o).1.localState ≠ s.localState := by
  intro h
  have hx := congrArg (fun ls => ls.xboxes.length) h
  simp [turn, handle] at hx

lemma localState_changes_iff (ls : LocalState) :
    (turn s (.localState ls) o).1.localState ≠ s.localState ↔
      ls.userId ≠ s.localState.userId ∨ ls.curRoomId ≠ s.localState.curRoomId := by
  rw [ne_eq, ne_eq, ne_eq, ← not_and_or, not_iff_not]
  simp only [turn, handle]
  constructor
  · intro h
    have hu := congrArg LocalState.userId h
    have hr := congrArg LocalState.curRoomId h
    exact ⟨hu, hr⟩
  · rintro ⟨hu, hr⟩
    rw [hu, hr]

lemma newPeerConn_unchanged (hi : Inv s) (newPc : PcRef) :
    (turn s (.newPeerConn newPc) o).1.localState = s.localState := by
  simp only [turn, handle, hi.peers, Option.map_none]
  rw [← hi.peers]

lemma not_reports (hs : sendUpdate e = true) (hc : (turn s e o).1.localState = s.localState) :
    ¬ Reports s e (turn s e o).1 (turn s e o).2 :=
  fun h => h.sends.mp (turn_tells hs) hc

lemma turn_reports_iff (hi : Inv s) (e : Event) (o : Orders) :
    Reports s e (turn s e o).1 (turn s e o).2 ↔ Announces s e := by
  cases e with
  | localState ls =>
    refine Iff.trans ?_ (localState_changes_iff (o := o) ls)
    constructor
    · intro h
      exact h.sends.mp (turn_tells rfl)
    · intro h
      exact ⟨iff_of_true (turn_tells rfl) h, nofun⟩
  | pcSignal pcSignal =>
    refine iff_of_true ⟨iff_of_false (signal_tells_nothing pcSignal) ?_, nofun⟩ trivial
    exact fun h => h rfl
  | newXbox x =>
    exact iff_of_true ⟨iff_of_true (turn_tells rfl) (newXbox_changes x), nofun⟩ trivial
  | remote packet => exact iff_of_false (not_reports rfl rfl) id
  | newPeerConn newPc => exact iff_of_false (not_reports rfl (newPeerConn_unchanged hi newPc)) id
  | removePeer pid => exact iff_of_false (not_reports rfl rfl) id

end Turns

section Handling

variable {token : Token} {w v u : World} {a : Action} {tr : List (World × Action)} {e : Event}
  {done : List Op}

def performs (w : World) : Action → List Op
  | .op => w.ops.head?.toList
  | _ => []

def executed (tr : List (World × Action)) : List Op := tr.flatMap fun p => performs p.1 p.2

def selects : Action → Bool
  | .takeEvent _ _ | .takeKill _ => true
  | _ => false

inductive Handled (token : Token) (w : World) (e : Event) : World → List Op → Prop
  | intro {o v tr u} : step token w (.takeEvent e o) = some v → Run (Steps (step token)) v tr u →
      AllSteps (fun _ a => selects a = false) tr → u.ops = [] → Handled token w e u (executed tr)

lemma step_sm_inv (hi : Inv w.sm) (h : step token w a = some v) : Inv v.sm := by
  by_cases ha : ∀ e o, a ≠ .takeEvent e o
  · rw [step_sm h ha]
    exact hi
  · push Not at ha
    obtain ⟨e, o, rfl⟩ := ha
    cases step_effect h with
    | takeEvent =>
      have hinv := handle_inv hi e o
      exact hinv

lemma step_performs (h : step token w a = some v) (ha : selects a = false) :
    w.ops = performs w a ++ v.ops := by
  rw [step_ops h]
  cases a with
  | takeEvent | takeKill => cases ha
  | op =>
    cases step_effect h with
    | op ho =>
      rw [opsAfter, performs, ho]
      rfl
  | _ => rfl

lemma run_executes (h : Run (Steps (step token)) w tr u)
    (ha : AllSteps (fun _ a => selects a = false) tr) :
    w.ops = executed tr ++ u.ops ∧ u.sm = w.sm := by
  induction h with
  | nil => exact ⟨rfl, rfl⟩
  | @cons w v u a tr he _ ih =>
    obtain ⟨hn, hrest⟩ := (allSteps_cons _ _ _ _).mp ha
    obtain ⟨hops, hsm⟩ := ih hrest
    have hne : ∀ e o, a ≠ .takeEvent e o := by
      rintro e o rfl
      cases hn
    refine ⟨?_, hsm.trans (step_sm he hne)⟩
    rw [step_performs he hn, hops, ← List.append_assoc]
    rfl

lemma Handled.turn (h : Handled token w e u done) :
    ∃ o, u.sm = (turn w.sm e o).1 ∧ done = (turn w.sm e o).2 := by
  obtain ⟨hs, hr, ha, hu⟩ := h
  rename_i o v tr
  obtain ⟨hops, hsm⟩ := run_executes hr ha
  rw [hu, List.append_nil] at hops
  cases step_effect hs with
  | takeEvent => exact ⟨o, hsm, hops.symm⟩

theorem handled_reports_iff {handles : ℕ} (h : Run (Steps (step token)) (init handles) tr w)
    (he : Handled token w e u done) : Reports w.sm e u.sm done ↔ Announces w.sm e := by
  have hi : AllStates (fun w => Inv w.sm) tr w :=
    h.invariant (fun _ _ _ => step_sm_inv) init_inv
  obtain ⟨o, hu, rfl⟩ := he.turn
  rw [hu]
  exact turn_reports_iff hi.2 e o

lemma exec_handled {o : Orders} {as : List Action} (ha : ∀ a ∈ as, selects a = false)
    (h : (exec (step token) w (.takeEvent e o :: as)).any (fun u => u.ops.isEmpty) = true) :
    ∃ u done, Handled token w e u done := by
  obtain ⟨u, hu, hops⟩ := (Option.any_eq_true _ _).mp h
  obtain ⟨v, hv, hu⟩ := Option.bind_eq_some_iff.mp hu
  obtain ⟨tr, rfl, hr⟩ := exec_run _ hu
  exact ⟨u, _, .intro hv hr (allSteps_of_map ha) (List.isEmpty_iff.mp hops)⟩

def noOrders : Orders := ⟨[], []⟩

def hearsServer : List Action :=
  [.reconnect .resolve, .reconnect .newClient, .client 0 (.dial true), .client 0 .sendToken,
    .client 0 (.decode { localState := some Routing.serverView }), .client 0 .sendLocalState]

theorem hearsServer_reported : ∃ tr w u done, tr.map Prod.snd = hearsServer ∧
    Run (Steps (step sampleToken)) (init 1) tr w ∧
    Handled sampleToken w (.localState Routing.serverView) u done ∧
    Reports w.sm (.localState Routing.serverView) u.sm done := by
  have hend : (exec (step sampleToken) (init 1) hearsServer).any (fun w =>
      decide (Announces w.sm (.localState Routing.serverView)) &&
        (exec (step sampleToken) w [.takeEvent (.localState Routing.serverView) noOrders, .op]).any
          fun u => u.ops.isEmpty) = true := rfl
  obtain ⟨tr, w, ha, hr, hw⟩ := exec_any _ hend
  obtain ⟨hnews, hexec⟩ := (Bool.and_eq_true _ _).mp hw
  obtain ⟨u, done, hu⟩ := exec_handled (by decide) hexec
  exact ⟨tr, w, u, done, ha, hr, hu,
    (handled_reports_iff hr hu).mpr (of_decide_eq_true hnews)⟩

def captured : UdpPacket := ⟨Lan.hello.payload, console, broadcast⟩

def capturesPacket : List Action :=
  [.lm (.poll 0), .lm (.capture 0 Lan.hello), .lm (.sendXbox 0), .lm (.forward 0)]

theorem captured_packet_is_reported : ∃ tr w u done, tr.map Prod.snd = capturesPacket ∧
    Run (Steps (step sampleToken)) (init 1) tr w ∧
    Handled sampleToken w (.remote captured) u done ∧
    ¬ Reports w.sm (.remote captured) u.sm done := by
  have hend : (exec (step sampleToken) (init 1) capturesPacket).any (fun w =>
      (exec (step sampleToken) w [.takeEvent (.remote captured) noOrders, .op]).any
        fun u => u.ops.isEmpty) = true := rfl
  obtain ⟨tr, w, ha, hr, hw⟩ := exec_any _ hend
  obtain ⟨u, done, hu⟩ := exec_handled (by decide) hw
  obtain ⟨o, hsm, hdone⟩ := hu.turn
  refine ⟨tr, w, u, done, ha, hr, hu, ?_⟩
  rw [hsm, hdone]
  exact not_reports rfl rfl

end Handling

section Packets

variable {s t u : Tracked} {a : Event × Orders} {tr : List (Tracked × Event × Orders)}

def isUpdate : Op → Bool
  | .sendServer .localState => true
  | _ => false

lemma countP_isUpdate_forward (packet : UdpPacket) (o : Orders) :
    (ops s (.remote packet, o)).countP isUpdate = 1 := by
  have hout : (handle s.sm (.remote packet) o).2.countP isUpdate = 0 := by
    rw [List.countP_eq_zero]
    intro op ho
    simp only [handle] at ho
    split at ho
    · obtain ⟨e, -, rfl⟩ := List.mem_map.mp ho
      exact Bool.false_ne_true
    · split at ho
      · split at ho
        · rw [List.mem_singleton.mp ho]
          exact Bool.false_ne_true
        · cases ho
      · cases ho
  rw [ops, turn_ops, List.countP_append, hout]
  rfl

theorem forwarding_floods (h : Run (Steps StateManager.step) s tr u)
    (hp : AllSteps (fun _ a => ∃ packet, a.1 = .remote packet) tr) :
    u.sm = s.sm ∧ (tr.flatMap fun p => ops p.1 p.2).countP isUpdate = tr.length := by
  induction h with
  | nil => exact ⟨rfl, rfl⟩
  | @cons s t u a tr he _ ih =>
    obtain ⟨⟨packet, ha⟩, hrest⟩ := (allSteps_cons _ _ _ _).mp hp
    obtain ⟨hu, hc⟩ := ih hrest
    obtain ⟨e, o⟩ := a
    obtain rfl : e = .remote packet := ha
    refine ⟨hu.trans (step_eq he).2, ?_⟩
    rw [List.flatMap_cons, List.countP_append, hc, countP_isUpdate_forward, List.length_cons,
      Nat.add_comm]

end Packets

end XbTunnel.Daemon.Updates
