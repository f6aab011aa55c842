import XbTunnel.Daemon.Moves

/-! Which connections the state manager knows. It files them under their peer, and a report of
failure names only the peer. -/

namespace XbTunnel.Daemon.Registry

open Common Remote StateManager Lib.Channels Lib.Runs Lib.Maps Network

structure Tracked where
  w : World
  registered : List PcRef
  killed : List ℕ

def start (handles : ℕ) : Tracked := ⟨init handles, [], []⟩

def registers : Action → List PcRef
  | .takeEvent (.newPeerConn newPc) _ => [newPc]
  | _ => []

def kills (w : World) : Action → List ℕ
  | .op =>
    match w.ops.head? with
    | some (.sendKill pc) => [pc.addr]
    | _ => []
  | .pc addr .sendKill => [addr]
  | _ => []

def step (token : Token) (s : Tracked) (a : Action) : Option Tracked :=
  (Network.step token s.w a).map fun w =>
    ⟨w, s.registered ++ registers a, s.killed ++ kills s.w a⟩

def Failed (pc : PeerConn) : Prop := pc.udpConn = false ∧ (pc.nat = .failed ∨ pc.nat = .returned)

def Live (s : Tracked) (ref : PcRef) : Prop :=
  ¬ Failed (s.w.pcs ref.addr) ∧ ref.addr ∉ s.killed

instance (pc : PeerConn) : Decidable (Failed pc) := inferInstanceAs (Decidable (_ ∧ _))

instance (s : Tracked) (ref : PcRef) : Decidable (Live s ref) :=
  inferInstanceAs (Decidable (_ ∧ _))

def KeepsLive (s : Tracked) : Prop :=
  ∀ ref ∈ s.registered, Live s ref → s.w.sm.peerConnMap.lookup ref.peerId = some ref

def SparesLive (s : Tracked) : Action → Prop
  | .takeEvent (.newPeerConn newPc) _ =>
    ∀ old ∈ s.w.sm.peerConnMap.lookup newPc.peerId, old = newPc ∨ ¬ Live s old
  | .takeEvent (.removePeer pid) _ => ∀ old ∈ s.w.sm.peerConnMap.lookup pid, ¬ Live s old
  | _ => True

instance (s : Tracked) : ∀ a, Decidable (SparesLive s a)
  | .takeEvent (.newPeerConn newPc) _ =>
    inferInstanceAs (Decidable (∀ old ∈ s.w.sm.peerConnMap.lookup newPc.peerId, _))
  | .takeEvent (.removePeer pid) _ =>
    inferInstanceAs (Decidable (∀ old ∈ s.w.sm.peerConnMap.lookup pid, _))
  | .takeEvent (.localState _) _ | .takeEvent (.pcSignal _) _ | .takeEvent (.remote _) _
  | .takeEvent (.newXbox _) _ | .takeKill _ | .op | .openConn _ _ | .startRun _ | .pc _ _
  | .lm _ | .client _ _ | .reconnect _ | .main _ => .isTrue trivial

structure Base (s : Tracked) : Prop where
  refs : Refs s.w
  known : ∀ ref ∈ s.registered, Known s.w ref
  entries : ∀ pid ref, s.w.sm.peerConnMap.lookup pid = some ref → ref ∈ s.registered

structure Inv (s : Tracked) : Prop extends Base s where
  keeps : KeepsLive s

variable {token : Token} {s t : Tracked} {a : Action} {ref : PcRef}

lemma Failed.moves {w : World} {addr : ℕ} {pc : PeerConn} (hf : Failed (w.pcs addr))
    (h : Moves w a addr pc) : Failed pc := by
  obtain ⟨hu, hn⟩ := hf
  cases h with
  | acts _ h =>
    cases h with
    | callRead hc | connect hc | failConnect hc =>
      rw [hc] at hn
      simp at hn
    | sendRemovePeer => exact ⟨hu, .inr rfl⟩
    | _ => exact ⟨hu, hn⟩
  | _ => exact ⟨hu, hn⟩

lemma Live.before (hk : Known s.w ref) (h : step token s a = some t) (hl : Live t ref) :
    Live s ref := by
  obtain ⟨w, hw, rfl⟩ := Option.map_eq_some_iff.mp h
  refine ⟨fun hf => hl.1 (hf.moves (hk.moves hw)), fun hm => hl.2 ?_⟩
  exact List.mem_append_left _ hm

lemma step_event {e : Event} {o : Orders} (h : step token s (.takeEvent e o) = some t) :
    t.w.sm.peerConnMap = (handle s.w.sm e o).1.peerConnMap ∧ ∀ ref, Live t ref ↔ Live s ref := by
  obtain ⟨w, hw, rfl⟩ := Option.map_eq_some_iff.mp h
  cases step_effect hw
  exact ⟨rfl, fun ref => by simp [Live, kills]⟩

lemma mem_registers (h : ref ∈ registers a) : ∃ o, a = .takeEvent (.newPeerConn ref) o := by
  rw [registers.eq_def] at h
  split at h
  · rename_i o
    exact ⟨o, by rw [List.mem_singleton.mp h]⟩
  · cases h

lemma Base.step (hs : Base s) (h : Registry.step token s a = some t) : Base t := by
  obtain ⟨w, hw, rfl⟩ := Option.map_eq_some_iff.mp h
  refine ⟨hs.refs.step hw, fun ref hr => ?_, fun pid ref hl => ?_⟩
  · rcases List.mem_append.mp hr with hr | hr
    · exact (hs.known ref hr).step hw
    · obtain ⟨o, rfl⟩ := mem_registers hr
      have hk : Known s.w ref := by
        cases step_effect hw with
        | takeEvent _ _ _ he => exact hs.refs.announced ref ((recvEvent_announced he).2 ref rfl)
      exact hk.step hw
  · rcases step_filed hw hl with hl | ⟨-, -, o, rfl⟩
    · exact List.mem_append_left _ (hs.entries pid ref hl)
    · exact List.mem_append_right _ List.mem_cons_self

lemma other_keepsLive (hs : Inv s) (h : Registry.step token s a = some t)
    (ha : ∀ e o, a ≠ .takeEvent e o) : KeepsLive t := by
  intro ref hr hl
  obtain ⟨w, hw, rfl⟩ := Option.map_eq_some_iff.mp h
  rcases List.mem_append.mp hr with hr | hr
  · have hb := hl.before (hs.known ref hr) h
    exact (congrArg (fun sm : State => sm.peerConnMap.lookup ref.peerId) (step_sm hw ha)).trans
      (hs.keeps ref hr hb)
  · obtain ⟨o, rfl⟩ := mem_registers hr
    exact absurd rfl (ha _ o)

lemma newPeerConn_keepsLive_iff {newPc : PcRef} {o : Orders} (hs : Inv s)
    (h : Registry.step token s (.takeEvent (.newPeerConn newPc) o) = some t) :
    KeepsLive t ↔ SparesLive s (.takeEvent (.newPeerConn newPc) o) := by
  obtain ⟨hmap, hlive⟩ := step_event h
  have hreg : t.registered = s.registered ++ [newPc] := by
    obtain ⟨w, hw, rfl⟩ := Option.map_eq_some_iff.mp h
    rfl
  have hself : t.w.sm.peerConnMap.lookup newPc.peerId = some newPc := by
    rw [hmap]
    exact Finmap.lookup_insert _
  constructor
  · intro hk old hold
    by_cases hl : Live s old
    · have hid := (hs.refs.filed _ old hold).2
      have hm : old ∈ t.registered := hreg ▸ List.mem_append_left _ (hs.entries _ old hold)
      have hget := hk old hm ((hlive old).mpr hl)
      rw [hid] at hget
      exact .inl (Option.some.inj (hget.symm.trans hself))
    · exact .inr hl
  · intro hspare ref hr hl
    rw [hlive] at hl
    by_cases he : ref = newPc
    · rw [he, hself]
    · have hm : ref ∈ s.registered := by
        rw [hreg, List.mem_append, List.mem_singleton] at hr
        exact hr.resolve_right he
      have hget := hs.keeps ref hm hl
      have hne : ref.peerId ≠ newPc.peerId := by
        intro hid
        rw [hid] at hget
        exact (hspare ref hget).elim he (absurd hl)
      rw [hmap]
      exact (Finmap.lookup_insert_of_ne _ hne).trans hget

lemma removePeer_keepsLive_iff {pid : PeerId} {o : Orders} (hs : Inv s)
    (h : Registry.step token s (.takeEvent (.removePeer pid) o) = some t) :
    KeepsLive t ↔ SparesLive s (.takeEvent (.removePeer pid) o) := by
  obtain ⟨hmap, hlive⟩ := step_event h
  have hreg : t.registered = s.registered := by
    obtain ⟨w, hw, rfl⟩ := Option.map_eq_some_iff.mp h
    exact List.append_nil _
  have hself : t.w.sm.peerConnMap.lookup pid = none := by
    rw [hmap]
    exact Finmap.lookup_erase _ _
  constructor
  · intro hk old hold hl
    have hget := hk old (hreg ▸ hs.entries _ old hold) ((hlive old).mpr hl)
    rw [(hs.refs.filed _ old hold).2, hself] at hget
    cases hget
  · intro hspare ref hr hl
    rw [hlive] at hl
    have hget := hs.keeps ref (hreg ▸ hr) hl
    have hne : ref.peerId ≠ pid := by
      rintro rfl
      exact hspare ref hget hl
    rw [hmap]
    exact (Finmap.lookup_erase_ne hne).trans hget

lemma keepsLive_iff (hs : Inv s) (h : Registry.step token s a = some t) :
    KeepsLive t ↔ SparesLive s a := by
  cases a with
  | takeEvent e o =>
    cases e with
    | newPeerConn newPc => exact newPeerConn_keepsLive_iff hs h
    | removePeer pid => exact removePeer_keepsLive_iff hs h
    | _ =>
      refine ⟨fun _ => trivial, fun _ ref hr hl => ?_⟩
      obtain ⟨hmap, hlive⟩ := step_event h
      have hreg : t.registered = s.registered := by
        obtain ⟨w, hw, rfl⟩ := Option.map_eq_some_iff.mp h
        exact List.append_nil _
      rw [hmap]
      exact hs.keeps ref (hreg ▸ hr) ((hlive ref).mp hl)
  | _ => exact ⟨fun _ => trivial, fun _ => other_keepsLive hs h nofun⟩

lemma inv_start (handles : ℕ) : Inv (start handles) where
  refs := refs_init handles
  known ref hr := by cases hr
  entries pid ref hl := by cases hl
  keeps ref hr := by cases hr

theorem keeps_live_iff {handles : ℕ} {tr : List (Tracked × Action)} {u : Tracked}
    (h : Run (Steps (Registry.step token)) (start handles) tr u) :
    AllStates KeepsLive tr u ↔ AllSteps SparesLive tr :=
  h.all_states_iff Inv (fun _ hi => hi.keeps)
    (fun _ _ _ hi hs ha => ⟨hi.step hs, (keepsLive_iff hi hs).mpr ha⟩)
    (fun _ _ _ hi hs ha hk => ha ((keepsLive_iff hi hs).mp hk)) (inv_start handles)

section Samples

def secondConn : PcRef := ⟨1, friend⟩

def secondOnly : Orders := ⟨[⟨friend, secondConn⟩], [⟨friend, secondConn⟩]⟩

def firstTry : List Action :=
  [.openConn friend true, .takeEvent (.newPeerConn friendConn) ⟨[], []⟩, .op, .pc 0 .failConnect]

def failsThenRetries : List Action :=
  firstTry ++ [.pc 0 .sendRemovePeer, .takeEvent (.removePeer friend) friendOnly, .op,
    .openConn friend true, .takeEvent (.newPeerConn secondConn) ⟨[], []⟩, .op]

theorem failsThenRetries_keeps : ∃ tr u, tr.map Prod.snd = failsThenRetries ∧
    Run (Steps (Registry.step sampleToken)) (start 1) tr u ∧ AllStates KeepsLive tr u := by
  obtain ⟨tr, u, ha, hr, hs⟩ :=
    follow_decide (Registry.step sampleToken) SparesLive (start 1) failsThenRetries rfl
  exact ⟨tr, u, ha, hr, (keeps_live_iff hr).mpr hs⟩

def retriesThenReports : List Action :=
  firstTry ++ [.openConn friend true, .takeEvent (.newPeerConn secondConn) friendOnly, .op,
    .pc 0 .sendRemovePeer, .takeEvent (.removePeer friend) secondOnly]

theorem retriesThenReports_loses : ∃ tr u, tr.map Prod.snd = retriesThenReports ∧
    Run (Steps (Registry.step sampleToken)) (start 1) tr u ∧ ¬ KeepsLive u := by
  have hend : (exec (Registry.step sampleToken) (start 1) retriesThenReports).any (fun u =>
      decide (secondConn ∈ u.registered ∧ Live u secondConn ∧
        u.w.sm.peerConnMap.lookup friend = none)) = true := rfl
  obtain ⟨tr, u, ha, hr, hd⟩ := exec_any _ hend
  obtain ⟨hm, hl, hnone⟩ := of_decide_eq_true hd
  refine ⟨tr, u, ha, hr, fun hk => ?_⟩
  cases hnone.symm.trans (hk secondConn hm hl)

end Samples

end XbTunnel.Daemon.Registry
