import XbTunnel.Daemon.StateManager

/-! The way of a NAT message: written by the shim connection of one daemon, stamped with the sender
by the server, dispatched by the state manager of the other daemon. -/

namespace XbTunnel.Daemon.Sideband

open Common Udp Remote StateManager Lib.Maps Lib.Runs

/-- The server sets the sender of a signal and leaves the rest. -/
def stamp (sender : PeerId) (req : ServerReq) : Option PcSignal :=
  req.pcSignal.map fun pc => { pc with fromId := sender }

def relayed (a b : PeerId) (payload : Bytes) : Option PcSignal :=
  stamp a ((newShimConn b).write payload)

lemma relayed_eq (a b : PeerId) (payload : Bytes) : relayed a b payload = some ⟨a, b, payload⟩ :=
  rfl

def Delivered (a : PeerId) (m : PeerConnMap) (payload : Bytes) (ops : List Op) : Prop :=
  ∀ pc bytes, ops.count (.sendRead pc bytes) =
    if m.lookup a = some pc ∧ bytes = payload then 1 else 0

def DeliversFrom (a b : PeerId) (s : Tracked) (x : Event × Orders) : Prop :=
  ∀ payload signal, relayed a b payload = some signal → x.1 = .pcSignal signal →
    Delivered a s.sm.peerConnMap payload (ops s x)

def NoSideband (a b : PeerId) (s : Tracked) (x : Event × Orders) : Prop :=
  ∀ payload signal, relayed a b payload = some signal → x.1 = .pcSignal signal →
    a ∉ s.sm.peerConnMap ∧ b ∉ s.sm.peerConnMap

lemma delivered_iff {s : State} (hi : Inv s) {a b : PeerId} (hab : a ≠ b) (payload : Bytes)
    (o : Orders) :
    Delivered a s.peerConnMap payload (turn s (.pcSignal ⟨a, b, payload⟩) o).2 ↔
      a ∉ s.peerConnMap ∧ b ∉ s.peerConnMap := by
  cases hb : s.peerConnMap.lookup b with
  | none =>
    have hops : (turn s (.pcSignal ⟨a, b, payload⟩) o).2 = [] := by
      simp [turn, handle, hb, sendUpdate]
    have hbn : b ∉ s.peerConnMap := Finmap.lookup_eq_none.mp hb
    rw [Delivered, hops, Finmap.mem_iff]
    constructor
    · intro h
      refine ⟨?_, hbn⟩
      rintro ⟨pc, ha⟩
      have hc := h pc payload
      simp [ha] at hc
    · rintro ⟨ha, -⟩ pc bytes
      rw [List.count_nil, eq_comm, if_neg]
      rintro ⟨hl, -⟩
      exact ha ⟨pc, hl⟩
  | some pc =>
    have hops : (turn s (.pcSignal ⟨a, b, payload⟩) o).2 = [.sendRead pc payload] := by
      simp [turn, handle, hb, sendUpdate]
    rw [Delivered, hops]
    constructor
    · intro h
      have hc := h pc payload
      rw [List.count_singleton_self] at hc
      have ha : s.peerConnMap.lookup a = some pc := by
        by_contra hn
        simp [hn] at hc
      exact absurd ((hi.filed a pc ha).symm.trans (hi.filed b pc hb)) hab
    · rintro ⟨-, hbn⟩
      exact absurd (Finmap.mem_of_lookup_eq_some hb) hbn

lemma deliversFrom_iff {s : Tracked} (hi : Inv s.sm) {a b : PeerId} (hab : a ≠ b)
    (x : Event × Orders) : DeliversFrom a b s x ↔ NoSideband a b s x := by
  obtain ⟨e, o⟩ := x
  constructor
  · rintro h payload signal hr rfl
    obtain rfl := Option.some.inj ((relayed_eq a b payload).symm.trans hr)
    exact (delivered_iff hi hab payload o).mp (h payload _ (relayed_eq a b payload) rfl)
  · rintro h payload signal hr rfl
    obtain rfl := Option.some.inj ((relayed_eq a b payload).symm.trans hr)
    exact (delivered_iff hi hab payload o).mpr (h payload _ (relayed_eq a b payload) rfl)

/-- A NAT message of `a` reaches the sideband it is meant for only in the sense that there is none:
the dispatch looks for a connection to the receiver itself. -/
theorem run_delivers_from_iff {a b : PeerId} (hab : a ≠ b)
    {tr : List (Tracked × Event × Orders)} {u : Tracked}
    (h : Run (Steps step) Tracked.init tr u) :
    AllSteps (DeliversFrom a b) tr ↔ AllSteps (NoSideband a b) tr :=
  h.all_steps_iff (fun s => Inv s.sm) (fun _ _ _ hi hs => step_inv hi hs)
    (fun _ _ _ hi _ => deliversFrom_iff hi hab _) init_inv

section Samples

def alice : PeerId := ⟨[1]⟩
def bob : PeerId := ⟨[2]⟩
def carol : PeerId := ⟨[3]⟩

def connects (peer : PeerId) : Event × Orders := (.newPeerConn ⟨0, peer⟩, ⟨[], []⟩)

def signals (peer : PeerId) : Event × Orders :=
  (.pcSignal ⟨alice, bob, [5]⟩, ⟨[⟨peer, ⟨0, peer⟩⟩], [⟨peer, ⟨0, peer⟩⟩]⟩)

theorem signal_without_connection_delivers :
    ∃ tr u, tr.map Prod.snd = [connects carol, signals carol] ∧
      Run (Steps step) Tracked.init tr u ∧ AllSteps (DeliversFrom alice bob) tr := by
  obtain ⟨tr, u, ha, hr, hs⟩ := follow_decide step
    (fun s _ => alice ∉ s.sm.peerConnMap ∧ bob ∉ s.sm.peerConnMap)
    Tracked.init [connects carol, signals carol] rfl
  exact ⟨tr, u, ha, hr, (run_delivers_from_iff (by decide) hr).mpr fun p hp _ _ _ _ => hs p hp⟩

theorem signal_to_connected_peer_is_lost :
    ∃ s t, exec step Tracked.init [connects alice] = some s ∧
      step s (signals alice) = some t ∧ ¬ DeliversFrom alice bob s (signals alice) := by
  refine ⟨_, _, rfl, rfl, ?_⟩
  intro h
  exact absurd (h [5] _ rfl rfl ⟨0, alice⟩ [5]) (by decide)

end Samples

end XbTunnel.Daemon.Sideband
