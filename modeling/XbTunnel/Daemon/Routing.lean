import XbTunnel.Daemon.StateManager

/-! Where `StateManager.run` sends packets, compared with what the server last said. -/

namespace XbTunnel.Daemon.Routing

open Common Udp Remote StateManager Lib.Maps Lib.Runs

def listed (ls : LocalState) : List Peer := ls.peers.getD []

def owner (ls : LocalState) (x : Xbox) : Option PeerId :=
  (((listed ls).filter fun p => x ∈ p.xboxes).getLast?).map Peer.id

def Routed (ls : LocalState) (m : PeerConnMap) (packet : UdpPacket) (ops : List Op) : Prop :=
  ∀ pc, ops.count (.sendOut pc packet) =
    if packet.dst.isBroadcast then
      if m.lookup pc.peerId = some pc ∧ hasId (listed ls) pc.peerId then 1 else 0
    else if (owner ls packet.dst).bind m.lookup = some pc then 1 else 0

def RoutesLikeServer (s : Tracked) (a : Event × Orders) : Prop :=
  match a.1, s.last with
  | .remote packet, some ls => Routed ls s.sm.peerConnMap packet (ops s a)
  | _, _ => True

/-- No connection is open to a peer outside the list when a broadcast packet comes, and none to the
listed owner when a packet for one console comes. -/
def NoConflict (ls : LocalState) (m : PeerConnMap) (packet : UdpPacket) : Prop :=
  if packet.dst.isBroadcast then ∀ pid ∈ m.keys, hasId (listed ls) pid
  else ∀ pid ∈ m.keys, owner ls packet.dst ≠ some pid

instance (ls : LocalState) (m : PeerConnMap) (packet : UdpPacket) :
    Decidable (NoConflict ls m packet) :=
  inferInstanceAs (Decidable (if packet.dst.isBroadcast then ∀ pid ∈ m.keys, hasId (listed ls) pid
    else ∀ pid ∈ m.keys, owner ls packet.dst ≠ some pid))

def RoutesAlike (s : Tracked) (a : Event × Orders) : Prop :=
  match a.1, s.last with
  | .remote packet, some ls => NoConflict ls s.sm.peerConnMap packet
  | _, _ => True

instance (s : Tracked) (a : Event × Orders) : Decidable (RoutesAlike s a) :=
  match a, s with
  | (.remote _, _), ⟨_, some _⟩ => inferInstanceAs (Decidable (NoConflict _ _ _))
  | (.remote _, _), ⟨_, none⟩ => inferInstanceAs (Decidable True)
  | (.localState _, _), _ | (.pcSignal _, _), _ | (.newPeerConn _, _), _ | (.removePeer _, _), _
  | (.newXbox _, _), _ => inferInstanceAs (Decidable True)

section Packets

variable {s : State} (hi : Inv s) {o : Orders} (ho : o.Valid s.peerConnMap) {packet : UdpPacket}

include hi ho in
lemma count_broadcast (hb : packet.dst.isBroadcast = true) (pc : PcRef) :
    (turn s (.remote packet) o).2.count (.sendOut pc packet) =
      if s.peerConnMap.lookup pc.peerId = some pc then 1 else 0 := by
  have hinj : Function.Injective fun pc => Op.sendOut pc packet := by
    intro pc pc' h
    simpa using h
  have hmap : (o.first.map fun e => Op.sendOut e.2 packet) =
      (o.first.map Sigma.snd).map fun pc => Op.sendOut pc packet := by
    simp
  rw [← ho.1.count_snd PcRef.peerId hi.filed pc]
  simp only [turn, handle, hb, sendUpdate, if_true, hmap, List.count_append,
    List.count_map_of_injective _ _ hinj]
  simp

include hi in
lemma count_unicast (hb : packet.dst.isBroadcast = false) (pc : PcRef) :
    (turn s (.remote packet) o).2.count (.sendOut pc packet) = 0 := by
  simp [turn, handle, hb, hi.xboxPeerMap, sendUpdate]

end Packets

lemma routed_iff {s : State} (hi : Inv s) {o : Orders} (ho : o.Valid s.peerConnMap)
    (packet : UdpPacket) (ls : LocalState) :
    Routed ls s.peerConnMap packet (turn s (.remote packet) o).2 ↔
      NoConflict ls s.peerConnMap packet := by
  cases hb : packet.dst.isBroadcast with
  | true =>
    simp only [Routed, NoConflict, hb, if_true, count_broadcast hi ho hb]
    constructor
    · intro h pid hp
      obtain ⟨pc, hl⟩ := Finmap.mem_iff.mp (Finmap.mem_keys.mp hp)
      have hc := h pc
      rw [hi.filed pid pc hl] at hc
      by_contra hn
      simp [hl, hn] at hc
    · intro h pc
      by_cases hl : s.peerConnMap.lookup pc.peerId = some pc
      · simp [hl, h _ (Finmap.mem_keys.mpr (Finmap.mem_of_lookup_eq_some hl))]
      · simp [hl]
  | false =>
    simp only [Routed, NoConflict, hb, Bool.false_eq_true, if_false, count_unicast hi hb]
    constructor
    · intro h pid hp ho
      obtain ⟨pc, hl⟩ := Finmap.mem_iff.mp (Finmap.mem_keys.mp hp)
      have hc := h pc
      simp [ho, hl] at hc
    · intro h pc
      rw [eq_comm, if_neg]
      intro hl
      obtain ⟨pid, ho, hl⟩ := Option.bind_eq_some_iff.mp hl
      exact h pid (Finmap.mem_keys.mpr (Finmap.mem_of_lookup_eq_some hl)) ho

lemma routesLikeServer_iff {s t : Tracked} {a : Event × Orders} (hi : Inv s.sm)
    (h : step s a = some t) : RoutesLikeServer s a ↔ RoutesAlike s a := by
  have hv := (step_eq h).1
  obtain ⟨e, o⟩ := a
  obtain ⟨sm, last⟩ := s
  cases e with
  | remote packet =>
    cases last with
    | none => exact Iff.rfl
    | some ls => exact routed_iff hi hv packet ls
  | localState _ | pcSignal _ | newPeerConn _ | removePeer _ | newXbox _ => exact Iff.rfl

theorem run_routes_like_server_iff {tr : List (Tracked × Event × Orders)} {u : Tracked}
    (h : Run (Steps step) Tracked.init tr u) :
    AllSteps RoutesLikeServer tr ↔ AllSteps RoutesAlike tr :=
  h.all_steps_iff (fun s => Inv s.sm) (fun _ _ _ hi hs => step_inv hi hs)
    (fun _ _ _ hi hs => routesLikeServer_iff hi hs) init_inv

section Samples

def serverView : LocalState := ⟨⟨[1]⟩, ⟨[2]⟩, some [⟨friend, [console], false⟩], []⟩

def friendJoins : List (Event × Orders) :=
  [(.localState serverView, ⟨[], []⟩), (.newPeerConn friendConn, ⟨[], []⟩)]

def toConsole : Event × Orders :=
  (.remote ⟨[1, 2, 3], newXbox [9], console⟩, friendOnly)

def toEveryone : Event × Orders :=
  (.remote ⟨[1, 2, 3], newXbox [9], broadcast⟩, friendOnly)

theorem broadcast_to_friend_routes_like_server :
    ∃ tr u, tr.map Prod.snd = friendJoins ++ [toEveryone] ∧
      Run (Steps step) Tracked.init tr u ∧ AllSteps RoutesLikeServer tr := by
  obtain ⟨tr, u, ha, hr, hs⟩ :=
    follow_decide step RoutesAlike Tracked.init (friendJoins ++ [toEveryone]) rfl
  exact ⟨tr, u, ha, hr, (run_routes_like_server_iff hr).mpr hs⟩

theorem unicast_to_friend_is_lost :
    ∃ s t, exec step Tracked.init friendJoins = some s ∧ step s toConsole = some t ∧
      ¬ RoutesLikeServer s toConsole := by
  refine ⟨_, _, rfl, rfl, ?_⟩
  intro h
  exact absurd (h friendConn) (by decide)

end Samples

end XbTunnel.Daemon.Routing
