import XbTunnel.Daemon.Routing

/-! The flag `Connected` of the listed peers beside the map of the connections. A new connection
sets the flag of one entry, a removed one clears none. -/

namespace XbTunnel.Daemon.Flags

open Common Udp Remote StateManager Routing Lib.Maps Lib.Runs

def Agree (peers : List Peer) (m : PeerConnMap) : Prop :=
  ∀ p ∈ peers, p.connected = true ↔ p.id ∈ m

def FlagsAgree (s : State) : Prop := Agree (listed s.localState) s.peerConnMap

/-- A new connection is to a peer that has one already or is listed once at most, and no connection
of a listed peer is removed. -/
def Harmless (s : State) : Event → Prop
  | .newPeerConn newPc => newPc.peerId ∈ s.peerConnMap ∨
      (listed s.localState).countP (fun p => p.id = newPc.peerId) ≤ 1
  | .removePeer pid => pid ∈ s.peerConnMap → ∀ p ∈ listed s.localState, p.id ≠ pid
  | _ => True

instance (s : State) : ∀ e, Decidable (Harmless s e)
  | .newPeerConn _ => inferInstanceAs (Decidable (_ ∨ _))
  | .removePeer _ => inferInstanceAs (Decidable (_ → _))
  | .localState _ | .pcSignal _ | .remote _ | .newXbox _ => inferInstanceAs (Decidable True)

variable {s : State} {peers : List Peer} {m : PeerConnMap} {pid : PeerId} {pc : PcRef}

lemma setPeerConnected_of_set (h : ∀ p ∈ peers, p.id = pid → p.connected = true) :
    setPeerConnected peers pid true = peers := by
  induction peers with
  | nil => rfl
  | cons p peers ih =>
    obtain ⟨hp, hps⟩ := List.forall_mem_cons.mp h
    rw [setPeerConnected, ih hps]
    split_ifs with he
    · rw [← hp he]
    · rfl

lemma agree_insert : Agree peers (m.insert pid pc) ↔
    ∀ p ∈ peers, p.connected = true ↔ p.id = pid ∨ p.id ∈ m := by
  simp only [Agree, Finmap.mem_insert]

lemma agree_setPeerConnected (hn : pid ∉ m) (h : Agree peers m) :
    Agree (setPeerConnected peers pid true) (m.insert pid pc) ↔
      peers.countP (fun p => p.id = pid) ≤ 1 := by
  rw [agree_insert]
  induction peers with
  | nil => simp [setPeerConnected]
  | cons p peers ih =>
    obtain ⟨hp, hps⟩ := List.forall_mem_cons.mp h
    rw [setPeerConnected]
    by_cases he : p.id = pid
    · have hone (n : ℕ) : n + 1 ≤ 1 ↔ n = 0 := by omega
      rw [if_pos he, List.forall_mem_cons, List.countP_cons_of_pos (by simpa using he), hone,
        List.countP_eq_zero]
      constructor
      · rintro ⟨-, hrest⟩ q hq hid
        have hid := of_decide_eq_true hid
        have hc := (hrest q hq).mpr (.inl hid)
        exact hn (hid ▸ (hps q hq).mp hc)
      · intro hother
        refine ⟨⟨fun _ => .inl he, fun _ => rfl⟩, fun q hq => ?_⟩
        have hid : q.id ≠ pid := fun hid => hother q hq (decide_eq_true hid)
        rw [hps q hq, or_iff_right hid]
    · rw [if_neg he, List.forall_mem_cons, List.countP_cons_of_neg (by simpa using he), ← ih hps]
      exact and_iff_right (hp.trans (or_iff_right he).symm)

lemma agree_erase (h : Agree peers m) :
    Agree peers (m.erase pid) ↔ (pid ∈ m → ∀ p ∈ peers, p.id ≠ pid) := by
  simp only [Agree, Finmap.mem_erase]
  constructor
  · rintro he hm p hp rfl
    exact ((he p hp).mp ((h p hp).mpr hm)).1 rfl
  · intro hn p hp
    rw [h p hp, iff_and_self]
    rintro hm rfl
    exact hn hm p hp rfl

lemma listed_setPeerConnected (ls : LocalState) (pid : PeerId) :
    listed { ls with peers := ls.peers.map fun ps => setPeerConnected ps pid true } =
      setPeerConnected (listed ls) pid true := by
  cases h : ls.peers <;> simp [listed, h, setPeerConnected]

lemma newPeerConn_agrees_iff (h : FlagsAgree s) (newPc : PcRef) (o : Orders) :
    FlagsAgree (turn s (.newPeerConn newPc) o).1 ↔ Harmless s (.newPeerConn newPc) := by
  have hl := listed_setPeerConnected s.localState newPc.peerId
  simp only [FlagsAgree, turn, handle, hl, Harmless]
  by_cases hm : newPc.peerId ∈ s.peerConnMap
  · have hconn : ∀ p ∈ listed s.localState, p.id = newPc.peerId → p.connected = true :=
      fun p hp hid => (h p hp).mpr (hid ▸ hm)
    have hset := setPeerConnected_of_set hconn
    rw [hset, agree_insert]
    refine iff_of_true (fun p hp => ?_) (.inl hm)
    rw [h p hp, iff_or_self]
    intro he
    exact he ▸ hm
  · rw [agree_setPeerConnected hm h, or_iff_right hm]

lemma flags_step_iff (h : FlagsAgree s) (e : Event) (o : Orders) :
    FlagsAgree (turn s e o).1 ↔ Harmless s e := by
  cases e with
  | newPeerConn newPc => exact newPeerConn_agrees_iff h newPc o
  | removePeer pid => exact agree_erase h
  | localState ls | pcSignal pcSignal | remote packet | newXbox newXbox =>
    exact iff_of_true h trivial

theorem flags_kept_iff {x u : Tracked} {tr : List (Tracked × Event × Orders)}
    (h : Run (Steps step) x tr u) (hx : FlagsAgree x.sm) :
    AllStates (fun t => FlagsAgree t.sm) tr u ↔ AllSteps (fun t a => Harmless t.sm a.1) tr := by
  have hstep : ∀ t a t', FlagsAgree t.sm → Steps step t a t' →
      (FlagsAgree t'.sm ↔ Harmless t.sm a.1) := by
    intro t a t' ht hs
    rw [(step_eq hs).2]
    exact flags_step_iff ht a.1 a.2
  exact h.all_states_iff (fun t => FlagsAgree t.sm) (fun _ ht => ht)
    (fun t a t' ht hs => (hstep t a t' ht hs).mpr) (fun t a t' ht hs => mt (hstep t a t' ht hs).mp)
    hx

section Samples

def listedFriend (connected : Bool) : LocalState :=
  { LocalState.zero with peers := some [⟨friend, [console], connected⟩] }

def apart : Tracked := ⟨⟨∅, ∅, listedFriend false⟩, none⟩

lemma apart_agrees : FlagsAgree apart.sm := by
  intro p hp
  rw [List.mem_singleton.mp hp]
  decide

theorem friend_connects : ∃ tr u, tr.map Prod.snd = [(.newPeerConn friendConn, ⟨[], []⟩)] ∧
    Run (Steps step) apart tr u ∧ AllStates (fun t => FlagsAgree t.sm) tr u := by
  obtain ⟨tr, u, ha, hr, hs⟩ := follow_decide step (fun t a => Harmless t.sm a.1) apart
    [(.newPeerConn friendConn, ⟨[], []⟩)] rfl
  exact ⟨tr, u, ha, hr, (flags_kept_iff hr apart_agrees).mpr hs⟩

def together : State := ⟨(∅ : PeerConnMap).insert friend friendConn, ∅, listedFriend true⟩

theorem friend_stays_connected :
    FlagsAgree together ∧ ¬ FlagsAgree (turn together (.removePeer friend) ⟨[], []⟩).1 := by
  constructor
  · intro p hp
    rw [List.mem_singleton.mp hp]
    decide
  · intro h
    exact absurd (h ⟨friend, [console], true⟩ (List.mem_singleton_self _)) (by decide)

end Samples

end XbTunnel.Daemon.Flags
