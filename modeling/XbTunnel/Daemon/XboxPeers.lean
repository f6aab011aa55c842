import XbTunnel.Daemon.Routing

/-! `updateXboxPeerMap`: which peer each console of the list is assigned to. -/

namespace XbTunnel.Daemon.XboxPeers

open Common Udp Remote StateManager Routing Lib.Maps

def entries (peers : List Peer) : List (Xbox × PeerId) :=
  peers.flatMap fun p => p.xboxes.map fun x => (x, p.id)

def Disjoint (peers : List Peer) : Prop :=
  ∀ p ∈ peers, ∀ q ∈ peers, ∀ x ∈ p.xboxes, x ∈ q.xboxes → p.id = q.id

instance : DecidablePred Disjoint := fun _ => inferInstanceAs (Decidable (∀ p ∈ _, _))

structure SameEntry (p q : Peer) : Prop where
  id : p.id = q.id
  xboxes : p.xboxes.Perm q.xboxes

def Rearranged (peers peers' : List Peer) : Prop :=
  ∃ l, peers.Perm l ∧ List.Forall₂ SameEntry l peers'

def replaced (s : State) (ls : LocalState) (o : Orders) : XboxPeerMap :=
  (turn s (.localState ls) o).1.xboxPeerMap

variable {peers peers' : List Peer} {x : Xbox} {pid : PeerId}

lemma updateXboxPeerMap_eq (peers : Option (List Peer)) :
    updateXboxPeerMap peers = insertAll (entries (peers.getD [])) ∅ := by
  rw [updateXboxPeerMap, insertAll, entries, List.foldl_flatMap]
  congr 1
  funext m p
  rw [List.foldl_map]

lemma replaced_eq (s : State) (ls : LocalState) (o : Orders) :
    replaced s ls o = insertAll (entries (listed s.localState)) ∅ :=
  updateXboxPeerMap_eq s.localState.peers

lemma mem_entries : (x, pid) ∈ entries peers ↔ ∃ p ∈ peers, p.id = pid ∧ x ∈ p.xboxes := by
  rw [entries, List.mem_flatMap]
  apply exists_congr
  intro p
  apply and_congr_right
  intro _
  rw [List.mem_map]
  constructor
  · rintro ⟨y, hy, he⟩
    obtain ⟨rfl, rfl⟩ := Prod.mk.inj he
    exact ⟨rfl, hy⟩
  · rintro ⟨rfl, hx⟩
    exact ⟨x, hx, rfl⟩

lemma getLast?_entry (x : Xbox) (p : Peer) :
    (((p.xboxes.map fun x => (x, p.id)).filter fun e => e.1 = x).getLast?).map Prod.snd =
      if x ∈ p.xboxes then some p.id else none := by
  have hmap : (p.xboxes.map fun x => (x, p.id)).filter (fun e => e.1 = x) =
      (p.xboxes.filter fun y => y = x).map fun y => (y, p.id) := by
    rw [List.filter_map]
    rfl
  rw [hmap, List.getLast?_map, Option.map_map]
  split_ifs with hx
  · have hne : p.xboxes.filter (fun y => y = x) ≠ [] :=
      List.ne_nil_of_mem (List.mem_filter.mpr ⟨hx, decide_eq_true rfl⟩)
    obtain ⟨y, hy⟩ := Option.isSome_iff_exists.mp (List.getLast?_isSome.mpr hne)
    rw [hy]
    rfl
  · have hnil : p.xboxes.filter (fun y => y = x) = [] := by
      rw [List.filter_eq_nil_iff]
      rintro y hy he
      exact hx (of_decide_eq_true he ▸ hy)
    rw [hnil]
    rfl

lemma getLast?_entries (x : Xbox) (peers : List Peer) :
    (((entries peers).filter fun e => e.1 = x).getLast?).map Prod.snd =
      ((peers.filter fun p => x ∈ p.xboxes).getLast?).map Peer.id := by
  induction peers with
  | nil => rfl
  | cons p peers ih =>
    have hp := getLast?_entry x p
    rw [entries, List.flatMap_cons, ← entries, List.filter_append, List.getLast?_append,
      Option.map_or, ih, hp]
    by_cases hx : x ∈ p.xboxes
    · rw [if_pos hx, List.filter_cons_of_pos (by simpa using hx), List.getLast?_cons]
      cases (peers.filter fun p => x ∈ p.xboxes).getLast? <;> rfl
    · rw [if_neg hx, List.filter_cons_of_neg (by simpa using hx), Option.or_none]

lemma lookup_replaced (s : State) (ls : LocalState) (o : Orders) (x : Xbox) :
    (replaced s ls o).lookup x = owner s.localState x := by
  rw [replaced_eq, lookup_insertAll, getLast?_entries, Finmap.lookup_empty, Option.or_none]
  rfl

lemma Disjoint.functional (h : Disjoint peers) : Functional (entries peers) := by
  rintro ⟨x, pid⟩ he ⟨y, pid'⟩ he' hxy
  obtain rfl : x = y := hxy
  obtain ⟨p, hp, rfl, hx⟩ := mem_entries.mp he
  obtain ⟨q, hq, rfl, hx'⟩ := mem_entries.mp he'
  exact h p hp q hq x hx hx'

lemma mem_entries_of_same (h : List.Forall₂ SameEntry peers peers') (e : Xbox × PeerId) :
    e ∈ entries peers' ↔ e ∈ entries peers := by
  induction h with
  | nil => exact Iff.rfl
  | @cons p q ps qs hpq _ ih =>
    obtain ⟨y, pid⟩ := e
    have hhead : (y, pid) ∈ q.xboxes.map (fun x => (x, q.id)) ↔
        (y, pid) ∈ p.xboxes.map (fun x => (x, p.id)) := by
      rw [hpq.id]
      exact (hpq.xboxes.map _).mem_iff.symm
    rw [entries, List.flatMap_cons, List.mem_append, hhead, entries, List.flatMap_cons,
      List.mem_append]
    exact or_congr Iff.rfl ih

lemma Rearranged.mem_entries (h : Rearranged peers peers') (e : Xbox × PeerId) :
    e ∈ entries peers' ↔ e ∈ entries peers := by
  obtain ⟨l, hp, hs⟩ := h
  exact (mem_entries_of_same hs e).trans (hp.flatMap_right _).mem_iff.symm

theorem xbox_peers_replaced (s : State) (ls : LocalState) (o : Orders) :
    (∀ x, (replaced s ls o).lookup x = owner s.localState x) ∧
      (Disjoint (listed s.localState) →
        (∀ x pid, (replaced s ls o).lookup x = some pid ↔
          ∃ p ∈ listed s.localState, p.id = pid ∧ x ∈ p.xboxes) ∧
        ∀ s' ls' o', Rearranged (listed s.localState) (listed s'.localState) →
          replaced s' ls' o' = replaced s ls o) := by
  refine ⟨lookup_replaced s ls o, fun hd => ⟨fun x pid => ?_, fun s' ls' o' hr => ?_⟩⟩
  · rw [replaced_eq, hd.functional.lookup_insertAll, mem_entries]
  · rw [replaced_eq, replaced_eq]
    exact hd.functional.insertAll_congr hr.mem_entries

section Samples

def stranger : PeerId := ⟨[8]⟩

def friendPeer : Peer := ⟨friend, [console, newXbox [2]], false⟩

def strangerPeer : Peer := ⟨stranger, [newXbox [3]], false⟩

def stale : State where
  peerConnMap := ∅
  xboxPeerMap := (∅ : XboxPeerMap).insert console stranger
  localState := { LocalState.zero with peers := some [friendPeer, strangerPeer] }

def rearranged : State := { stale with
  xboxPeerMap := ∅
  localState := { LocalState.zero with
    peers := some [strangerPeer, ⟨friend, [newXbox [2], console], true⟩] } }

theorem stale_assignment_replaced :
    (replaced stale serverView ⟨[], []⟩).lookup console = some friend ∧
      replaced rearranged serverView ⟨[], []⟩ = replaced stale serverView ⟨[], []⟩ := by
  have hd : Disjoint (listed stale.localState) := by decide
  have hr : Rearranged (listed stale.localState) (listed rearranged.localState) :=
    ⟨[strangerPeer, friendPeer], .swap _ _ _,
      .cons ⟨rfl, .refl _⟩ (.cons ⟨rfl, .swap _ _ _⟩ .nil)⟩
  obtain ⟨hlookup, hsame⟩ := (xbox_peers_replaced stale serverView ⟨[], []⟩).2 hd
  refine ⟨(hlookup console friend).mpr ⟨friendPeer, ?_, rfl, ?_⟩, hsame _ _ _ hr⟩
  · exact List.mem_cons_self
  · exact List.mem_cons_self

end Samples

end XbTunnel.Daemon.XboxPeers
