import XbTunnel.Daemon.Remote

/-! The operations of one call of `resolvePeerConns`: whom it dials, in which role, and which
connections it kills. -/

namespace XbTunnel.Daemon.Remote

open Common Lib.Maps

variable {my pid : PeerId} {m : PeerConnMap} {peerList : Option (List Peer)} {o₁ o₂ : PcOrder}

def redialed (m : PeerConnMap) (peerList : Option (List Peer)) : List Peer :=
  (peerList.getD []).filter fun p => p.id ∈ m

def dialOf (my : PeerId) (p : Peer) : Op := .dial p.id (decide (p.id < my))

def leaving (peerList : Option (List Peer)) (order : PcOrder) : PcOrder :=
  order.filter fun e => !hasId (peerList.getD []) e.1

lemma dials_eq (my : PeerId) (m : PeerConnMap) (peers : List Peer) :
    (peers.flatMap fun peer =>
      if peer.id ∈ m then
        if peer.id < my then [dialPeerConnection peer.id] else [receivePeerConnection peer.id]
      else []) = (peers.filter fun p => p.id ∈ m).map (dialOf my) := by
  induction peers with
  | nil => rfl
  | cons p peers ih =>
    rw [List.flatMap_cons, ih, List.filter_cons]
    by_cases hm : p.id ∈ m
    · by_cases hl : p.id < my
      · simp [hm, hl, dialOf, dialPeerConnection]
      · simp [hm, hl, dialOf, receivePeerConnection]
    · simp [hm]

lemma kills_eq (peers : List Peer) (order : PcOrder) :
    (order.flatMap fun e => if hasId peers e.1 then [] else [Op.sendKill e.2]) =
      (order.filter fun e => !hasId peers e.1).map fun e => .sendKill e.2 := by
  induction order with
  | nil => rfl
  | cons e order ih =>
    rw [List.flatMap_cons, ih, List.filter_cons]
    cases he : hasId peers e.1 <;> simp

lemma resolvePeerConns_eq (my : PeerId) (m : PeerConnMap) (peerList : Option (List Peer))
    (o₁ o₂ : PcOrder) :
    resolvePeerConns my m peerList o₁ o₂ =
      (if peerList = none then o₁.map fun e => .recvKill e.2 else []) ++
        ((redialed m peerList).map (dialOf my) ++
          (leaving peerList o₂).map fun e => .sendKill e.2) := by
  rw [resolvePeerConns, dials_eq, kills_eq, List.append_assoc, redialed, leaving]

lemma dial_mem_resolve {initiator : Bool}
    (h : .dial pid initiator ∈ resolvePeerConns my m peerList o₁ o₂) :
    initiator = decide (pid < my) := by
  rw [resolvePeerConns_eq, List.mem_append, List.mem_append] at h
  rcases h with h | h | h
  · split_ifs at h
    · obtain ⟨e, -, he⟩ := List.mem_map.mp h
      cases he
    · cases h
  · obtain ⟨p, -, he⟩ := List.mem_map.mp h
    cases he
    rfl
  · obtain ⟨e, -, he⟩ := List.mem_map.mp h
    cases he

section Roles

structure Call where
  peerConns : PeerConnMap
  peerList : Option (List Peer)
  first : PcOrder
  second : PcOrder

def Call.ops (my : PeerId) (c : Call) : List Op :=
  resolvePeerConns my c.peerConns c.peerList c.first c.second

def roleTowards (toId : PeerId) : Op → Option Bool
  | .dial pid initiator => if pid = toId then some initiator else none
  | _ => none

def roles (my toId : PeerId) (calls : List Call) : List Bool :=
  (calls.flatMap (Call.ops my)).filterMap (roleTowards toId)

lemma role_eq {toId : PeerId} {calls : List Call} {initiator : Bool}
    (h : initiator ∈ roles my toId calls) : initiator = decide (toId < my) := by
  obtain ⟨op, ho, hr⟩ := List.mem_filterMap.mp h
  obtain ⟨c, -, ho⟩ := List.mem_flatMap.mp ho
  cases op with
  | dial pid i =>
    obtain ⟨rfl, hi⟩ := Option.ite_none_right_eq_some.mp hr
    obtain rfl := Option.some.inj hi
    exact dial_mem_resolve ho
  | _ => cases hr

lemma peerId_lt_asymm {a b : PeerId} (h : a < b) : ¬ b < a :=
  fun hg => List.lt_asymm h hg

lemma peerId_eq_of_not_lt {a b : PeerId} (h : ¬ a < b) (h' : ¬ b < a) : a = b := by
  cases a
  cases b
  exact congrArg PeerId.mk (List.le_antisymm (List.not_lt.mp h') (List.not_lt.mp h))

lemma peerId_lt_iff {a b : PeerId} (h : a ≠ b) : a < b ↔ ¬ b < a := by
  constructor
  · exact peerId_lt_asymm
  · intro hb
    by_contra ha
    exact h (peerId_eq_of_not_lt ha hb)

theorem roles_complementary (a b : PeerId) (hab : a ≠ b) :
    ∃ roleA roleB : Bool, roleA ≠ roleB ∧
      (∀ calls, ∀ initiator ∈ roles a b calls, initiator = roleA) ∧
      ∀ calls, ∀ initiator ∈ roles b a calls, initiator = roleB := by
  refine ⟨decide (b < a), decide (a < b), ?_, fun _ _ => role_eq, fun _ _ => role_eq⟩
  have hlt := peerId_lt_iff hab
  intro he
  have hiff := decide_eq_decide.mp he
  by_cases ha : a < b
  · exact hlt.mp ha (hiff.mpr ha)
  · exact ha (hlt.mpr fun hb => ha (hiff.mp hb))

def redials (pid : PeerId) : Call where
  peerConns := (∅ : PeerConnMap).insert pid ⟨0, pid⟩
  peerList := some [⟨pid, [], false⟩]
  first := [⟨pid, ⟨0, pid⟩⟩]
  second := [⟨pid, ⟨0, pid⟩⟩]

theorem roles_complementary_prefix : ∃ roleA roleB : Bool, roleA ≠ roleB ∧
    roles ⟨[1]⟩ ⟨[1, 2]⟩ [redials ⟨[1, 2]⟩] = [roleA] ∧
    roles ⟨[1, 2]⟩ ⟨[1]⟩ [redials ⟨[1]⟩] = [roleB] := by
  have hA : roles ⟨[1]⟩ ⟨[1, 2]⟩ [redials ⟨[1, 2]⟩] = [false] := rfl
  have hB : roles ⟨[1, 2]⟩ ⟨[1]⟩ [redials ⟨[1]⟩] = [true] := rfl
  obtain ⟨roleA, roleB, hne, ha, hb⟩ := roles_complementary ⟨[1]⟩ ⟨[1, 2]⟩ (by decide)
  obtain rfl := ha [redials ⟨[1, 2]⟩] false (hA ▸ List.mem_singleton_self _)
  obtain rfl := hb [redials ⟨[1]⟩] true (hB ▸ List.mem_singleton_self _)
  exact ⟨_, _, hne, hA, hB⟩

end Roles

section Reconciles

def dials (pid : PeerId) : Op → Bool
  | .dial peerId _ => decide (peerId = pid)
  | _ => false

/-- What reconciling the connections with the room comes to: one connection attempt for each peer
that is new, and one kill for each connection whose peer has left. -/
structure Reconciles (my : PeerId) (m : PeerConnMap) (peerList : Option (List Peer))
    (ops : List Op) : Prop where
  dials : ∀ pid, ops.countP (dials pid) =
    if hasId (peerList.getD []) pid = true ∧ pid ≠ my ∧ pid ∉ m then 1 else 0
  kills : ∀ pc, ops.count (.sendKill pc) =
    if m.lookup pc.peerId = some pc ∧ hasId (peerList.getD []) pc.peerId = false then 1 else 0

lemma hasId_iff {peers : List Peer} : hasId peers pid = true ↔ ∃ p ∈ peers, p.id = pid := by
  simp only [hasId, List.any_eq_true, decide_eq_true_eq]

lemma countP_dials_redialed (my : PeerId) (m : PeerConnMap) (peerList : Option (List Peer)) :
    ((redialed m peerList).map (dialOf my)).countP (dials pid) =
      if pid ∈ m then (peerList.getD []).countP fun p => p.id = pid else 0 := by
  rw [redialed, List.countP_map, List.countP_filter]
  by_cases hm : pid ∈ m
  · rw [if_pos hm]
    apply List.countP_congr
    intro p _
    simp only [Function.comp_apply, dialOf, dials, Bool.and_eq_true, decide_eq_true_eq]
    constructor
    · exact And.left
    · rintro rfl
      exact ⟨rfl, hm⟩
  · rw [if_neg hm, List.countP_eq_zero]
    intro p _ hp
    simp only [Function.comp_apply, dialOf, dials, Bool.and_eq_true, decide_eq_true_eq] at hp
    exact hm (hp.1 ▸ hp.2)

lemma countP_dials (my : PeerId) (m : PeerConnMap) (peerList : Option (List Peer))
    (o₁ o₂ : PcOrder) (pid : PeerId) :
    (resolvePeerConns my m peerList o₁ o₂).countP (dials pid) =
      if pid ∈ m then (peerList.getD []).countP fun p => p.id = pid else 0 := by
  have hk : ((leaving peerList o₂).map fun e => Op.sendKill e.2).countP (dials pid) = 0 := by
    simp [List.countP_map, dials, Function.comp_def]
  have hr : (if peerList = none then o₁.map fun e => Op.recvKill e.2 else []).countP
      (dials pid) = 0 := by
    split <;> simp [List.countP_map, dials, Function.comp_def]
  rw [resolvePeerConns_eq, List.countP_append, List.countP_append, hk, hr, Nat.zero_add,
    Nat.add_zero, countP_dials_redialed]

lemma count_leaving (hf : ∀ pid pc, m.lookup pid = some pc → pc.peerId = pid)
    (ho : Iterates m o₂) (pc : PcRef) :
    ((leaving peerList o₂).map fun e => Op.sendKill e.2).count (.sendKill pc) =
      if hasId (peerList.getD []) pc.peerId = true then 0 else (o₂.map Sigma.snd).count pc := by
  rw [leaving, List.count, List.countP_map, List.countP_filter]
  by_cases hp : hasId (peerList.getD []) pc.peerId = true
  · rw [if_pos hp, List.countP_eq_zero]
    rintro ⟨pid, pc'⟩ he hc
    simp only [Function.comp_apply, Bool.and_eq_true, beq_iff_eq, Op.sendKill.injEq,
      Bool.not_eq_true'] at hc
    obtain ⟨rfl, hn⟩ := hc
    rw [← hf pid pc' (ho.mem_iff.mp he), hp] at hn
    cases hn
  · rw [if_neg hp, List.count, List.countP_map]
    apply List.countP_congr
    rintro ⟨pid, pc'⟩ he
    simp only [Function.comp_apply, Bool.and_eq_true, beq_iff_eq, Op.sendKill.injEq,
      Bool.not_eq_true']
    constructor
    · exact And.left
    · rintro rfl
      refine ⟨rfl, ?_⟩
      rw [← hf pid pc' (ho.mem_iff.mp he)]
      exact Bool.eq_false_iff.mpr hp

lemma count_sendKill (my : PeerId) (o₁ : PcOrder)
    (hf : ∀ pid pc, m.lookup pid = some pc → pc.peerId = pid) (ho : Iterates m o₂) (pc : PcRef) :
    (resolvePeerConns my m peerList o₁ o₂).count (.sendKill pc) =
      if m.lookup pc.peerId = some pc ∧ hasId (peerList.getD []) pc.peerId = false then 1
      else 0 := by
  have hr : (if peerList = none then o₁.map fun e => Op.recvKill e.2 else []).count
      (.sendKill pc) = 0 := by
    split <;> simp [List.count_eq_zero]
  have hd : ((redialed m peerList).map (dialOf my)).count (.sendKill pc) = 0 := by
    simp [List.count_eq_zero, dialOf]
  rw [resolvePeerConns_eq, List.count_append, List.count_append, hr, hd, Nat.zero_add,
    Nat.zero_add, count_leaving hf ho, ho.count_snd PcRef.peerId hf]
  by_cases hp : hasId (peerList.getD []) pc.peerId = true <;> simp [hp]

lemma reconciles_iff (hf : ∀ pid pc, m.lookup pid = some pc → pc.peerId = pid)
    (ho : Iterates m o₂) :
    Reconciles my m peerList (resolvePeerConns my m peerList o₁ o₂) ↔
      ∀ p ∈ peerList.getD [], p.id = my ∧ my ∉ m := by
  constructor
  · intro h p hp
    have hd := h.dials p.id
    have hi : hasId (peerList.getD []) p.id = true := hasId_iff.mpr ⟨p, hp, rfl⟩
    rw [countP_dials] at hd
    by_cases hm : p.id ∈ m
    · rw [if_pos hm, if_neg (fun h => h.2.2 hm), List.countP_eq_zero] at hd
      exact absurd (decide_eq_true rfl) (hd p hp)
    · have hmy : p.id = my := by
        by_contra hne
        rw [if_neg hm, if_pos ⟨hi, hne, hm⟩] at hd
        cases hd
      exact ⟨hmy, hmy ▸ hm⟩
  · intro h
    refine ⟨fun pid => ?_, count_sendKill my o₁ hf ho⟩
    have hn : ¬ (hasId (peerList.getD []) pid = true ∧ pid ≠ my ∧ pid ∉ m) := by
      rintro ⟨hi, hne, -⟩
      obtain ⟨p, hp, rfl⟩ := hasId_iff.mp hi
      exact hne (h p hp).1
    rw [countP_dials, if_neg hn]
    by_cases hm : pid ∈ m
    · rw [if_pos hm, List.countP_eq_zero]
      intro p hp hpid
      obtain ⟨hmy, hnm⟩ := h p hp
      exact hnm (hmy ▸ of_decide_eq_true hpid ▸ hm)
    · rw [if_neg hm]

end Reconciles

end XbTunnel.Daemon.Remote
