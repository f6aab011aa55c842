import XbTunnel.Daemon.Local

/-! `getHandles`, with the one loop variable that all iterations share: every handle ends up with
the interface that came last. -/

namespace XbTunnel.Daemon.Handles

open Common

abbrev Memory (I : Type) := ℕ → I

inductive Failure
  | panic (err : String)
  | sliceBounds
  | fatal (err : String)

structure Handle where
  iface : ℕ
deriving DecidableEq

section

variable {I P : Type} (name : I → Bytes) (addresses : I → List Bytes)

def lo : Bytes := [0x6c, 0x6f]

def wanted (iface : I) : Except Failure Bool :=
  if addresses iface = [] then .ok false
  else if (name iface).length < 2 then .error .sliceBounds
  else .ok (decide ((name iface).take 2 ≠ lo))

def collect (addr : ℕ) : List I → List Handle → Memory I → Except Failure (List Handle × Memory I)
  | [], handles, mem => .ok (handles, mem)
  | i :: rest, handles, mem => do
    -- the variable at `addr` is the same in all iterations
    let mem := Function.update mem addr i
    let handles := if ← wanted name addresses (mem addr) then handles ++ [⟨addr⟩] else handles
    collect addr rest handles mem

def getHandles (ifs : Except String (List I)) (addr : ℕ) (mem : Memory I) :
    Except Failure (List Handle × Memory I) :=
  match ifs with
  | .error err => .error (.panic err)
  | .ok ifs => collect name addresses addr ifs [] mem

def openHandles (openlive : Bytes → Except String P) (mem : Memory I) :
    List Handle → Except Failure (List P)
  | [] => .ok []
  | handle :: rest =>
    match openlive (name (mem handle.iface)) with
    | .error err => .error (.fatal err)
    | .ok pcap => do
      let pcaps ← openHandles openlive mem rest
      .ok (pcap :: pcaps)

/-- `newLocalManager` from its start: the handles, what they were opened as, and the manager, which
numbers them. -/
def makeLocalManager (ifs : Except String (List I)) (openlive : Bytes → Except String P) (addr : ℕ)
    (mem : Memory I) : Except Failure (List P × LocalManager) := do
  let (handles, mem) ← getHandles name addresses ifs addr mem
  let pcaps ← openHandles name openlive mem handles
  .ok (pcaps, newLocalManager handles.length)

def Kept (i : I) : Prop := addresses i ≠ [] ∧ ¬ lo <+: name i

instance (i : I) : Decidable (Kept name addresses i) := inferInstanceAs (Decidable (_ ∧ _))

def HandleEach (ifs : List I) (addr : ℕ) (mem : Memory I) : Prop :=
  ∃ handles mem', getHandles name addresses (.ok ifs) addr mem = .ok (handles, mem') ∧
    handles.map (fun h => mem' h.iface) = ifs.filter fun i => decide (Kept name addresses i)

structure KeepsLast (ifs : List I) : Prop where
  named : ∀ i ∈ ifs, addresses i ≠ [] → 2 ≤ (name i).length
  last : ∀ i ∈ ifs, Kept name addresses i → ifs.getLast? = some i

variable {name addresses} {ifs : List I} {i : I} {addr : ℕ} {handles : List Handle}
  {mem mem' : Memory I}

lemma take_two_eq_lo {l : Bytes} : l.take 2 = lo ↔ lo <+: l := by
  rw [List.prefix_iff_eq_take, eq_comm]
  rfl

lemma wanted_named (h : addresses i ≠ [] → 2 ≤ (name i).length) :
    wanted name addresses i = .ok (decide (Kept name addresses i)) := by
  rw [wanted]
  split_ifs with ha hn
  · simp [Kept, ha]
  · exact absurd (h ha) (Nat.not_le.mpr hn)
  · simp [Kept, ha, take_two_eq_lo]

lemma wanted_unnamed (ha : addresses i ≠ []) (hn : (name i).length < 2) :
    wanted name addresses i = .error .sliceBounds := by
  rw [wanted, if_neg ha, if_pos hn]

def written (addr : ℕ) (mem : Memory I) (ifs : List I) : Memory I :=
  ifs.foldl (fun m i => Function.update m addr i) mem

lemma written_last (mem : Memory I) (h : ifs.getLast? = some i) :
    written addr mem ifs addr = i := by
  obtain ⟨ifs', rfl⟩ := List.getLast?_eq_some_iff.mp h
  rw [written, List.foldl_append]
  exact Function.update_self ..

lemma collect_named (h : ∀ i ∈ ifs, addresses i ≠ [] → 2 ≤ (name i).length) :
    collect name addresses addr ifs handles mem =
      .ok (handles ++ List.replicate (ifs.countP fun i => decide (Kept name addresses i)) ⟨addr⟩,
        written addr mem ifs) := by
  induction ifs generalizing handles mem with
  | nil => simp [collect, written]
  | cons i rest ih =>
    obtain ⟨hi, hrest⟩ := List.forall_mem_cons.mp h
    have hw : wanted name addresses (Function.update mem addr i addr) =
        .ok (decide (Kept name addresses i)) := by
      rw [Function.update_self]
      exact wanted_named hi
    rw [collect]
    simp only [hw]
    change collect name addresses addr rest _ _ = _
    rw [ih hrest]
    by_cases hk : Kept name addresses i
    · simp [hk, written, List.replicate_succ]
    · simp [hk, written]

lemma collect_unnamed (hm : i ∈ ifs) (ha : addresses i ≠ []) (hn : (name i).length < 2) :
    collect name addresses addr ifs handles mem = .error .sliceBounds := by
  induction ifs generalizing handles mem with
  | nil => cases hm
  | cons j rest ih =>
    rw [collect]
    by_cases hj : addresses j ≠ [] → 2 ≤ (name j).length
    · have hw : wanted name addresses (Function.update mem addr j addr) =
          .ok (decide (Kept name addresses j)) := by
        rw [Function.update_self]
        exact wanted_named hj
      have hrest : i ∈ rest := by
        refine (List.mem_cons.mp hm).resolve_left ?_
        rintro rfl
        exact absurd (hj ha) (Nat.not_le.mpr hn)
      simp only [hw]
      exact ih hrest
    · push Not at hj
      have hw : wanted name addresses (Function.update mem addr j addr) = .error .sliceBounds := by
        rw [Function.update_self]
        exact wanted_unnamed hj.1 hj.2
      simp only [hw]
      rfl

theorem getHandles_correct_iff (ifs : List I) (addr : ℕ) (mem : Memory I) :
    HandleEach name addresses ifs addr mem ↔ KeepsLast name addresses ifs := by
  constructor
  · rintro ⟨handles, mem', hg, hm⟩
    have hnamed : ∀ i ∈ ifs, addresses i ≠ [] → 2 ≤ (name i).length := by
      intro i hi ha
      by_contra hn
      cases (collect_unnamed hi ha (Nat.not_le.mp hn)).symm.trans hg
    refine ⟨hnamed, fun i hi hk => ?_⟩
    obtain ⟨rfl, rfl⟩ := Prod.mk.inj (Except.ok.inj ((collect_named hnamed).symm.trans hg))
    obtain ⟨last, hl⟩ := Option.isSome_iff_exists.mp
      (List.getLast?_isSome.mpr (List.ne_nil_of_mem hi))
    have hmem : i ∈ ifs.filter fun i => decide (Kept name addresses i) :=
      List.mem_filter.mpr ⟨hi, decide_eq_true hk⟩
    rw [← hm, List.nil_append, List.map_replicate, written_last mem hl] at hmem
    rw [hl, List.eq_of_mem_replicate hmem]
  · rintro ⟨hnamed, hlast⟩
    refine ⟨_, _, collect_named hnamed, ?_⟩
    rw [List.nil_append, List.map_replicate, eq_comm, List.eq_replicate_iff]
    refine ⟨List.countP_eq_length_filter.symm, fun i hi => ?_⟩
    obtain ⟨hi, hk⟩ := List.mem_filter.mp hi
    exact (written_last mem (hlast i hi (of_decide_eq_true hk))).symm

lemma bind_eq_ok {α β : Type} {m : Except Failure α} {f : α → Except Failure β} {b : β} :
    m >>= f = .ok b ↔ ∃ a, m = .ok a ∧ f a = .ok b := by
  cases m with
  | error e => exact ⟨nofun, nofun⟩
  | ok a => exact ⟨fun h => ⟨a, rfl, h⟩, fun ⟨a', ha, h⟩ => (Except.ok.inj ha) ▸ h⟩

lemma openHandles_replicate {openlive : Bytes → Except String P} {n : ℕ} {pcaps : List P}
    (h : openHandles name openlive mem (List.replicate n ⟨addr⟩) = .ok pcaps) :
    ∀ pcap ∈ pcaps, openlive (name (mem addr)) = .ok pcap := by
  induction n generalizing pcaps with
  | zero =>
    cases h
    exact nofun
  | succ n ih =>
    rw [List.replicate_succ, openHandles] at h
    cases ho : openlive (name (mem addr)) with
    | error err =>
      rw [ho] at h
      cases h
    | ok pcap =>
      rw [ho] at h
      obtain ⟨rest, hr, h⟩ := bind_eq_ok.mp h
      cases h
      exact List.forall_mem_cons.mpr ⟨rfl, fun p hp => ho.symm.trans (ih hr p hp)⟩

theorem makeLocalManager_opens_last {openlive : Bytes → Except String P} {pcaps : List P}
    {lm : LocalManager} {last : I} (hl : ifs.getLast? = some last)
    (h : makeLocalManager name addresses (.ok ifs) openlive addr mem = .ok (pcaps, lm)) :
    lm = newLocalManager (ifs.countP fun i => decide (Kept name addresses i)) ∧
      ∀ pcap ∈ pcaps, openlive (name last) = .ok pcap := by
  have hnamed : ∀ i ∈ ifs, addresses i ≠ [] → 2 ≤ (name i).length := by
    intro i hi ha
    by_contra hn
    rw [makeLocalManager, getHandles, collect_unnamed hi ha (Nat.not_le.mp hn)] at h
    cases h
  rw [makeLocalManager, getHandles, collect_named hnamed, List.nil_append] at h
  obtain ⟨_, hg, h⟩ := bind_eq_ok.mp h
  obtain rfl := Except.ok.inj hg
  obtain ⟨ps, ho, h⟩ := bind_eq_ok.mp h
  cases h
  rw [List.length_replicate]
  exact ⟨rfl, fun pcap hp => written_last mem hl ▸ openHandles_replicate ho pcap hp⟩

section Samples

def eth0 : Bytes × List Bytes := ([0x65, 0x74, 0x68, 0x30], [[10, 0, 0, 1]])

def wlan0 : Bytes × List Bytes := ([0x77, 0x6c, 0x61, 0x6e, 0x30], [[10, 0, 0, 2]])

theorem eth0_handle_shows_wlan0 :
    ¬ HandleEach Prod.fst Prod.snd [eth0, wlan0] 0 fun _ => ([], []) := by
  rintro ⟨handles, mem', hg, hm⟩
  have hc : getHandles Prod.fst Prod.snd (.ok [eth0, wlan0]) 0 (fun _ => ([], [])) =
      .ok ([⟨0⟩, ⟨0⟩], written 0 (fun _ => ([], [])) [eth0, wlan0]) := collect_named (by decide)
  obtain ⟨rfl, rfl⟩ := Prod.mk.inj (Except.ok.inj (hc.symm.trans hg))
  exact absurd hm (by decide)

end Samples

end

end XbTunnel.Daemon.Handles
