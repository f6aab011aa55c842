import XbTunnel.Daemon.PeerConn
import XbTunnel.Lib.Runs

/-! The read side of `ShimConn`: calls of `Read` one after the other, the payloads that the state
manager sends on `readChan`, and the kill. -/

namespace XbTunnel.Daemon.Shim

open Common Lib.Channels Lib.Runs

def copy (dst src : Bytes) : Bytes × ℕ :=
  let n := min dst.length src.length
  (src.take n ++ dst.drop n, n)

structure Read where
  bytes : Bytes
  tmp : Option Bytes
  filled : Bytes
  n : ℤ
  err : Bool
deriving DecidableEq

def Read.returned (r : Read) : Bytes := r.filled.take r.n.toNat

def Read.payload (r : Read) : Bytes := r.tmp.getD []

structure State where
  closed : Bool
  kill : Chan Unit
  dead : Chan Unit
  pending : Option Bytes
  reads : List Read
deriving DecidableEq

def newShimConn : State := ⟨false, .make 1, .make 1, none, []⟩

inductive Action
  | read (bytes : Bytes)
  | send (payload : Bytes)
  | sendKill
  | recvKill
  | recvDead
  | close
  | recvClosed

def step (s : State) : Action → Option State
  | .read bytes =>
    if s.pending = none ∧ bytes ≠ [] then some { s with pending := some bytes } else none
  | .send payload =>
    match s.pending with
    | some bytes =>
      -- a send on the closed channel panics
      if s.closed then none
      else some { s with
        pending := none
        reads := s.reads ++
          [⟨bytes, some payload, (copy bytes payload).1, (copy bytes payload).2, false⟩] }
    | none => none
  | .sendKill => do
    let kill ← s.kill.send ()
    some { s with kill }
  | .recvKill =>
    match s.pending with
    | some bytes => do
      let kill ← s.kill.drop
      -- the deferred function
      let dead ← s.dead.send ()
      some { s with kill, dead, pending := none, reads := s.reads ++ [⟨bytes, none, bytes, -1, true⟩] }
    | none => none
  | .recvDead => do
    let dead ← s.dead.drop
    some { s with dead }
  | .close => if s.closed then none else some { s with closed := true }
  | .recvClosed =>
    match s.pending with
    | some bytes =>
      if s.closed then some { s with
        pending := none
        reads := s.reads ++ [⟨bytes, none, (copy bytes []).1, (copy bytes []).2, false⟩] }
      else none
    | none => none

/-- The contract of a byte stream: counts within the buffers, the bytes in order, and no byte of a
payload missing once a byte of a later one has been returned. -/
structure Honours (s : State) : Prop where
  counts : ∀ r ∈ s.reads, 0 ≤ r.n ∧ r.n ≤ r.bytes.length
  inOrder : s.reads.flatMap Read.returned <+: s.reads.flatMap Read.payload
  whole : s.reads.Pairwise fun r r' => r'.returned ≠ [] → r.returned = r.payload

def Read.Fits (r : Read) : Prop := r.payload.length ≤ r.bytes.length

instance (r : Read) : Decidable r.Fits := inferInstanceAs (Decidable (_ ≤ _))

/-- No `Read` takes the kill, and after a payload that was longer than its buffer only empty ones
are sent. -/
def Harmless (s : State) : Action → Prop
  | .recvKill => False
  | .send payload => payload = [] ∨ ∀ r ∈ s.reads, r.Fits
  | _ => True

instance (s : State) : ∀ a, Decidable (Harmless s a)
  | .recvKill => inferInstanceAs (Decidable False)
  | .send payload => inferInstanceAs (Decidable (payload = [] ∨ ∀ r ∈ s.reads, r.Fits))
  | .read _ | .sendKill | .recvDead | .close | .recvClosed => inferInstanceAs (Decidable True)

variable {s t : State} {a : Action} {r : Read}

structure Read.Copied (r : Read) : Prop where
  room : r.bytes ≠ []
  n : r.n = (min r.bytes.length r.payload.length : ℕ)
  returned : r.returned = r.payload.take r.bytes.length

lemma copied_of_copy (bytes : Bytes) (hb : bytes ≠ []) (tmp : Option Bytes) :
    Read.Copied
      ⟨bytes, tmp, (copy bytes (tmp.getD [])).1, (copy bytes (tmp.getD [])).2, false⟩ := by
  refine ⟨hb, rfl, ?_⟩
  simp only [Read.returned, Read.payload, copy, Int.toNat_natCast]
  rw [List.take_left' (by simp), List.take_eq_take_iff]
  omega

lemma Read.Copied.returned_eq_payload_iff (h : r.Copied) : r.returned = r.payload ↔ r.Fits := by
  rw [h.returned, List.take_eq_self_iff, Read.Fits]

lemma Read.Copied.returned_eq_nil_iff (h : r.Copied) : r.returned = [] ↔ r.payload = [] := by
  rw [h.returned, List.take_eq_nil_iff]
  have hb : r.bytes.length ≠ 0 := fun hl => h.room (List.length_eq_zero_iff.mp hl)
  simp only [hb, false_or]

inductive Effect (s : State) : Action → State → Prop
  | read {bytes} : s.pending = none → bytes ≠ [] →
      Effect s (.read bytes) { s with pending := some bytes }
  | send {bytes payload} : s.pending = some bytes → s.closed = false →
      Effect s (.send payload) { s with
        pending := none
        reads := s.reads ++
          [⟨bytes, some payload, (copy bytes payload).1, (copy bytes payload).2, false⟩] }
  | sendKill {kill} : s.kill.send () = some kill → Effect s .sendKill { s with kill }
  | recvKill {bytes kill dead} : s.pending = some bytes → s.kill.drop = some kill →
      s.dead.send () = some dead → Effect s .recvKill { s with
        kill, dead, pending := none, reads := s.reads ++ [⟨bytes, none, bytes, -1, true⟩] }
  | recvDead {dead} : s.dead.drop = some dead → Effect s .recvDead { s with dead }
  | close : s.closed = false → Effect s .close { s with closed := true }
  | recvClosed {bytes} : s.pending = some bytes → s.closed = true →
      Effect s .recvClosed { s with
        pending := none
        reads := s.reads ++ [⟨bytes, none, (copy bytes []).1, (copy bytes []).2, false⟩] }

lemma step_effect (h : step s a = some t) : Effect s a t := by
  cases a with
  | read bytes =>
    obtain ⟨⟨hp, hb⟩, ht⟩ := Option.ite_none_right_eq_some.mp h
    cases ht
    exact .read hp hb
  | send payload =>
    simp only [step] at h
    split at h
    · rename_i bytes hp
      obtain ⟨hc, ht⟩ := Option.ite_none_left_eq_some.mp h
      cases ht
      exact .send hp (Bool.eq_false_iff.mpr hc)
    · cases h
  | sendKill | recvDead =>
    obtain ⟨_, hs, ht⟩ := Option.bind_eq_some_iff.mp h
    cases ht
    constructor
    exact hs
  | recvKill =>
    simp only [step] at h
    split at h
    · rename_i bytes hp
      obtain ⟨_, hk, h⟩ := Option.bind_eq_some_iff.mp h
      obtain ⟨_, hd, ht⟩ := Option.bind_eq_some_iff.mp h
      cases ht
      exact .recvKill hp hk hd
    · cases h
  | close =>
    obtain ⟨hc, ht⟩ := Option.ite_none_left_eq_some.mp h
    cases ht
    exact .close (Bool.eq_false_iff.mpr hc)
  | recvClosed =>
    simp only [step] at h
    split at h
    · rename_i bytes hp
      obtain ⟨hc, ht⟩ := Option.ite_none_right_eq_some.mp h
      cases ht
      exact .recvClosed hp hc
    · cases h

structure Inv (s : State) : Prop where
  pending : s.pending ≠ some []
  copied : ∀ r ∈ s.reads, r.Copied
  whole : s.reads.Pairwise fun r r' => r'.payload ≠ [] → r.Fits

lemma inOrder_of_whole {reads : List Read} (hc : ∀ r ∈ reads, r.Copied)
    (hw : reads.Pairwise fun r r' => r'.payload ≠ [] → r.Fits) :
    reads.flatMap Read.returned <+: reads.flatMap Read.payload := by
  induction reads with
  | nil => exact List.prefix_refl _
  | cons r reads ih =>
    obtain ⟨hr, hw⟩ := List.pairwise_cons.mp hw
    obtain ⟨hcr, hc⟩ := List.forall_mem_cons.mp hc
    rw [List.flatMap_cons, List.flatMap_cons]
    by_cases hf : r.Fits
    · rw [hcr.returned_eq_payload_iff.mpr hf]
      exact (List.prefix_append_right_inj _).mpr (ih hc hw)
    · have hnil : reads.flatMap Read.returned = [] := by
        rw [List.flatMap_eq_nil_iff]
        intro r' hm
        rw [(hc r' hm).returned_eq_nil_iff]
        by_contra hp
        exact hf (hr r' hm hp)
      rw [hnil, List.append_nil, hcr.returned]
      exact (List.take_prefix _ _).trans (List.prefix_append _ _)

lemma Inv.honours (h : Inv s) : Honours s where
  counts r hr := by
    rw [(h.copied r hr).n]
    omega
  inOrder := inOrder_of_whole h.copied h.whole
  whole := by
    apply h.whole.imp_of_mem
    intro r r' hr hr' hw hne
    exact (h.copied r hr).returned_eq_payload_iff.mpr
      (hw (mt (h.copied r' hr').returned_eq_nil_iff.mpr hne))

lemma Inv.completes (h : Inv s) (hr : r.Copied) (hp : t.pending = none)
    (ht : t.reads = s.reads ++ [r]) (hf : r.payload = [] ∨ ∀ r' ∈ s.reads, r'.Fits) : Inv t := by
  refine ⟨by rw [hp]; exact nofun, ?_, ?_⟩
  · rw [ht, List.forall_mem_append, List.forall_mem_singleton]
    exact ⟨h.copied, hr⟩
  · rw [ht, List.pairwise_append]
    refine ⟨h.whole, List.pairwise_singleton _ _, fun r' hr' r'' hr'' hne => ?_⟩
    obtain rfl := List.mem_singleton.mp hr''
    exact hf.resolve_left hne r' hr'

lemma Inv.step (h : Inv s) (hs : step s a = some t) (ha : Harmless s a) : Inv t := by
  have hb {bytes : Bytes} (hp : s.pending = some bytes) : bytes ≠ [] :=
    fun he => h.pending (he ▸ hp)
  cases step_effect hs with
  | read _ hne => exact ⟨fun he => hne (Option.some.inj he), h.copied, h.whole⟩
  | send hp => exact h.completes (copied_of_copy _ (hb hp) (some _)) rfl rfl ha
  | recvKill => exact ha.elim
  | recvClosed hp => exact h.completes (copied_of_copy _ (hb hp) none) rfl rfl (.inl rfl)
  | sendKill | recvDead | close => exact ⟨h.pending, h.copied, h.whole⟩

lemma harmful_breaks (h : Inv s) (hs : step s a = some t) (ha : ¬ Harmless s a) :
    ¬ Honours t := by
  intro ht
  cases step_effect hs with
  | recvKill =>
    have hn : (0 : ℤ) ≤ -1 := (ht.counts _ (List.mem_append_right _ (List.mem_singleton_self _))).1
    exact absurd hn (by decide)
  | @send bytes payload hp =>
    simp only [Harmless, not_or, not_forall] at ha
    obtain ⟨hne, r, hr, hcut⟩ := ha
    have hb := copied_of_copy bytes (fun he => h.pending (he ▸ hp)) (some payload)
    have hw := (List.pairwise_append.mp ht.whole).2.2 r hr _ (List.mem_singleton_self _)
    have hret := hw (mt hb.returned_eq_nil_iff.mp hne)
    exact hcut ((h.copied r hr).returned_eq_payload_iff.mp hret)
  | _ => exact ha trivial

lemma inv_start : Inv newShimConn := ⟨nofun, nofun, .nil⟩

theorem honours_iff_harmless {tr : List (State × Action)} {u : State}
    (h : Run (Steps step) newShimConn tr u) :
    AllStates Honours tr u ↔ AllSteps Harmless tr :=
  h.all_states_iff Inv (fun _ => Inv.honours) (fun _ _ _ hi hs => hi.step hs)
    (fun _ _ _ hi hs => harmful_breaks hi hs) inv_start

def buffer (n : ℕ) : Bytes := List.replicate n 0

def readsWhole : List Action :=
  [.read (buffer 4), .send [1, 2], .read (buffer 2), .send [3, 4, 5], .read (buffer 2), .send []]

theorem readsWhole_honours : ∃ tr u, tr.map Prod.snd = readsWhole ∧
    Run (Steps step) newShimConn tr u ∧ AllStates Honours tr u := by
  obtain ⟨tr, u, ha, hr, hs⟩ := follow_decide step Harmless newShimConn readsWhole rfl
  exact ⟨tr, u, ha, hr, (honours_iff_harmless hr).mpr hs⟩

def readsShort : List Action := [.read (buffer 1), .send [1, 2], .read (buffer 1), .send [3]]

theorem readsShort_loses : ∃ tr u, tr.map Prod.snd = readsShort ∧
    Run (Steps step) newShimConn tr u ∧ ¬ Honours u := by
  have hend : (exec step newShimConn readsShort).any (fun u =>
      decide (¬ u.reads.flatMap Read.returned <+: u.reads.flatMap Read.payload)) = true := rfl
  obtain ⟨tr, u, ha, hr, hd⟩ := exec_any _ hend
  exact ⟨tr, u, ha, hr, fun h => of_decide_eq_true hd h.inOrder⟩

section Daemon

structure Agrees (s : State) (pc : PeerConn) : Prop where
  reads : pc.reads = s.pending.toList.length
  kill : pc.sidebandKill = s.kill
  dead : pc.sidebandDead = s.dead

def Taken (ch : Shared) (pc pc' : PeerConn) : Action → Prop
  | .read _ => pc.step ch .callRead = some (ch, pc')
  | .send _ => pc.reads ≠ 0 ∧ pc' = { pc with reads := pc.reads - 1 }
  | .sendKill => ∃ sidebandKill, pc.sidebandKill.send () = some sidebandKill ∧
      pc' = { pc with sidebandKill }
  | .recvKill => pc.step ch .killRead = some (ch, pc')
  | .recvDead => ∃ sidebandDead, pc.sidebandDead.drop = some sidebandDead ∧
      pc' = { pc with sidebandDead }
  | .close | .recvClosed => False

variable {ch : Shared} {pc : PeerConn}

theorem step_taken {initiator : Bool} (h : Agrees s pc) (hn : pc.nat = .connecting initiator)
    (hs : step s a = some t) (hc : s.closed = false) (ha : a ≠ .close) :
    ∃ pc', Taken ch pc pc' a ∧ Agrees t pc' := by
  cases step_effect hs with
  | read hp =>
    refine ⟨{ pc with reads := pc.reads + 1 }, by simp only [Taken, PeerConn.step, hn], ?_⟩
    exact ⟨by simp [h.reads, hp], h.kill, h.dead⟩
  | send hp =>
    have hr : pc.reads = 1 := by simp [h.reads, hp]
    exact ⟨_, ⟨by rw [hr]; exact Nat.one_ne_zero, rfl⟩, by simp [hr], h.kill, h.dead⟩
  | @sendKill kill hk =>
    refine ⟨{ pc with sidebandKill := kill }, ⟨kill, ?_, rfl⟩, h.reads, rfl, h.dead⟩
    rw [h.kill, hk]
  | @recvKill _ kill dead hp hk hd =>
    have hr : pc.reads = 1 := by simp [h.reads, hp]
    refine ⟨{ pc with sidebandKill := kill, sidebandDead := dead, reads := pc.reads - 1 }, ?_, ?_⟩
    · simp only [Taken, PeerConn.step, hr, h.kill, h.dead, hk, hd, Option.bind_eq_bind,
        Option.bind_some]
      rfl
    · exact ⟨by simp [hr], rfl, rfl⟩
  | @recvDead dead hd =>
    refine ⟨{ pc with sidebandDead := dead }, ⟨dead, ?_, rfl⟩, h.reads, h.kill, rfl⟩
    rw [h.dead, hd]
  | close => exact absurd rfl ha
  | recvClosed _ hcl => cases hc.symm.trans hcl

end Daemon

end XbTunnel.Daemon.Shim
