import XbTunnel.Daemon.Udp
import XbTunnel.Lib.Channels
import XbTunnel.Lib.Runs

/-! The reader goroutine of `PeerConn.run` and the consumer of `localChan`. The reader parses every
datagram in one buffer; a parsed packet keeps referring to it. -/

namespace XbTunnel.Daemon.Reader

open Common Udp Lib.Channels Lib.Slices Lib.Runs

inductive Phase
  | reading
  | sending (p : SlicePacket)
  | returned
deriving DecidableEq

structure State where
  data : Bytes
  phase : Phase
  localChan : Chan SlicePacket
  arrived : List Bytes
  taken : List UdpPacket
deriving DecidableEq

def init : State := ⟨List.replicate 65535 0, .reading, .make 10, [], []⟩

inductive Action
  | read (d : Bytes)
  | readError
  | send
  | take
deriving DecidableEq

def step (s : State) : Action → Option State
  | .read d =>
    if s.phase = .reading ∧ d.length ≤ 65535 then
      let data := overwrite s.data d
      some { s with data, phase := .sending (parseRemote data d.length), arrived := s.arrived ++ [d] }
    else none
  | .readError => if s.phase = .reading then some { s with phase := .returned } else none
  | .send =>
    match s.phase with
    | .sending p => do
      let c ← s.localChan.send p
      some { s with phase := .reading, localChan := c }
    | _ => none
  | .take => do
    let (p, c) ← s.localChan.recv
    some { s with localChan := c, taken := s.taken ++ [p.view s.data] }

def expected (arrived : List Bytes) : List UdpPacket :=
  (arrived.filter fun d => 12 ≤ d.length).map parseRemoteUdpPacket

def InOrder (s : State) : Prop := s.taken <+: expected s.arrived

inductive Drains (s : State) : State → Prop
  | refl : Drains s s
  | send {t u} : Drains s t → step t .send = some u → Drains s u
  | take {t u} : Drains s t → step t .take = some u → Drains s u

/-- What has been taken is in order, and so is whatever can still be taken before the next datagram
arrives. -/
def KeepsOrder (s : State) : Prop := ∀ t, Drains s t → InOrder t

/-- The datagram is long enough to be a packet, and where it overlaps the payload of a queued
packet it repeats the bytes that are there. -/
def Harmless (s : State) : Action → Prop
  | .read d => 12 ≤ d.length ∧ ∀ p ∈ s.localChan.buf, p.view (overwrite s.data d) = p.view s.data
  | .readError | .send | .take => True

instance (s : State) : (a : Action) → Decidable (Harmless s a)
  | .read _ => inferInstanceAs (Decidable (_ ∧ _))
  | .readError | .send | .take => inferInstanceAs (Decidable True)

lemma step_read {s t : State} {d : Bytes} (h : step s (.read d) = some t) :
    s.phase = .reading ∧ d.length ≤ 65535 ∧
      t = { s with
        data := overwrite s.data d
        phase := .sending (parseRemote (overwrite s.data d) d.length)
        arrived := s.arrived ++ [d] } := by
  obtain ⟨⟨hp, hd⟩, ht⟩ := Option.ite_none_right_eq_some.mp h
  exact ⟨hp, hd, (Option.some.inj ht).symm⟩

lemma step_readError {s t : State} (h : step s .readError = some t) :
    s.phase = .reading ∧ t = { s with phase := .returned } := by
  obtain ⟨hp, ht⟩ := Option.ite_none_right_eq_some.mp h
  exact ⟨hp, (Option.some.inj ht).symm⟩

lemma step_send {s t : State} (h : step s .send = some t) :
    ∃ p, s.phase = .sending p ∧ t = { s with
      phase := .reading
      localChan := { s.localChan with buf := s.localChan.buf ++ [p] } } := by
  cases hp : s.phase with
  | reading => simp [step, hp] at h
  | returned => simp [step, hp] at h
  | sending p =>
    simp only [step, hp] at h
    obtain ⟨c, hc, ht⟩ := Option.bind_eq_some_iff.mp h
    obtain ⟨-, rfl⟩ := Chan.send_eq_some.mp hc
    exact ⟨p, rfl, (Option.some.inj ht).symm⟩

lemma step_take {s t : State} (h : step s .take = some t) :
    ∃ p rest, s.localChan.buf = p :: rest ∧ t = { s with
      localChan := { s.localChan with buf := rest }
      taken := s.taken ++ [p.view s.data] } := by
  obtain ⟨⟨p, c⟩, hc, ht⟩ := Option.bind_eq_some_iff.mp h
  obtain ⟨rest, hb, rfl⟩ := Chan.recv_eq_some.mp hc
  exact ⟨p, rest, hb, (Option.some.inj ht).symm⟩

def queued (s : State) : List SlicePacket :=
  s.localChan.buf ++ match s.phase with
    | .sending p => [p]
    | _ => []

def shown (s : State) : List UdpPacket := s.taken ++ (queued s).map fun p => p.view s.data

structure Inv (s : State) : Prop where
  data_length : s.data.length = 65535
  open_cap : s.localChan.closed = false ∧ s.localChan.cap = 10
  shown_eq : shown s = expected s.arrived

lemma expected_append (ds : List Bytes) (d : Bytes) :
    expected (ds ++ [d]) =
      expected ds ++ if 12 ≤ d.length then [parseRemoteUdpPacket d] else [] := by
  by_cases hd : 12 ≤ d.length <;> simp [expected, List.filter_append, hd]

lemma shown_send {s t : State} (h : step s .send = some t) :
    shown t = shown s ∧ t.arrived = s.arrived ∧ t.data = s.data := by
  obtain ⟨p, hp, rfl⟩ := step_send h
  simp [shown, queued, hp]

lemma shown_take {s t : State} (h : step s .take = some t) :
    shown t = shown s ∧ t.arrived = s.arrived ∧ t.data = s.data := by
  obtain ⟨p, rest, hb, rfl⟩ := step_take h
  simp [shown, queued, hb]

lemma shown_read {s t : State} {d : Bytes} (hi : Inv s) (h : step s (.read d) = some t) :
    shown t = s.taken ++ (s.localChan.buf.map fun p => p.view (overwrite s.data d)) ++
      [parseRemoteUdpPacket d] := by
  obtain ⟨-, hd, rfl⟩ := step_read h
  have hm : d.length ≤ s.data.length := hi.data_length ▸ hd
  have hv := parseRemote_view (overwrite s.data d) (hm.trans (overwrite_length hm).ge)
  rw [overwrite_take] at hv
  simp [shown, queued, hv]

lemma shown_reading {s : State} (hp : s.phase = .reading) :
    shown s = s.taken ++ s.localChan.buf.map fun p => p.view s.data := by
  simp [shown, queued, hp]

namespace Drains

variable {s t u : State}

lemma trans (h : Drains s t) (h' : Drains t u) : Drains s u := by
  induction h' with
  | refl => exact h
  | send _ hs ih => exact .send ih hs
  | take _ hs ih => exact .take ih hs

lemma shown_eq (h : Drains s t) : shown t = shown s ∧ t.arrived = s.arrived := by
  induction h with
  | refl => exact ⟨rfl, rfl⟩
  | send _ hs ih => exact ⟨(shown_send hs).1.trans ih.1, (shown_send hs).2.1.trans ih.2⟩
  | take _ hs ih => exact ⟨(shown_take hs).1.trans ih.1, (shown_take hs).2.1.trans ih.2⟩

lemma take_all (s : State) :
    Drains s { s with
      localChan := { s.localChan with buf := [] }
      taken := s.taken ++ s.localChan.buf.map fun p => p.view s.data } := by
  obtain ⟨data, phase, ⟨cap, buf, closed⟩, arrived, taken⟩ := s
  induction buf generalizing taken with
  | nil => simpa using refl
  | cons p buf ih =>
    have hs : step ⟨data, phase, ⟨cap, p :: buf, closed⟩, arrived, taken⟩ .take =
        some ⟨data, phase, ⟨cap, buf, closed⟩, arrived, taken ++ [p.view data]⟩ := rfl
    have h := (take refl hs).trans (ih (taken ++ [p.view data]))
    simpa using h

lemma take_shown (s : State) (hc : s.localChan.closed = false ∧ s.localChan.cap = 10) :
    ∃ t, Drains s t ∧ t.taken = shown s ∧ t.arrived = s.arrived := by
  have h := take_all s
  cases hp : s.phase with
  | reading => exact ⟨_, h, by simp [shown, queued, hp], rfl⟩
  | returned => exact ⟨_, h, by simp [shown, queued, hp], rfl⟩
  | sending p =>
    have hs : step { s with
          localChan := { s.localChan with buf := [] }
          taken := s.taken ++ s.localChan.buf.map fun p => p.view s.data } .send =
        some { s with
          phase := .reading
          localChan := { s.localChan with buf := [p] }
          taken := s.taken ++ s.localChan.buf.map fun p => p.view s.data } := by
      simp [step, hp, Chan.send, hc]
    exact ⟨_, (h.send hs).take rfl, by simp [shown, queued, hp], rfl⟩

end Drains

lemma Inv.keepsOrder {s : State} (h : Inv s) : KeepsOrder s := by
  intro t ht
  obtain ⟨hs, ha⟩ := ht.shown_eq
  rw [InOrder, ha, ← h.shown_eq, ← hs]
  exact List.prefix_append _ _

lemma inv_step {s t : State} {a : Action} (hi : Inv s) (h : step s a = some t)
    (ha : Harmless s a) : Inv t := by
  cases a with
  | read d =>
    have hs := shown_read hi h
    have he := hi.shown_eq
    obtain ⟨hp, hd, rfl⟩ := step_read h
    rw [shown_reading hp] at he
    have hv : (s.localChan.buf.map fun p => p.view (overwrite s.data d)) =
        s.localChan.buf.map fun p => p.view s.data := List.map_congr_left ha.2
    refine ⟨(overwrite_length (hi.data_length ▸ hd)).trans hi.data_length, hi.open_cap, ?_⟩
    rw [hs, hv, he, expected_append, if_pos ha.1]
  | readError =>
    obtain ⟨hp, rfl⟩ := step_readError h
    refine ⟨hi.data_length, hi.open_cap, ?_⟩
    have he := hi.shown_eq
    rw [shown_reading hp] at he
    simpa [shown, queued] using he
  | send =>
    obtain ⟨hs, ha, hd⟩ := shown_send h
    have hc : t.localChan.closed = s.localChan.closed ∧ t.localChan.cap = s.localChan.cap := by
      obtain ⟨p, -, rfl⟩ := step_send h
      exact ⟨rfl, rfl⟩
    exact ⟨hd ▸ hi.data_length, by rw [hc.1, hc.2]; exact hi.open_cap,
      by rw [hs, ha, hi.shown_eq]⟩
  | take =>
    obtain ⟨hs, ha, hd⟩ := shown_take h
    have hc : t.localChan.closed = s.localChan.closed ∧ t.localChan.cap = s.localChan.cap := by
      obtain ⟨p, rest, -, rfl⟩ := step_take h
      exact ⟨rfl, rfl⟩
    exact ⟨hd ▸ hi.data_length, by rw [hc.1, hc.2]; exact hi.open_cap,
      by rw [hs, ha, hi.shown_eq]⟩

lemma KeepsOrder.shown_prefix {s : State} (h : KeepsOrder s)
    (hc : s.localChan.closed = false ∧ s.localChan.cap = 10) : shown s <+: expected s.arrived := by
  obtain ⟨t, ht, htaken, harrived⟩ := Drains.take_shown s hc
  have ho := h t ht
  rwa [InOrder, htaken, harrived] at ho

lemma harm_breaks {s t : State} {a : Action} (hi : Inv s) (h : step s a = some t)
    (ha : ¬ Harmless s a) : ¬ KeepsOrder t := by
  cases a with
  | readError => exact (ha trivial).elim
  | send => exact (ha trivial).elim
  | take => exact (ha trivial).elim
  | read d =>
    intro hk
    have hs := shown_read hi h
    have he := hi.shown_eq
    obtain ⟨hp, -, rfl⟩ := step_read h
    have ho := hk.shown_prefix hi.open_cap
    rw [shown_reading hp] at he
    rw [hs, expected_append, ← he] at ho
    apply ha
    by_cases hd : 12 ≤ d.length
    · rw [if_pos hd] at ho
      have heq := ho.eq_of_length (by simp)
      have hmap := List.append_cancel_left (List.append_cancel_right heq)
      exact ⟨hd, List.map_inj_left.mp hmap⟩
    · rw [if_neg hd] at ho
      have hlen := ho.length_le
      simp at hlen

lemma init_inv : Inv init := ⟨List.length_replicate .., ⟨rfl, rfl⟩, rfl⟩

theorem keepsOrder_iff_harmless {tr : List (State × Action)} {u : State}
    (h : Run (Steps step) init tr u) : AllStates KeepsOrder tr u ↔ AllSteps Harmless tr :=
  h.all_states_iff Inv (fun _ hi => hi.keepsOrder) (fun _ _ _ hi hs ha => inv_step hi hs ha)
    (fun _ _ _ hi hs ha => harm_breaks hi hs ha) init_inv

def alternating : List Action :=
  [.read (1 :: List.replicate 12 0), .send, .take, .read (2 :: List.replicate 12 0), .send, .take]

theorem alternating_keepsOrder :
    ∃ tr u, tr.map Prod.snd = alternating ∧ Run (Steps step) init tr u ∧
      AllStates KeepsOrder tr u := by
  obtain ⟨tr, u, ha, hr, hs⟩ := follow_decide step Harmless init alternating rfl
  exact ⟨tr, u, ha, hr, (keepsOrder_iff_harmless hr).mpr hs⟩

def overwriting : List Action :=
  [.read (1 :: List.replicate 12 0), .send, .read (2 :: List.replicate 12 0), .send, .take]

theorem overwriting_out_of_order :
    ∃ u, exec step init overwriting = some u ∧ ¬ InOrder u := by
  have h : (exec step init overwriting).map (fun s => (s.taken, s.arrived)) =
      some ([⟨[2], newXbox [], newXbox []⟩],
        [1 :: List.replicate 12 0, 2 :: List.replicate 12 0]) := rfl
  obtain ⟨u, hu, hs⟩ := Option.map_eq_some_iff.mp h
  obtain ⟨ht, ha⟩ := Prod.mk.inj hs
  refine ⟨u, hu, ?_⟩
  rw [InOrder, ht, ha]
  decide

end XbTunnel.Daemon.Reader
