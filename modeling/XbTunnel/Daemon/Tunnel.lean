import XbTunnel.Daemon.Inward

/-! Two daemons with a connection to each other: the packets that one captures and the packets that
reach the other. The network between them may lose datagrams. -/

namespace XbTunnel.Daemon.Tunnel

open Common Udp Remote Network Lib.Flows Lib.Runs

structure State where
  near : World
  far : World
  wire : List Bytes

def start (nearHandles farHandles : ℕ) : State := ⟨init nearHandles, init farHandles, []⟩

inductive Action
  | near (a : Network.Action)
  | far (a : Network.Action)
  | lose (i : ℕ)

def reads (addr : ℕ) : Network.Action → Option Bytes
  | .pc addr' (.read data) => if addr' = addr then some data else none
  | _ => none

variable (nearToken farToken : Token) (nearConn farConn : ℕ)

def step (s : State) : Action → Option State
  | .near a => do
    let near ← Network.step nearToken s.near a
    some { s with near, wire := s.wire ++ Traffic.datagrams nearConn s.near a }
  | .far a => do
    let far ← Network.step farToken s.far a
    match reads farConn a with
    | some data => if data ∈ s.wire.head? then some { s with far, wire := s.wire.tail } else none
    | none => some { s with far }
  | .lose i => some { s with wire := s.wire.eraseIdx i }

def Action.near? : Action → Option Network.Action
  | .near a => some a
  | .far _ | .lose _ => none

def Action.far? : Action → Option Network.Action
  | .far a => some a
  | .near _ | .lose _ => none

def captured (s : State) : Action → List UdpPacket
  | .near a => (Traffic.forwards s.near a).filter Traffic.isBroadcast
  | _ => []

def sent (s : State) : Action → List Bytes
  | .near a => Traffic.datagrams nearConn s.near a
  | _ => []

def received (_ : State) : Action → List Bytes
  | .far a => (reads farConn a).toList
  | _ => []

def delivered (s : State) : Action → List UdpPacket
  | .far a => Inward.handed farConn s.far a
  | _ => []

def wire : Stage State Action Bytes := ⟨sent nearConn, State.wire, received farConn⟩

def sender : Stage State Action UdpPacket :=
  (Traffic.uplink nearConn).within State.near Action.near?

def receiver : Stage State Action UdpPacket :=
  (Inward.reading farConn).within State.far Action.far?

def tunnel : Stage State Action UdpPacket :=
  ((((sender nearConn).map UdpPacket.asUdpData).comp (wire nearConn farConn)).map
    parseRemoteUdpPacket).comp (receiver farConn)

structure Inv (s : State) : Prop where
  near : Traffic.Inv s.near
  far : Inward.Inv s.far

variable {nearToken farToken nearConn farConn} {s t : State} {a : Action}

inductive Effect (nearToken farToken : Token) (nearConn farConn : ℕ) (s : State) :
    Action → State → Prop
  | near {a near} : Network.step nearToken s.near a = some near →
      Effect nearToken farToken nearConn farConn s (.near a)
        { s with near, wire := s.wire ++ Traffic.datagrams nearConn s.near a }
  | read {a far data rest} : Network.step farToken s.far a = some far →
      reads farConn a = some data → s.wire = data :: rest →
      Effect nearToken farToken nearConn farConn s (.far a) { s with far, wire := rest }
  | far {a far} : Network.step farToken s.far a = some far → reads farConn a = none →
      Effect nearToken farToken nearConn farConn s (.far a) { s with far }
  | lose {i} : Effect nearToken farToken nearConn farConn s (.lose i)
      { s with wire := s.wire.eraseIdx i }

lemma step_effect (h : step nearToken farToken nearConn farConn s a = some t) :
    Effect nearToken farToken nearConn farConn s a t := by
  cases a with
  | near a =>
    obtain ⟨near, hn, h⟩ := Option.bind_eq_some_iff.mp h
    cases h
    exact .near hn
  | far a =>
    obtain ⟨far, hf, h⟩ := Option.bind_eq_some_iff.mp h
    split at h
    · rename_i data hd
      obtain ⟨hw, h⟩ := Option.ite_none_right_eq_some.mp h
      obtain ⟨rest, hw⟩ := List.head?_eq_some_iff.mp hw
      cases h
      rw [hw, List.tail_cons]
      exact .read hf hd hw
    · rename_i hd
      cases h
      exact .far hf hd
  | lose i =>
    cases h
    exact .lose

lemma Inv.step (hi : Inv s) (h : step nearToken farToken nearConn farConn s a = some t) :
    Inv t := by
  cases step_effect h with
  | near hn => exact ⟨hi.near.step hn, hi.far⟩
  | read hf | far hf => exact ⟨hi.near, hi.far.step hf⟩
  | lose => exact ⟨hi.near, hi.far⟩

section Stages

variable (nearToken farToken nearConn farConn)

lemma sender_keeps :
    (sender nearConn).Keeps (Steps (step nearToken farToken nearConn farConn)) Inv := by
  refine (Traffic.uplink_keeps nearToken nearConn).within (fun s hs => hs.near) ?_ ?_
  · intro s a t b h ha
    cases step_effect h with
    | near hn =>
      obtain rfl := Option.some.inj ha
      exact hn
    | _ => cases ha
  · intro s a t h ha
    cases step_effect h with
    | near => cases ha
    | _ => rfl

lemma receiver_keeps :
    (receiver farConn).Keeps (Steps (step nearToken farToken nearConn farConn)) Inv := by
  refine (Inward.reading_conserves farToken farConn).keeps.within (fun s hs => hs.far) ?_ ?_
  · intro s a t b h ha
    cases step_effect h with
    | read hf | far hf =>
      obtain rfl := Option.some.inj ha
      exact hf
    | _ => cases ha
  · intro s a t h ha
    cases step_effect h with
    | read | far => cases ha
    | _ => rfl

lemma wire_keeps :
    (wire nearConn farConn).Keeps (Steps (step nearToken farToken nearConn farConn)) Inv := by
  intro s a t _ h
  cases step_effect h with
  | near => exact .refl _
  | read _ hr hw => simp [wire, sent, received, hr, hw]
  | far _ hr => simp [wire, sent, received, hr]
  | lose => simpa [wire, sent, received] using List.eraseIdx_sublist _ _

lemma arrived_eq (s : State) (a : Action) :
    (receiver farConn).inflow s a = (received farConn s a).map parseRemoteUdpPacket := by
  cases a with
  | far a =>
    cases a with
    | pc addr b =>
      cases b with
      | read data =>
        by_cases ha : addr = farConn <;>
          simp [receiver, Stage.within, Action.far?, Inward.reading, Inward.arrived,
            Inward.datagrams, PeerConn.datagrams, received, reads, ha]
      | _ =>
        simp [receiver, Stage.within, Action.far?, Inward.reading, Inward.arrived, Inward.datagrams,
          PeerConn.datagrams, received, reads]
    | _ => rfl
  | _ => rfl

lemma tunnel_keeps :
    (tunnel nearConn farConn).Keeps (Steps (step nearToken farToken nearConn farConn)) Inv := by
  have hsent : ∀ s a, (wire nearConn farConn).inflow s a =
      ((sender nearConn).map UdpPacket.asUdpData).outflow s a := by
    intro s a
    cases a <;> rfl
  have hwire := ((sender_keeps nearToken farToken nearConn farConn).map UdpPacket.asUdpData).comp
    (wire_keeps nearToken farToken nearConn farConn) hsent
  exact (hwire.map parseRemoteUdpPacket).comp (receiver_keeps nearToken farToken nearConn farConn)
    fun s a => arrived_eq farConn s a

end Stages

theorem delivered_in_order {nearHandles farHandles : ℕ} {tr : List (State × Action)} {u : State}
    (h : Run (Steps (step nearToken farToken nearConn farConn)) (start nearHandles farHandles) tr u) :
    (total (delivered farConn) tr).Sublist (total captured tr) := by
  have hin : (tunnel nearConn farConn).inflow = captured := by
    funext s a
    cases a with
    | near a =>
      have hp : parseRemoteUdpPacket ∘ UdpPacket.asUdpData = id := funext UdpPacket.parse_asUdpData
      have hm : ∀ ps : List UdpPacket, (ps.map UdpPacket.asUdpData).map parseRemoteUdpPacket = ps :=
        fun ps => by rw [List.map_map, hp, List.map_id]
      exact hm _
    | _ => rfl
  have hout : (tunnel nearConn farConn).outflow = delivered farConn := by
    funext s a
    cases a <;> rfl
  have hrun := (tunnel_keeps nearToken farToken nearConn farConn).run
    (fun _ _ _ hi he => hi.step he) h ⟨Traffic.inv_init _, Inward.inv_init _⟩
  rw [hin, hout] at hrun
  exact (List.sublist_append_left _ _).trans hrun

section Samples

def helloArrives : List Action :=
  Traffic.helloToFriend.map .near ++ [.far (.openConn friend false), .far (.startRun 0),
    .far (.pc 0 .connect), .far (.pc 0 (.read Traffic.helloPacket.asUdpData)),
    .far (.pc 0 .sendLocal)]

theorem helloArrives_in_order : ∃ tr u, tr.map Prod.snd = helloArrives ∧
    Run (Steps (step sampleToken sampleToken 0 0)) (start 1 1) tr u ∧
    u.far.ch.localChan.buf.map (fun entry => entry.packet.view (u.far.pcs entry.addr).data) =
      [Traffic.helloPacket] ∧
    (total (delivered 0) tr).Sublist (total captured tr) := by
  have hend : (exec (step sampleToken sampleToken 0 0) (start 1 1) helloArrives).any
      (fun u => decide (u.far.ch.localChan.buf.map
        (fun entry => entry.packet.view (u.far.pcs entry.addr).data) =
          [Traffic.helloPacket])) = true := rfl
  obtain ⟨tr, u, ha, hr, hd⟩ := exec_any _ hend
  exact ⟨tr, u, ha, hr, of_decide_eq_true hd, delivered_in_order hr⟩

end Samples

end XbTunnel.Daemon.Tunnel
