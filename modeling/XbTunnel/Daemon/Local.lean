import XbTunnel.Daemon.PeerConn

/-! `LocalManager.run` and its `runpcap` goroutines. -/

namespace XbTunnel.Daemon

open Common Udp Lib.Channels Lib.Maps

abbrev HandleId := ℕ

structure XboxHandle where
  x : Xbox
  h : HandleId
deriving DecidableEq

namespace LocalManager

inductive RunPhase
  | selecting
  | announcing (x : Xbox)
  | stopping (children : ℕ)
  | returned
deriving DecidableEq

inductive PcapPhase
  | polling
  -- in `Next`
  | capturing
  | registering (packet : UdpPacket)
  | forwarding (packet : UdpPacket)
  | returned
deriving DecidableEq

end LocalManager

structure LocalManager where
  handles : ℕ
  out : Chan UdpPacket
  xboxes : Chan XboxHandle
  kill : Chan Unit
  killChildren : Chan Unit
  dead : Chan Unit
  xboxHandleMap : Map Xbox HandleId
  injected : List (HandleId × Bytes)
  run : LocalManager.RunPhase
  pcap : HandleId → LocalManager.PcapPhase

def newLocalManager (handles : ℕ) : LocalManager where
  handles
  out := .make 5
  xboxes := .make 5
  kill := .make 1
  killChildren := .make 10
  dead := .make 1
  xboxHandleMap := ∅
  injected := []
  run := .selecting
  pcap i := if i < handles then .polling else .returned

namespace LocalManager

inductive Action
  | recvOut (order : List (Σ _ : Xbox, HandleId))
  | recvXbox
  | sendNewXbox
  | recvKill
  | stopChild
  | sendDead
  | recvStop (i : HandleId)
  | poll (i : HandleId)
  | capture (i : HandleId) (pkt : PcapPacket)
  | miss (i : HandleId)
  | sendXbox (i : HandleId)
  | forward (i : HandleId)

def targets (m : Map Xbox HandleId) (pkt : UdpPacket) (order : List (Σ _ : Xbox, HandleId)) :
    List HandleId :=
  if pkt.dst.isBroadcast then order.map Sigma.snd else (m.lookup pkt.dst).toList

def setPcap (lm : LocalManager) (i : HandleId) (phase : PcapPhase) : LocalManager :=
  { lm with pcap := Function.update lm.pcap i phase }

/-- What `AsTransmittablePcap` gives, or nil: its error is dropped. -/
def transmitted (pkt : UdpPacket) : Bytes :=
  (pkt.asTransmittablePcap [0x00, 0x00]).toOption.getD []

def step (ch : Shared) (lm : LocalManager) : Action → Option (Shared × LocalManager)
  | .recvOut order =>
    if lm.run = .selecting ∧ Iterates lm.xboxHandleMap order then do
      let (pkt, out) ← lm.out.recv
      some (ch, { lm with
        out
        injected := lm.injected ++
          (targets lm.xboxHandleMap pkt order).map fun h => (h, transmitted pkt) })
    else none
  | .recvXbox =>
    if lm.run = .selecting then do
      let (xh, xboxes) ← lm.xboxes.recv
      some (ch, { lm with
        xboxes
        xboxHandleMap :=
          if xh.x ∈ lm.xboxHandleMap then lm.xboxHandleMap else lm.xboxHandleMap.insert xh.x xh.h
        run := .announcing xh.x })
    else none
  | .sendNewXbox =>
    match lm.run with
    | .announcing x => do
      let newXboxChan ← ch.newXboxChan.send x
      some ({ ch with newXboxChan }, { lm with run := .selecting })
    | _ => none
  | .recvKill =>
    if lm.run = .selecting then do
      let kill ← lm.kill.drop
      some (ch, { lm with kill, run := .stopping lm.handles })
    else none
  | .stopChild =>
    match lm.run with
    | .stopping (children + 1) => do
      let killChildren ← lm.killChildren.send ()
      some (ch, { lm with killChildren, run := .stopping children })
    | _ => none
  | .sendDead =>
    match lm.run with
    | .stopping 0 => do
      let dead ← lm.dead.send ()
      some (ch, { lm with dead, run := .returned })
    | _ => none
  | .recvStop i =>
    if lm.pcap i = .polling then do
      let killChildren ← lm.killChildren.drop
      some (ch, { lm with killChildren }.setPcap i .returned)
    else none
  | .poll i =>
    -- the default branch is taken only if no kill is waiting
    if lm.pcap i = .polling ∧ lm.killChildren.drop.isNone then some (ch, lm.setPcap i .capturing)
    else none
  | .capture i pkt =>
    if lm.pcap i = .capturing then do
      let packet ← parsePcapPacket pkt
      some (ch, lm.setPcap i
        (if packet.dst.isBroadcast then .registering packet else .forwarding packet))
    else none
  | .miss i => if lm.pcap i = .capturing then some (ch, lm.setPcap i .polling) else none
  | .sendXbox i =>
    match lm.pcap i with
    | .registering packet => do
      let xboxes ← lm.xboxes.send ⟨packet.dst, i⟩
      some (ch, { lm with xboxes }.setPcap i (.forwarding packet))
    | _ => none
  | .forward i =>
    match lm.pcap i with
    | .forwarding packet => do
      let remoteChan ← ch.remoteChan.send packet
      some ({ ch with remoteChan }, lm.setPcap i .polling)
    | _ => none

variable {ch ch' : Shared} {lm lm' : LocalManager} {a : Action}

@[simp] lemma setPcap_self (lm : LocalManager) (i : HandleId) (phase : PcapPhase) :
    (lm.setPcap i phase).pcap i = phase :=
  Function.update_self ..

lemma setPcap_of_ne {i j : HandleId} (h : j ≠ i) (lm : LocalManager) (phase : PcapPhase) :
    (lm.setPcap i phase).pcap j = lm.pcap j :=
  Function.update_of_ne h ..

inductive Effect (ch : Shared) (lm : LocalManager) : Action → Shared → LocalManager → Prop
  | recvOut {order pkt out} : lm.run = .selecting → Iterates lm.xboxHandleMap order →
      lm.out.recv = some (pkt, out) →
      Effect ch lm (.recvOut order) ch { lm with
        out
        injected := lm.injected ++
          (targets lm.xboxHandleMap pkt order).map fun h => (h, transmitted pkt) }
  | recvXbox {xh xboxes} : lm.run = .selecting → lm.xboxes.recv = some (xh, xboxes) →
      Effect ch lm .recvXbox ch { lm with
        xboxes
        xboxHandleMap :=
          if xh.x ∈ lm.xboxHandleMap then lm.xboxHandleMap else lm.xboxHandleMap.insert xh.x xh.h
        run := .announcing xh.x }
  | sendNewXbox {x newXboxChan} : lm.run = .announcing x →
      ch.newXboxChan.send x = some newXboxChan →
      Effect ch lm .sendNewXbox { ch with newXboxChan } { lm with run := .selecting }
  | recvKill {kill} : lm.run = .selecting → lm.kill.drop = some kill →
      Effect ch lm .recvKill ch { lm with kill, run := .stopping lm.handles }
  | stopChild {children killChildren} : lm.run = .stopping (children + 1) →
      lm.killChildren.send () = some killChildren →
      Effect ch lm .stopChild ch { lm with killChildren, run := .stopping children }
  | sendDead {dead} : lm.run = .stopping 0 → lm.dead.send () = some dead →
      Effect ch lm .sendDead ch { lm with dead, run := .returned }
  | recvStop {i killChildren} : lm.pcap i = .polling → lm.killChildren.drop = some killChildren →
      Effect ch lm (.recvStop i) ch ({ lm with killChildren }.setPcap i .returned)
  | poll {i} : lm.pcap i = .polling → lm.killChildren.drop = none →
      Effect ch lm (.poll i) ch (lm.setPcap i .capturing)
  | capture {i pkt packet} : lm.pcap i = .capturing → parsePcapPacket pkt = some packet →
      Effect ch lm (.capture i pkt) ch
        (lm.setPcap i (if packet.dst.isBroadcast then .registering packet else .forwarding packet))
  | miss {i} : lm.pcap i = .capturing → Effect ch lm (.miss i) ch (lm.setPcap i .polling)
  | sendXbox {i packet xboxes} : lm.pcap i = .registering packet →
      lm.xboxes.send ⟨packet.dst, i⟩ = some xboxes →
      Effect ch lm (.sendXbox i) ch ({ lm with xboxes }.setPcap i (.forwarding packet))
  | forward {i packet remoteChan} : lm.pcap i = .forwarding packet →
      ch.remoteChan.send packet = some remoteChan →
      Effect ch lm (.forward i) { ch with remoteChan } (lm.setPcap i .polling)

lemma step_effect (h : lm.step ch a = some (ch', lm')) : Effect ch lm a ch' lm' := by
  cases a with
  | recvOut order =>
    obtain ⟨⟨hr, ho⟩, h⟩ := Option.ite_none_right_eq_some.mp h
    obtain ⟨_, hs, h⟩ := Option.bind_eq_some_iff.mp h
    cases h
    exact .recvOut hr ho hs
  | recvXbox | recvKill | recvStop | capture =>
    obtain ⟨hr, h⟩ := Option.ite_none_right_eq_some.mp h
    obtain ⟨_, hs, h⟩ := Option.bind_eq_some_iff.mp h
    cases h
    constructor
    · exact hr
    · exact hs
  | poll i =>
    obtain ⟨⟨hr, hk⟩, h⟩ := Option.ite_none_right_eq_some.mp h
    cases h
    exact .poll hr (Option.isNone_iff_eq_none.mp hk)
  | miss i =>
    obtain ⟨hr, h⟩ := Option.ite_none_right_eq_some.mp h
    cases h
    exact .miss hr
  | sendNewXbox | stopChild | sendDead | sendXbox | forward =>
    simp only [step] at h
    split at h
    · rename_i hr
      obtain ⟨_, hs, h⟩ := Option.bind_eq_some_iff.mp h
      cases h
      constructor
      · exact hr
      · exact hs
    · cases h

lemma effect_serverChan (h : Effect ch lm a ch' lm') : ch'.serverChan = ch.serverChan := by
  cases h <;> rfl

end LocalManager

end XbTunnel.Daemon
