import XbTunnel.Daemon.Udp
import XbTunnel.Lib.Maps

/-! Connections to peers as the state manager handles them: it looks them up, and acts on them only
through channel operations. -/

namespace XbTunnel.Daemon.Remote

open Common Udp Lib.Maps

/-- A `*PeerConn`: its address and the field `peerId`, which never changes. -/
structure PcRef where
  addr : ℕ
  peerId : PeerId
deriving DecidableEq

abbrev PeerConnMap := Map PeerId PcRef
abbrev XboxPeerMap := Map Xbox PeerId

/-- A request on `serverChan`. Those of the state manager hold the pointer to its one
`localState`. -/
inductive QueuedReq
  | localState
  | own (req : ServerReq)
deriving DecidableEq

def QueuedReq.read (localState : LocalState) : QueuedReq → ServerReq
  | .localState => { localState := some localState }
  | .own req => req

inductive Op
  | recvKill (pc : PcRef)
  | sendKill (pc : PcRef)
  | dial (peerId : PeerId) (initiator : Bool)
  | sendRead (pc : PcRef) (payload : Bytes)
  | sendOut (pc : PcRef) (packet : UdpPacket)
  | sendServer (req : QueuedReq)
  | recvDead (pc : PcRef)
  | sendDead
deriving DecidableEq

structure ShimConn where
  toId : PeerId
deriving DecidableEq

def newShimConn (toId : PeerId) : ShimConn := ⟨toId⟩

def ShimConn.write (sc : ShimConn) (bytes : Bytes) : ServerReq :=
  { pcSignal := some ⟨emptyPeerId, sc.toId, bytes⟩ }

abbrev PcOrder := List (Σ _ : PeerId, PcRef)

def hasId (peerList : List Peer) (pid : PeerId) : Bool := peerList.any fun p => p.id = pid

def dialPeerConnection (peerId : PeerId) : Op := .dial peerId true

def receivePeerConnection (peerId : PeerId) : Op := .dial peerId false

def resolvePeerConns (myUserId : PeerId) (peerConns : PeerConnMap) (peerList : Option (List Peer))
    (order₁ order₂ : PcOrder) : List Op :=
  (if peerList = none then order₁.map fun e => .recvKill e.2 else []) ++
  ((peerList.getD []).flatMap fun peer =>
    if peer.id ∈ peerConns then
      if peer.id < myUserId then [dialPeerConnection peer.id] else [receivePeerConnection peer.id]
    else []) ++
  order₂.flatMap fun e => if hasId (peerList.getD []) e.1 then [] else [.sendKill e.2]

section Samples

def friend : PeerId := ⟨[7]⟩

def friendConn : PcRef := ⟨0, friend⟩

end Samples

end XbTunnel.Daemon.Remote
