import XbTunnel.Daemon.Remote
import XbTunnel.Lib.Runs

/-! `StateManager.run`: one event at a time, each handled by a change of the local variables and a
sequence of channel operations. Here the operations are only listed; `Network` performs them. -/

namespace XbTunnel.Daemon.StateManager

open Common Udp Remote Lib.Maps Lib.Runs

structure State where
  peerConnMap : PeerConnMap
  xboxPeerMap : XboxPeerMap
  localState : LocalState
deriving DecidableEq

def init : State := ⟨∅, ∅, LocalState.zero⟩

inductive Event
  | localState (ls : LocalState)
  | pcSignal (pcSignal : PcSignal)
  | remote (packet : UdpPacket)
  | newPeerConn (newPc : PcRef)
  | removePeer (pid : PeerId)
  | newXbox (newXbox : Xbox)
deriving DecidableEq

structure Orders where
  first : PcOrder
  second : PcOrder
deriving DecidableEq

def Orders.Valid (o : Orders) (m : PeerConnMap) : Prop := Iterates m o.first ∧ Iterates m o.second

instance (o : Orders) (m : PeerConnMap) : Decidable (o.Valid m) :=
  inferInstanceAs (Decidable (_ ∧ _))

def setPeerConnected (peers : List Peer) (peerId : PeerId) (connected : Bool) : List Peer :=
  match peers with
  | [] => []
  | p :: ps =>
    if p.id = peerId then { p with connected } :: ps
    else p :: setPeerConnected ps peerId connected

def updateXboxPeerMap (peers : Option (List Peer)) : XboxPeerMap :=
  (peers.getD []).foldl (fun m p => p.xboxes.foldl (fun m x => m.insert x p.id) m) ∅

def handle (s : State) (e : Event) (o : Orders) : State × List Op :=
  match e with
  | .localState ls =>
    let s := { s with
      localState := { s.localState with userId := ls.userId, curRoomId := ls.curRoomId } }
    ({ s with xboxPeerMap := updateXboxPeerMap s.localState.peers },
      resolvePeerConns s.localState.userId s.peerConnMap s.localState.peers o.first o.second)
  | .pcSignal pcSignal =>
    (s, match s.peerConnMap.lookup pcSignal.toId with
      | some peer => [.sendRead peer pcSignal.payload]
      | none => [])
  | .remote packet =>
    (s, if packet.dst.isBroadcast then o.first.map fun e => .sendOut e.2 packet
      else match s.xboxPeerMap.lookup packet.dst with
        | some peerId => match s.peerConnMap.lookup peerId with
          | some peer => [.sendOut peer packet]
          | none => []
        | none => [])
  | .newPeerConn newPc =>
    ({ s with
      peerConnMap := s.peerConnMap.insert newPc.peerId newPc
      localState := { s.localState with
        peers := s.localState.peers.map fun ps => setPeerConnected ps newPc.peerId true } }, [])
  | .removePeer pid => ({ s with peerConnMap := s.peerConnMap.erase pid }, [])
  | .newXbox newXbox =>
    ({ s with localState := { s.localState with
      xboxes := s.localState.xboxes ++ [newXbox] } }, [])

def sendUpdate : Event → Bool
  | .pcSignal _ => false
  | _ => true

def turn (s : State) (e : Event) (o : Orders) : State × List Op :=
  let (s', ops) := handle s e o
  (s', ops ++ if sendUpdate e then [.sendServer .localState] else [])

def cleanup (o : Orders) : List Op :=
  (o.first.map fun e => .sendKill e.2) ++ (o.second.map fun e => .recvDead e.2) ++ [.sendDead]

structure Tracked where
  sm : State
  last : Option LocalState
deriving DecidableEq

def Tracked.init : Tracked := ⟨StateManager.init, none⟩

def step (s : Tracked) (a : Event × Orders) : Option Tracked :=
  if a.2.Valid s.sm.peerConnMap then
    some ⟨(turn s.sm a.1 a.2).1, match a.1 with
      | .localState ls => some ls
      | _ => s.last⟩
  else none

def ops (s : Tracked) (a : Event × Orders) : List Op := (turn s.sm a.1 a.2).2

lemma step_eq {s t : Tracked} {a : Event × Orders} (h : step s a = some t) :
    a.2.Valid s.sm.peerConnMap ∧ t.sm = (turn s.sm a.1 a.2).1 := by
  obtain ⟨hv, ht⟩ := Option.ite_none_right_eq_some.mp h
  obtain rfl := Option.some.inj ht
  exact ⟨hv, rfl⟩

structure Inv (s : State) : Prop where
  filed : ∀ pid pc, s.peerConnMap.lookup pid = some pc → pc.peerId = pid
  peers : s.localState.peers = none
  xboxPeerMap : s.xboxPeerMap = ∅

lemma init_inv : Inv init := ⟨by simp [init], rfl, rfl⟩

lemma handle_inv {s : State} (h : Inv s) (e : Event) (o : Orders) : Inv (handle s e o).1 := by
  cases e with
  | localState ls =>
    refine ⟨h.filed, h.peers, ?_⟩
    simp [handle, h.peers, updateXboxPeerMap]
  | pcSignal pcSignal => exact h
  | remote packet => exact h
  | newPeerConn newPc =>
    refine ⟨?_, by simp [handle, h.peers], h.xboxPeerMap⟩
    intro pid pc hl
    by_cases hp : pid = newPc.peerId
    · subst hp
      simp only [handle, Finmap.lookup_insert, Option.some.injEq] at hl
      rw [← hl]
    · simp only [handle] at hl
      rw [Finmap.lookup_insert_of_ne _ hp] at hl
      exact h.filed pid pc hl
  | removePeer pid =>
    refine ⟨?_, h.peers, h.xboxPeerMap⟩
    intro pid' pc hl
    by_cases hp : pid' = pid
    · subst hp
      simp [handle] at hl
    · simp only [handle] at hl
      rw [Finmap.lookup_erase_ne hp] at hl
      exact h.filed pid' pc hl
  | newXbox newXbox => exact ⟨h.filed, h.peers, h.xboxPeerMap⟩

lemma step_inv {s t : Tracked} {a : Event × Orders} (h : Inv s.sm) (hs : step s a = some t) :
    Inv t.sm := by
  rw [(step_eq hs).2]
  exact handle_inv h _ _

section Samples

def friendOnly : Orders := ⟨[⟨friend, friendConn⟩], [⟨friend, friendConn⟩]⟩

end Samples

end XbTunnel.Daemon.StateManager
