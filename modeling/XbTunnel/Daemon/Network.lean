import XbTunnel.Daemon.Client
import XbTunnel.Daemon.Local
import XbTunnel.Daemon.StateManager

/-! The daemon: all its goroutines, which take steps in any order. -/

namespace XbTunnel.Daemon.Network

open Common Udp Remote StateManager Lib.Channels Lib.Runs

inductive LoopPhase
  | looping
  | unwinding
deriving DecidableEq

inductive ReconnectPhase
  | selecting
  -- in `newClient`, which looks the server's name up
  | resolving
  | running (client : ℕ)
  | sleeping
  | returned
deriving DecidableEq

inductive MainPhase
  | waiting
  | killReconnect
  | killStateManager
  | killLocalManager
  | killClient
  | polling (deadcount : ℕ)
deriving DecidableEq

/-- `ops` is what the state manager still has to do before its next select. -/
structure World where
  ch : Shared
  sm : StateManager.State
  ops : List Op
  loop : LoopPhase
  smKill : Chan Unit
  smDead : Chan Unit
  pcs : ℕ → PeerConn
  nextPc : ℕ
  lm : LocalManager
  clients : ℕ → Client
  nextClient : ℕ
  reconnect : ReconnectPhase
  kill : Chan Unit
  dead : Chan Unit
  main : MainPhase

def init (handles : ℕ) : World where
  ch := .init
  sm := StateManager.init
  ops := []
  loop := .looping
  smKill := .make 1
  smDead := .make 1
  pcs addr := .new addr emptyPeerId .notStarted
  nextPc := 0
  lm := newLocalManager handles
  clients _ := newClient
  nextClient := 0
  reconnect := .selecting
  kill := .make 1
  dead := .make 1
  main := .waiting

def setPc (addr : ℕ) (pc : PeerConn) (w : World) : World :=
  { w with pcs := Function.update w.pcs addr pc }

def setClient (k : ℕ) (c : Client) (w : World) : World :=
  { w with clients := Function.update w.clients k c }

def dial (peerId : PeerId) (initiator : Bool) (w : World) : Option World := do
  let newPeerConnChan ← w.ch.newPeerConnChan.send ⟨w.nextPc, peerId⟩
  some (setPc w.nextPc (.new w.nextPc peerId (.connecting initiator))
    { w with ch := { w.ch with newPeerConnChan }, nextPc := w.nextPc + 1 })

def doOp (w : World) : Op → Option World
  | .recvKill pc => do
    let kill ← (w.pcs pc.addr).kill.drop
    some (setPc pc.addr { w.pcs pc.addr with kill } w)
  | .sendKill pc => do
    let kill ← (w.pcs pc.addr).kill.send ()
    some (setPc pc.addr { w.pcs pc.addr with kill } w)
  | .dial peerId initiator => dial peerId initiator w
  | .sendRead pc _ =>
    -- `readChan` is unbuffered, so a call of `Read` must be waiting
    if (w.pcs pc.addr).reads = 0 then none
    else some (setPc pc.addr { w.pcs pc.addr with reads := (w.pcs pc.addr).reads - 1 } w)
  | .sendOut pc packet => do
    let out ← (w.pcs pc.addr).out.send packet
    some (setPc pc.addr { w.pcs pc.addr with out } w)
  | .sendServer req => do
    let serverChan ← w.ch.serverChan.send req
    some { w with ch := { w.ch with serverChan } }
  | .recvDead pc => do
    let dead ← (w.pcs pc.addr).dead.drop
    some (setPc pc.addr { w.pcs pc.addr with dead } w)
  | .sendDead => do
    let smDead ← w.smDead.send ()
    some { w with smDead }

def recvEvent (ch : Shared) : Event → Option Shared
  | .localState ls => do
    let (x, localStateChan) ← ch.localStateChan.recv
    if x = ls then some { ch with localStateChan } else none
  | .pcSignal pcSignal => do
    let (x, pcSignalChan) ← ch.pcSignalChan.recv
    if x = pcSignal then some { ch with pcSignalChan } else none
  | .remote packet => do
    let (x, remoteChan) ← ch.remoteChan.recv
    if x = packet then some { ch with remoteChan } else none
  | .newPeerConn newPc => do
    let (x, newPeerConnChan) ← ch.newPeerConnChan.recv
    if x = newPc then some { ch with newPeerConnChan } else none
  | .removePeer pid => do
    let (x, removePeerChan) ← ch.removePeerChan.recv
    if x = pid then some { ch with removePeerChan } else none
  | .newXbox newXbox => do
    let (x, newXboxChan) ← ch.newXboxChan.recv
    if x = newXbox then some { ch with newXboxChan } else none

inductive MainAction
  | interrupt
  | kill
  | recvSmDead
  | recvLmDead
  | recvDead

def mainStep (w : World) : MainAction → Option World
  | .interrupt => if w.main = .waiting then some { w with main := .killReconnect } else none
  | .kill =>
    match w.main with
    | .killReconnect => do
      let kill ← w.kill.send ()
      some { w with kill, main := .killStateManager }
    | .killStateManager => do
      let smKill ← w.smKill.send ()
      some { w with smKill, main := .killLocalManager }
    | .killLocalManager => do
      let kill ← w.lm.kill.send ()
      some { w with lm := { w.lm with kill }, main := .killClient }
    | .killClient =>
      if w.nextClient = 0 then none
      else do
        -- the variable `client` holds the last one made
        let k := w.nextClient - 1
        let kill ← (w.clients k).kill.send ()
        some { setClient k { w.clients k with kill } w with main := .polling 3 }
    | .waiting | .polling _ => none
  | .recvSmDead =>
    match w.main with
    | .polling (deadcount + 1) => do
      let smDead ← w.smDead.drop
      some { w with smDead, main := .polling deadcount }
    | _ => none
  | .recvLmDead =>
    match w.main with
    | .polling (deadcount + 1) => do
      let dead ← w.lm.dead.drop
      some { w with lm := { w.lm with dead }, main := .polling deadcount }
    | _ => none
  | .recvDead =>
    match w.main with
    | .polling (deadcount + 1) => do
      let dead ← w.dead.drop
      some { w with dead, main := .polling deadcount }
    | _ => none

inductive ReconnectAction
  | recvKill
  | resolve
  | failResolve
  | newClient
  | runReturned
  | wake
deriving DecidableEq

def reconnectStep (w : World) : ReconnectAction → Option World
  | .recvKill =>
    if w.reconnect = .selecting then do
      let kill ← w.kill.drop
      let dead ← w.dead.send ()
      some { w with kill, dead, reconnect := .returned }
    else none
  | .resolve =>
    -- the default branch is taken only if no kill is waiting
    if w.reconnect = .selecting ∧ w.kill.drop.isNone then some { w with reconnect := .resolving }
    else none
  -- `run` is called on a nil client, which panics
  | .failResolve => none
  | .newClient =>
    if w.reconnect = .resolving then
      some { setClient w.nextClient Daemon.newClient w with
        nextClient := w.nextClient + 1, reconnect := .running w.nextClient }
    else none
  | .runReturned =>
    match w.reconnect with
    | .running k =>
      if (w.clients k).run = .returned then some { w with reconnect := .sleeping } else none
    | _ => none
  | .wake => if w.reconnect = .sleeping then some { w with reconnect := .selecting } else none

/-- `openConn` and `startRun` are steps of the environment: nothing in the daemon calls
`PeerConn.run`, and the state manager is alone in dialing. -/
inductive Action
  | takeEvent (e : Event) (o : Orders)
  | takeKill (o : Orders)
  | op
  | openConn (peerId : PeerId) (initiator : Bool)
  | startRun (addr : ℕ)
  | pc (addr : ℕ) (a : PeerConn.Action)
  | lm (a : LocalManager.Action)
  | client (k : ℕ) (a : Client.Action)
  | reconnect (a : ReconnectAction)
  | main (a : MainAction)

def step (token : Token) (w : World) : Action → Option World
  | .takeEvent e o =>
    if w.loop = .looping ∧ w.ops = [] ∧ o.Valid w.sm.peerConnMap then do
      let ch ← recvEvent w.ch e
      some { w with ch, sm := (turn w.sm e o).1, ops := (turn w.sm e o).2 }
    else none
  | .takeKill o =>
    if w.loop = .looping ∧ w.ops = [] ∧ o.Valid w.sm.peerConnMap then do
      let smKill ← w.smKill.drop
      some { w with smKill, ops := cleanup o, loop := .unwinding }
    else none
  | .op =>
    match w.ops with
    | [] => none
    | op :: ops => (doOp w op).map fun w => { w with ops }
  | .openConn peerId initiator => dial peerId initiator w
  | .startRun addr =>
    if addr < w.nextPc ∧ (w.pcs addr).run = .notStarted then
      some (setPc addr (w.pcs addr).start w)
    else none
  | .pc addr a =>
    ((w.pcs addr).step w.ch a).map fun r => setPc addr r.2 { w with ch := r.1 }
  | .lm a => (w.lm.step w.ch a).map fun r => { w with ch := r.1, lm := r.2 }
  | .client k a =>
    if k < w.nextClient then
      ((w.clients k).step token w.ch a).map fun r => setClient k r.2 { w with ch := r.1 }
    else none
  | .reconnect a => reconnectStep w a
  | .main a => mainStep w a

def OpPanics (w : World) : Op → Prop
  | .sendKill pc => (w.pcs pc.addr).kill.closed = true
  | .sendOut pc _ => (w.pcs pc.addr).out.closed = true
  | .recvKill _ | .dial _ _ | .sendRead _ _ | .sendServer _ | .recvDead _ | .sendDead => False

/-- The actions that end the daemon. `step` has no next state for them, as for those that wait. -/
def Panics (w : World) : Action → Prop
  | .op => ∃ op ∈ w.ops.head?, OpPanics w op
  | .pc addr a => (w.pcs addr).Panics a
  | .lm (.capture i pkt) => w.lm.pcap i = .capturing ∧ parsePcapPacket pkt = none
  | .client k a => k < w.nextClient ∧ (w.clients k).Panics a
  | .reconnect .failResolve => w.reconnect = .resolving
  | .main .kill => w.main = .killClient ∧
    (w.nextClient = 0 ∨ (w.clients (w.nextClient - 1)).kill.closed = true)
  | _ => False

instance (w : World) : DecidablePred (OpPanics w)
  | .sendKill _ | .sendOut _ _ => inferInstanceAs (Decidable (_ = _))
  | .recvKill _ | .dial _ _ | .sendRead _ _ | .sendServer _ | .recvDead _ | .sendDead => .isFalse id

instance (w : World) : DecidablePred (Panics w)
  | .op => inferInstanceAs (Decidable (∃ op ∈ w.ops.head?, OpPanics w op))
  | .pc _ a => inferInstanceAs (Decidable (PeerConn.Panics _ a))
  | .client _ _ | .lm (.capture _ _) | .main .kill => inferInstanceAs (Decidable (_ ∧ _))
  | .reconnect .failResolve => inferInstanceAs (Decidable (_ = _))
  | .takeEvent _ _ | .takeKill _ | .openConn _ _ | .startRun _ => .isFalse id
  | .lm (.recvOut _) | .lm .recvXbox | .lm .sendNewXbox | .lm .recvKill | .lm .stopChild
  | .lm .sendDead | .lm (.recvStop _) | .lm (.poll _) | .lm (.miss _) | .lm (.sendXbox _)
  | .lm (.forward _) => .isFalse id
  | .reconnect .recvKill | .reconnect .resolve | .reconnect .newClient | .reconnect .runReturned
  | .reconnect .wake => .isFalse id
  | .main .interrupt | .main .recvSmDead | .main .recvLmDead | .main .recvDead => .isFalse id

inductive Done (w : World) : Op → World → Prop
  | recvKill {pc kill} : (w.pcs pc.addr).kill.drop = some kill →
      Done w (.recvKill pc) (setPc pc.addr { w.pcs pc.addr with kill } w)
  | sendKill {pc kill} : (w.pcs pc.addr).kill.send () = some kill →
      Done w (.sendKill pc) (setPc pc.addr { w.pcs pc.addr with kill } w)
  | dial {peerId initiator v} : dial peerId initiator w = some v → Done w (.dial peerId initiator) v
  | sendRead {pc payload} : (w.pcs pc.addr).reads ≠ 0 → Done w (.sendRead pc payload)
      (setPc pc.addr { w.pcs pc.addr with reads := (w.pcs pc.addr).reads - 1 } w)
  | sendOut {pc packet out} : (w.pcs pc.addr).out.send packet = some out →
      Done w (.sendOut pc packet) (setPc pc.addr { w.pcs pc.addr with out } w)
  | sendServer {req serverChan} : w.ch.serverChan.send req = some serverChan →
      Done w (.sendServer req) { w with ch := { w.ch with serverChan } }
  | recvDead {pc dead} : (w.pcs pc.addr).dead.drop = some dead →
      Done w (.recvDead pc) (setPc pc.addr { w.pcs pc.addr with dead } w)
  | sendDead {smDead} : w.smDead.send () = some smDead → Done w .sendDead { w with smDead }

inductive Received (ch : Shared) : Event → Shared → Prop
  | localState {ls localStateChan} : ch.localStateChan.recv = some (ls, localStateChan) →
      Received ch (.localState ls) { ch with localStateChan }
  | pcSignal {pcSignal pcSignalChan} : ch.pcSignalChan.recv = some (pcSignal, pcSignalChan) →
      Received ch (.pcSignal pcSignal) { ch with pcSignalChan }
  | remote {packet remoteChan} : ch.remoteChan.recv = some (packet, remoteChan) →
      Received ch (.remote packet) { ch with remoteChan }
  | newPeerConn {newPc newPeerConnChan} :
      ch.newPeerConnChan.recv = some (newPc, newPeerConnChan) →
      Received ch (.newPeerConn newPc) { ch with newPeerConnChan }
  | removePeer {pid removePeerChan} : ch.removePeerChan.recv = some (pid, removePeerChan) →
      Received ch (.removePeer pid) { ch with removePeerChan }
  | newXbox {newXbox newXboxChan} : ch.newXboxChan.recv = some (newXbox, newXboxChan) →
      Received ch (.newXbox newXbox) { ch with newXboxChan }

inductive ReconnectEffect (w : World) : ReconnectAction → World → Prop
  | recvKill {kill dead} : w.reconnect = .selecting → w.kill.drop = some kill →
      w.dead.send () = some dead →
      ReconnectEffect w .recvKill { w with kill, dead, reconnect := .returned }
  | resolve : w.reconnect = .selecting → w.kill.drop = none →
      ReconnectEffect w .resolve { w with reconnect := .resolving }
  | newClient : w.reconnect = .resolving →
      ReconnectEffect w .newClient { setClient w.nextClient Daemon.newClient w with
        nextClient := w.nextClient + 1, reconnect := .running w.nextClient }
  | runReturned {k} : w.reconnect = .running k → (w.clients k).run = .returned →
      ReconnectEffect w .runReturned { w with reconnect := .sleeping }
  | wake : w.reconnect = .sleeping → ReconnectEffect w .wake { w with reconnect := .selecting }

inductive MainEffect (w : World) : MainAction → World → Prop
  | interrupt : w.main = .waiting → MainEffect w .interrupt { w with main := .killReconnect }
  | killReconnect {kill} : w.main = .killReconnect → w.kill.send () = some kill →
      MainEffect w .kill { w with kill, main := .killStateManager }
  | killStateManager {smKill} : w.main = .killStateManager → w.smKill.send () = some smKill →
      MainEffect w .kill { w with smKill, main := .killLocalManager }
  | killLocalManager {kill} : w.main = .killLocalManager → w.lm.kill.send () = some kill →
      MainEffect w .kill { w with lm := { w.lm with kill }, main := .killClient }
  | killClient {kill} : w.main = .killClient → w.nextClient ≠ 0 →
      (w.clients (w.nextClient - 1)).kill.send () = some kill →
      MainEffect w .kill { setClient (w.nextClient - 1)
        { w.clients (w.nextClient - 1) with kill } w with main := .polling 3 }
  | recvSmDead {deadcount smDead} : w.main = .polling (deadcount + 1) →
      w.smDead.drop = some smDead →
      MainEffect w .recvSmDead { w with smDead, main := .polling deadcount }
  | recvLmDead {deadcount dead} : w.main = .polling (deadcount + 1) →
      w.lm.dead.drop = some dead →
      MainEffect w .recvLmDead { w with lm := { w.lm with dead }, main := .polling deadcount }
  | recvDead {deadcount dead} : w.main = .polling (deadcount + 1) → w.dead.drop = some dead →
      MainEffect w .recvDead { w with dead, main := .polling deadcount }

inductive Effect (token : Token) (w : World) : Action → World → Prop
  | takeEvent {e o ch} : w.loop = .looping → w.ops = [] → o.Valid w.sm.peerConnMap →
      recvEvent w.ch e = some ch → Effect token w (.takeEvent e o)
        { w with ch, sm := (turn w.sm e o).1, ops := (turn w.sm e o).2 }
  | takeKill {o smKill} : w.loop = .looping → w.ops = [] → o.Valid w.sm.peerConnMap →
      w.smKill.drop = some smKill → Effect token w (.takeKill o)
        { w with smKill, ops := cleanup o, loop := .unwinding }
  | op {op ops v} : w.ops = op :: ops → Done w op v → Effect token w .op { v with ops }
  | openConn {peerId initiator v} : dial peerId initiator w = some v →
      Effect token w (.openConn peerId initiator) v
  | startRun {addr} : addr < w.nextPc → (w.pcs addr).run = .notStarted →
      Effect token w (.startRun addr) (setPc addr (w.pcs addr).start w)
  | pc {addr a ch pc} : (w.pcs addr).Effect w.ch a ch pc →
      Effect token w (.pc addr a) (setPc addr pc { w with ch })
  | lm {a ch lm} : w.lm.Effect w.ch a ch lm → Effect token w (.lm a) { w with ch, lm }
  | client {k a ch c} : k < w.nextClient → (w.clients k).Effect token w.ch a ch c →
      Effect token w (.client k a) (setClient k c { w with ch })
  | reconnect {a v} : ReconnectEffect w a v → Effect token w (.reconnect a) v
  | main {a v} : MainEffect w a v → Effect token w (.main a) v

variable {token : Token} {w v : World} {a : Action} {op : Op}

lemma dial_eq_some {peerId : PeerId} {initiator : Bool} (h : dial peerId initiator w = some v) :
    ∃ newPeerConnChan, w.ch.newPeerConnChan.send ⟨w.nextPc, peerId⟩ = some newPeerConnChan ∧
      v = setPc w.nextPc (.new w.nextPc peerId (.connecting initiator))
        { w with ch := { w.ch with newPeerConnChan }, nextPc := w.nextPc + 1 } := by
  obtain ⟨newPeerConnChan, hs, h⟩ := Option.bind_eq_some_iff.mp h
  exact ⟨newPeerConnChan, hs, (Option.some.inj h).symm⟩

lemma doOp_done (h : doOp w op = some v) : Done w op v := by
  cases op with
  | recvKill | sendKill | sendOut | sendServer | recvDead | sendDead =>
    obtain ⟨_, hs, h⟩ := Option.bind_eq_some_iff.mp h
    cases h
    constructor
    exact hs
  | dial peerId initiator => exact .dial h
  | sendRead pc payload =>
    obtain ⟨hr, h⟩ := Option.ite_none_left_eq_some.mp h
    cases h
    exact .sendRead hr

lemma recvEvent_received {ch ch' : Shared} {e : Event} (h : recvEvent ch e = some ch') :
    Received ch e ch' := by
  cases e with
  | _ =>
    obtain ⟨⟨x, c⟩, hr, hif⟩ := Option.bind_eq_some_iff.mp h
    obtain ⟨rfl, hch⟩ := Option.ite_none_right_eq_some.mp hif
    cases hch
    constructor
    exact hr

lemma reconnectStep_effect {a : ReconnectAction} (h : reconnectStep w a = some v) :
    ReconnectEffect w a v := by
  cases a with
  | recvKill =>
    obtain ⟨hr, h⟩ := Option.ite_none_right_eq_some.mp h
    obtain ⟨_, hk, h⟩ := Option.bind_eq_some_iff.mp h
    obtain ⟨_, hd, h⟩ := Option.bind_eq_some_iff.mp h
    cases h
    exact .recvKill hr hk hd
  | resolve =>
    obtain ⟨⟨hr, hk⟩, h⟩ := Option.ite_none_right_eq_some.mp h
    cases h
    exact .resolve hr (Option.isNone_iff_eq_none.mp hk)
  | failResolve => cases h
  | newClient =>
    obtain ⟨hr, h⟩ := Option.ite_none_right_eq_some.mp h
    cases h
    exact .newClient hr
  | runReturned =>
    simp only [reconnectStep] at h
    split at h
    · rename_i k hr
      obtain ⟨hc, h⟩ := Option.ite_none_right_eq_some.mp h
      cases h
      exact .runReturned hr hc
    · cases h
  | wake =>
    obtain ⟨hr, h⟩ := Option.ite_none_right_eq_some.mp h
    cases h
    exact .wake hr

lemma mainStep_effect {a : MainAction} (h : mainStep w a = some v) : MainEffect w a v := by
  cases a with
  | interrupt =>
    obtain ⟨hm, h⟩ := Option.ite_none_right_eq_some.mp h
    cases h
    exact .interrupt hm
  | kill =>
    simp only [mainStep] at h
    split at h
    · rename_i hm
      obtain ⟨_, hs, h⟩ := Option.bind_eq_some_iff.mp h
      cases h
      exact .killReconnect hm hs
    · rename_i hm
      obtain ⟨_, hs, h⟩ := Option.bind_eq_some_iff.mp h
      cases h
      exact .killStateManager hm hs
    · rename_i hm
      obtain ⟨_, hs, h⟩ := Option.bind_eq_some_iff.mp h
      cases h
      exact .killLocalManager hm hs
    · rename_i hm
      obtain ⟨hc, h⟩ := Option.ite_none_left_eq_some.mp h
      obtain ⟨_, hs, h⟩ := Option.bind_eq_some_iff.mp h
      cases h
      exact .killClient hm hc hs
    all_goals cases h
  | recvSmDead | recvLmDead | recvDead =>
    simp only [mainStep] at h
    split at h
    · rename_i hm
      obtain ⟨_, hs, h⟩ := Option.bind_eq_some_iff.mp h
      cases h
      constructor
      · exact hm
      · exact hs
    · cases h

lemma step_effect (h : step token w a = some v) : Effect token w a v := by
  cases a with
  | takeEvent e o | takeKill o =>
    obtain ⟨⟨hl, ho, hv⟩, h⟩ := Option.ite_none_right_eq_some.mp h
    obtain ⟨_, hr, h⟩ := Option.bind_eq_some_iff.mp h
    cases h
    constructor
    · exact hl
    · exact ho
    · exact hv
    · exact hr
  | op =>
    simp only [step] at h
    split at h
    · cases h
    · rename_i op ops ho
      obtain ⟨u, hu, rfl⟩ := Option.map_eq_some_iff.mp h
      exact .op ho (doOp_done hu)
  | openConn peerId initiator => exact .openConn h
  | startRun addr =>
    obtain ⟨⟨ha, hr⟩, h⟩ := Option.ite_none_right_eq_some.mp h
    cases h
    exact .startRun ha hr
  | pc addr a =>
    obtain ⟨⟨ch, pc⟩, hs, rfl⟩ := Option.map_eq_some_iff.mp h
    exact .pc (PeerConn.step_effect hs)
  | lm a =>
    obtain ⟨⟨ch, lm⟩, hs, rfl⟩ := Option.map_eq_some_iff.mp h
    exact .lm (LocalManager.step_effect hs)
  | client k a =>
    obtain ⟨hk, h⟩ := Option.ite_none_right_eq_some.mp h
    obtain ⟨⟨ch, c⟩, hs, rfl⟩ := Option.map_eq_some_iff.mp h
    exact .client hk (Client.step_effect hs)
  | reconnect a => exact .reconnect (reconnectStep_effect h)
  | main a => exact .main (mainStep_effect h)

lemma step_not_panics (h : step token w a = some v) : ¬ Panics w a := by
  have hopen : ∀ {α : Type} {c d : Chan α} {x : α}, c.send x = some d → ¬ c.closed = true :=
    fun hs hc => Bool.noConfusion (hc.symm.trans (Chan.send_eq_some.mp hs).1.1)
  cases step_effect h with
  | op ho hd =>
    rintro ⟨op, hm, hp⟩
    rw [ho] at hm
    obtain rfl := Option.some.inj hm
    cases hd with
    | sendKill hs | sendOut hs => exact hopen hs hp
    | _ => exact hp
  | pc he => exact PeerConn.effect_not_panics he
  | client _ he => exact fun hp => Client.effect_not_panics he hp.2
  | lm he =>
    cases he with
    | capture _ hp => exact fun h => by cases h.2.symm.trans hp
    | _ => exact id
  | reconnect he => cases he <;> exact id
  | main he =>
    cases he with
    | killClient _ hn hs => exact fun hp => hp.2.elim hn (hopen hs)
    | killReconnect hm | killStateManager hm | killLocalManager hm =>
      exact fun hp => by cases hm.symm.trans hp.1
    | _ => exact id
  | _ => exact id

def Action.other : Action → Bool
  | .pc _ _ | .lm _ | .client _ _ | .reconnect _ | .main _ => true
  | .takeEvent _ _ | .takeKill _ | .op | .openConn _ _ | .startRun _ => false

end XbTunnel.Daemon.Network
