import XbTunnel.Daemon.Deadlock

/-! What one step of the daemon can do to a connection, and the references to connections that its
goroutines hold. -/

namespace XbTunnel.Daemon

open Common Udp Remote Lib.Channels Lib.Runs Lib.Maps

namespace Network

open StateManager

inductive Moves (w : World) (a : Action) (addr : ℕ) : PeerConn → Prop
  | stays : Moves w a addr (w.pcs addr)
  | starts : a = .startRun addr → (w.pcs addr).run = .notStarted →
      Moves w a addr (w.pcs addr).start
  | acts {b ch pc} : a = .pc addr b → (w.pcs addr).Effect w.ch b ch pc → Moves w a addr pc
  | takesKill {ref kill} : a = .op → .recvKill ref ∈ w.ops.head? → ref.addr = addr →
      (w.pcs addr).kill.drop = some kill → Moves w a addr { w.pcs addr with kill }
  | killed {ref kill} : a = .op → .sendKill ref ∈ w.ops.head? → ref.addr = addr →
      (w.pcs addr).kill.send () = some kill → Moves w a addr { w.pcs addr with kill }
  | read {ref payload} : a = .op → .sendRead ref payload ∈ w.ops.head? → ref.addr = addr →
      (w.pcs addr).reads ≠ 0 →
      Moves w a addr { w.pcs addr with reads := (w.pcs addr).reads - 1 }
  | sent {ref packet out} : a = .op → .sendOut ref packet ∈ w.ops.head? → ref.addr = addr →
      (w.pcs addr).out.send packet = some out → Moves w a addr { w.pcs addr with out }
  | takesDead {ref dead} : a = .op → .recvDead ref ∈ w.ops.head? → ref.addr = addr →
      (w.pcs addr).dead.drop = some dead → Moves w a addr { w.pcs addr with dead }

variable {token : Token} {w v : World} {a : Action} {op : Op} {ref : PcRef} {addr : ℕ}

lemma Moves.peerId {pc : PeerConn} (h : Moves w a addr pc) : pc.peerId = (w.pcs addr).peerId := by
  cases h with
  | acts _ h => cases h <;> rfl
  | _ => rfl

structure Opens (w v : World) (addr : ℕ) : Prop where
  fresh : addr = w.nextPc
  nextPc : v.nextPc = w.nextPc + 1
  pc : ∃ peerId initiator, v.pcs addr = .new addr peerId (.connecting initiator)

structure Dialed (w v : World) : Prop where
  sm : v.sm = w.sm
  ops : v.ops = w.ops
  loop : v.loop = w.loop
  smDead : v.smDead = w.smDead
  clients : v.clients = w.clients
  nextClient : v.nextClient = w.nextClient
  reconnect : v.reconnect = w.reconnect
  main : v.main = w.main
  nextPc : v.nextPc = w.nextPc + 1

lemma dial_dialed {peerId : PeerId} {initiator : Bool} (h : dial peerId initiator w = some v) :
    Dialed w v := by
  obtain ⟨_, -, rfl⟩ := dial_eq_some h
  constructor <;> rfl

lemma moves_setPc {pc : PeerConn} {addr' : ℕ} (hv : v.pcs = w.pcs)
    (h : addr' = addr → Moves w a addr pc) : Moves w a addr ((setPc addr' pc v).pcs addr) := by
  by_cases ha : addr' = addr
  · rw [ha, setPc_self]
    exact h ha
  · rw [setPc_of_ne (Ne.symm ha), hv]
    exact .stays

lemma dial_moves {peerId : PeerId} {initiator : Bool} (h : dial peerId initiator w = some v)
    (addr : ℕ) : Opens w v addr ∨ Moves w a addr (v.pcs addr) := by
  obtain ⟨newPeerConnChan, -, rfl⟩ := dial_eq_some h
  by_cases ha : addr = w.nextPc
  · rw [ha]
    exact .inl ⟨rfl, rfl, peerId, initiator, setPc_self ..⟩
  · rw [setPc_of_ne ha]
    exact .inr .stays

lemma Done.moves (h : Done w op v) (ho : op ∈ w.ops.head?) (addr : ℕ) :
    Opens w v addr ∨ Moves w .op addr (v.pcs addr) := by
  cases h with
  | recvKill h => exact .inr (moves_setPc rfl fun ha => by subst ha; exact .takesKill rfl ho rfl h)
  | sendKill h => exact .inr (moves_setPc rfl fun ha => by subst ha; exact .killed rfl ho rfl h)
  | dial h => exact dial_moves h addr
  | sendRead h => exact .inr (moves_setPc rfl fun ha => by subst ha; exact .read rfl ho rfl h)
  | sendOut h => exact .inr (moves_setPc rfl fun ha => by subst ha; exact .sent rfl ho rfl h)
  | recvDead h => exact .inr (moves_setPc rfl fun ha => by subst ha; exact .takesDead rfl ho rfl h)
  | sendServer | sendDead => exact .inr .stays

structure Aside (w v : World) : Prop where
  pcs : v.pcs = w.pcs
  nextPc : v.nextPc = w.nextPc
  sm : v.sm = w.sm
  ops : v.ops = w.ops
  loop : v.loop = w.loop
  newPeerConnChan : v.ch.newPeerConnChan = w.ch.newPeerConnChan

lemma reconnect_aside {a : ReconnectAction} (h : ReconnectEffect w a v) : Aside w v := by
  cases h <;> exact ⟨rfl, rfl, rfl, rfl, rfl, rfl⟩

lemma main_aside {a : MainAction} (h : MainEffect w a v) : Aside w v := by
  cases h <;> exact ⟨rfl, rfl, rfl, rfl, rfl, rfl⟩

lemma lm_aside {a : LocalManager.Action} {ch : Shared} {lm : LocalManager}
    (h : w.lm.Effect w.ch a ch lm) : Aside w { w with ch, lm } := by
  refine ⟨rfl, rfl, rfl, rfl, rfl, ?_⟩
  cases h <;> rfl

lemma client_aside {k : ℕ} {a : Client.Action} {ch : Shared} {c : Client}
    (h : (w.clients k).Effect token w.ch a ch c) : Aside w (setClient k c { w with ch }) := by
  refine ⟨rfl, rfl, rfl, rfl, rfl, ?_⟩
  cases h <;> rfl

lemma Aside.moves (h : Aside w v) (addr : ℕ) : Moves w a addr (v.pcs addr) := by
  rw [h.pcs]
  exact .stays

lemma step_moves (h : step token w a = some v) (addr : ℕ) :
    Opens w v addr ∨ Moves w a addr (v.pcs addr) := by
  cases step_effect h with
  | takeEvent | takeKill => exact .inr .stays
  | op ho hd =>
    have hmem := Option.mem_def.mpr (List.head?_eq_some_iff.mpr ⟨_, ho⟩)
    exact (hd.moves hmem addr).imp (fun h => ⟨h.fresh, h.nextPc, h.pc⟩) id
  | openConn hd => exact dial_moves hd addr
  | startRun _ hr =>
    exact .inr (moves_setPc rfl fun ha => by cases ha; exact .starts rfl hr)
  | pc he => exact .inr (moves_setPc rfl fun ha => by cases ha; exact .acts rfl he)
  | lm he => exact .inr ((lm_aside he).moves addr)
  | client _ he => exact .inr ((client_aside he).moves addr)
  | reconnect he => exact .inr ((reconnect_aside he).moves addr)
  | main he => exact .inr ((main_aside he).moves addr)

lemma step_nextPc (h : step token w a = some v) : w.nextPc ≤ v.nextPc := by
  cases step_effect h with
  | op _ hd =>
    cases hd with
    | dial hd => exact ((Nat.le_succ _).trans_eq (dial_dialed hd).nextPc.symm :)
    | _ => exact le_rfl
  | openConn hd => exact (Nat.le_succ _).trans_eq (dial_dialed hd).nextPc.symm
  | reconnect he => exact (reconnect_aside he).nextPc.ge
  | main he => exact (main_aside he).nextPc.ge
  | _ => exact le_rfl

lemma step_sm (h : step token w a = some v) (ha : ∀ e o, a ≠ .takeEvent e o) : v.sm = w.sm := by
  cases step_effect h with
  | takeEvent => exact absurd rfl (ha _ _)
  | op _ hd =>
    cases hd with
    | dial hd => exact ((dial_dialed hd).sm :)
    | _ => rfl
  | openConn hd => exact (dial_dialed hd).sm
  | reconnect he => exact (reconnect_aside he).sm
  | main he => exact (main_aside he).sm
  | _ => rfl

def target : Op → Option PcRef
  | .recvKill pc | .sendKill pc | .sendRead pc _ | .sendOut pc _ | .recvDead pc => some pc
  | .dial _ _ | .sendServer _ | .sendDead => none

def opsAfter (w : World) : Action → List Op
  | .takeEvent e o => (turn w.sm e o).2
  | .takeKill o => cleanup o
  | .op => w.ops.tail
  | _ => w.ops

lemma step_ops (h : step token w a = some v) : v.ops = opsAfter w a := by
  cases step_effect h with
  | op ho => rw [opsAfter, ho, List.tail_cons]
  | openConn hd => exact (dial_dialed hd).ops
  | reconnect he => exact (reconnect_aside he).ops
  | main he => exact (main_aside he).ops
  | _ => rfl

section Targets

variable {m : PeerConnMap}

def Filed (m : PeerConnMap) (ref : PcRef) : Prop := ∃ pid, m.lookup pid = some ref

inductive Issued (m : PeerConnMap) : Op → Prop
  | recvKill {pc} : Filed m pc → Issued m (.recvKill pc)
  | sendKill {pc} : Filed m pc → Issued m (.sendKill pc)
  | dial {peerId initiator} : Issued m (.dial peerId initiator)
  | sendRead {pc payload} : Filed m pc → Issued m (.sendRead pc payload)
  | sendOut {pc packet} : Filed m pc → Issued m (.sendOut pc packet)
  | sendServer {req} : Issued m (.sendServer req)

lemma mem_map_order {order : PcOrder} (hi : Iterates m order) {f : PcRef → Op}
    (ho : op ∈ order.map fun e => f e.2) : ∃ pc, Filed m pc ∧ op = f pc := by
  obtain ⟨⟨pid, pc⟩, he, rfl⟩ := List.mem_map.mp ho
  exact ⟨pc, ⟨pid, hi.mem_iff.mp he⟩, rfl⟩

lemma resolvePeerConns_issued {my : PeerId} {peers : Option (List Peer)} {o : Orders}
    (hv : o.Valid m) (ho : op ∈ resolvePeerConns my m peers o.first o.second) : Issued m op := by
  rw [resolvePeerConns, List.append_assoc, List.mem_append, List.mem_append] at ho
  rcases ho with ho | ho | ho
  · split_ifs at ho
    · obtain ⟨pc, hf, rfl⟩ := mem_map_order hv.1 ho
      exact .recvKill hf
    · cases ho
  · obtain ⟨peer, -, ho⟩ := List.mem_flatMap.mp ho
    split_ifs at ho
    · obtain rfl := List.mem_singleton.mp ho
      exact .dial
    · obtain rfl := List.mem_singleton.mp ho
      exact .dial
    · cases ho
  · obtain ⟨⟨pid, pc⟩, he, ho⟩ := List.mem_flatMap.mp ho
    split_ifs at ho
    · cases ho
    · obtain rfl := List.mem_singleton.mp ho
      exact .sendKill ⟨pid, hv.2.mem_iff.mp he⟩

lemma turn_issued {s : State} {e : Event} {o : Orders} (hv : o.Valid s.peerConnMap)
    (ho : op ∈ (turn s e o).2) : Issued s.peerConnMap op := by
  rcases List.mem_append.mp ho with ho | ho
  · cases e with
    | localState ls => exact resolvePeerConns_issued hv ho
    | pcSignal pcSignal =>
      simp only at ho
      split at ho
      · rename_i peer hl
        obtain rfl := List.mem_singleton.mp ho
        exact .sendRead ⟨_, hl⟩
      · cases ho
    | remote packet =>
      simp only at ho
      split at ho
      · obtain ⟨pc, hf, rfl⟩ := mem_map_order (f := fun pc => .sendOut pc packet) hv.1 ho
        exact .sendOut hf
      · split at ho
        · split at ho
          · rename_i peer hl
            obtain rfl := List.mem_singleton.mp ho
            exact .sendOut ⟨_, hl⟩
          · cases ho
        · cases ho
    | newPeerConn | removePeer | newXbox => cases ho
  · split at ho
    · obtain rfl := List.mem_singleton.mp ho
      exact .sendServer
    · cases ho

lemma Issued.target (h : Issued m op) (hr : ref ∈ target op) : Filed m ref := by
  cases h with
  | recvKill h | sendKill h | sendRead h | sendOut h =>
    obtain rfl := Option.some.inj hr
    exact h
  | dial | sendServer => cases hr

lemma cleanup_target {o : Orders} (hv : o.Valid m) (ho : op ∈ cleanup o)
    (hr : ref ∈ target op) : Filed m ref := by
  rw [cleanup, List.mem_append, List.mem_append, List.mem_singleton] at ho
  rcases ho with (ho | ho) | rfl
  · obtain ⟨pc, hf, rfl⟩ := mem_map_order (f := .sendKill) hv.1 ho
    obtain rfl := Option.some.inj hr
    exact hf
  · obtain ⟨pc, hf, rfl⟩ := mem_map_order (f := .recvDead) hv.2 ho
    obtain rfl := Option.some.inj hr
    exact hf
  · cases hr

end Targets

def Known (w : World) (ref : PcRef) : Prop :=
  ref.addr < w.nextPc ∧ (w.pcs ref.addr).peerId = ref.peerId

structure Refs (w : World) : Prop where
  announced : ∀ ref ∈ w.ch.newPeerConnChan.buf, Known w ref
  filed : ∀ pid ref, w.sm.peerConnMap.lookup pid = some ref → Known w ref ∧ ref.peerId = pid
  pending : ∀ op ∈ w.ops, ∀ ref ∈ target op, Known w ref

lemma Known.moves (hk : Known w ref) (h : step token w a = some v) :
    Moves w a ref.addr (v.pcs ref.addr) :=
  (step_moves h ref.addr).resolve_left fun ho => absurd ho.fresh hk.1.ne

lemma Known.step (hk : Known w ref) (h : step token w a = some v) : Known v ref :=
  ⟨hk.1.trans_le (step_nextPc h), (hk.moves h).peerId.trans hk.2⟩

lemma recvEvent_announced {ch ch' : Shared} {e : Event} (h : recvEvent ch e = some ch') :
    ch'.newPeerConnChan.buf <:+ ch.newPeerConnChan.buf ∧
      ∀ newPc, e = .newPeerConn newPc → newPc ∈ ch.newPeerConnChan.buf := by
  cases recvEvent_received h with
  | newPeerConn hr =>
    obtain ⟨rest, hb, rfl⟩ := Chan.recv_eq_some.mp hr
    rw [hb]
    refine ⟨List.suffix_cons _ rest, fun newPc he => ?_⟩
    obtain rfl := Event.newPeerConn.inj he
    exact List.mem_cons_self
  | _ => exact ⟨List.suffix_rfl, nofun⟩

lemma dial_announced {peerId : PeerId} {initiator : Bool} (h : dial peerId initiator w = some v)
    (hr : ref ∈ v.ch.newPeerConnChan.buf) :
    ref ∈ w.ch.newPeerConnChan.buf ∨ Known v ref := by
  obtain ⟨_, hs, rfl⟩ := dial_eq_some h
  obtain ⟨-, rfl⟩ := Chan.send_eq_some.mp hs
  rcases List.mem_append.mp hr with hr | hr
  · exact .inl hr
  · obtain rfl := List.mem_singleton.mp hr
    refine .inr ⟨Nat.lt_succ_self _, ?_⟩
    rw [setPc_self]
    rfl

lemma step_announced (h : step token w a = some v)
    (hr : ref ∈ v.ch.newPeerConnChan.buf) : ref ∈ w.ch.newPeerConnChan.buf ∨ Known v ref := by
  cases step_effect h with
  | takeEvent _ _ _ he => exact .inl ((recvEvent_announced he).1.subset hr)
  | op _ hd =>
    cases hd with
    | dial hd =>
      have hd' := dial_announced hd hr
      exact hd'
    | _ => exact .inl hr
  | openConn hd => exact dial_announced hd hr
  | pc he => exact .inl (by cases he <;> exact hr)
  | lm he => exact .inl ((lm_aside he).newPeerConnChan ▸ hr)
  | client _ he => exact .inl ((client_aside he).newPeerConnChan ▸ hr)
  | reconnect he => exact .inl ((reconnect_aside he).newPeerConnChan ▸ hr)
  | main he => exact .inl ((main_aside he).newPeerConnChan ▸ hr)
  | _ => exact .inl hr

lemma step_filed (h : step token w a = some v) {pid : PeerId}
    (hl : v.sm.peerConnMap.lookup pid = some ref) :
    w.sm.peerConnMap.lookup pid = some ref ∨ ref.peerId = pid ∧
      ref ∈ w.ch.newPeerConnChan.buf ∧ ∃ o, a = .takeEvent (.newPeerConn ref) o := by
  by_cases ha : ∀ e o, a ≠ .takeEvent e o
  · rw [step_sm h ha] at hl
    exact .inl hl
  · push Not at ha
    obtain ⟨e, o, rfl⟩ := ha
    cases step_effect h with
    | takeEvent _ _ _ he =>
      cases e with
      | newPeerConn newPc =>
        rcases lookup_insert_eq_some hl with ⟨rfl, rfl⟩ | hl
        · exact .inr ⟨rfl, (recvEvent_announced he).2 _ rfl, o, rfl⟩
        · exact .inl hl
      | removePeer pid' =>
        have hne : pid ≠ pid' := by
          rintro rfl
          cases (Finmap.lookup_erase pid w.sm.peerConnMap).symm.trans hl
        exact .inl ((Finmap.lookup_erase_ne hne).symm.trans hl)
      | _ => exact .inl hl

lemma Refs.opsAfter (hw : Refs w) (ref : PcRef) (h : step token w a = some v)
    (ho : op ∈ opsAfter w a) (hr : ref ∈ target op) : Known w ref := by
  have hfiled : Filed w.sm.peerConnMap ref → Known w ref :=
    fun ⟨pid, hl⟩ => (hw.filed pid ref hl).1
  cases step_effect h with
  | takeEvent _ _ hv => exact hfiled ((turn_issued hv ho).target hr)
  | takeKill _ _ hv => exact hfiled (cleanup_target hv ho hr)
  | op => exact hw.pending op (List.mem_of_mem_tail ho) ref hr
  | _ => exact hw.pending op ho ref hr

lemma Refs.step (hw : Refs w) (h : step token w a = some v) : Refs v where
  announced ref hr := (step_announced h hr).elim (fun hr => (hw.announced ref hr).step h) id
  filed pid ref hl := by
    rcases step_filed h hl with hl | ⟨rfl, hm, -⟩
    · exact (hw.filed pid ref hl).imp_left (·.step h)
    · exact ⟨(hw.announced ref hm).step h, rfl⟩
  pending op ho ref hr := by
    rw [step_ops h] at ho
    exact (hw.opsAfter ref h ho hr).step h

lemma refs_init (handles : ℕ) : Refs (init handles) where
  announced ref hr := by cases hr
  filed pid ref hl := by cases hl
  pending op ho := by cases ho

end Network

end XbTunnel.Daemon
