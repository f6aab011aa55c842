import XbTunnel.Daemon.Dying

/-! The deferred cleanup of the state manager: whether it can still end, whatever has happened since
the kill. -/

namespace XbTunnel.Daemon.Shutdown

open Common Udp Remote StateManager Lib.Channels Lib.Runs Lib.Maps Network

def quiet (w : World) : Action → Bool
  | .pc addr .connect | .pc addr .failConnect => (w.pcs addr).reads == 0
  | _ => true

/-- The daemon with a `nat.Connect` that returns only when it reads the sideband no more. -/
def settledStep (token : Token) (w : World) (a : Action) : Option World :=
  if quiet w a = true then Network.step token w a else none

structure Tracked where
  w : World
  crashed : Bool

def start (handles : ℕ) : Tracked := ⟨init handles, false⟩

def step (token : Token) (s : Tracked) (a : Action) : Option Tracked :=
  -- the panic of any goroutine ends the daemon
  if s.crashed = true then none
  else if Panics s.w a then some { s with crashed := true }
  else (settledStep token s.w a).map fun w => { s with w }

def Started (w : World) : Prop :=
  ∀ op ∈ w.ops, ∀ pc ∈ target op, (w.pcs pc.addr).run ≠ .notStarted

def CleansUp (token : Token) (s : Tracked) : Prop :=
  s.w.loop = .unwinding → Started s.w → CanReach (Steps (step token)) (fun t => t.w.ops = []) s

def Kills (addr : ℕ) : Op → Prop
  | .sendKill pc => pc.addr = addr
  | _ => False

def KillPending (w : World) (addr : ℕ) : Prop := ∃ op ∈ w.ops, Kills addr op

def Can (w : World) : Op → Prop
  | .sendKill pc => (w.pcs pc.addr).TakesKill
  | .recvDead pc => (w.pcs pc.addr).Dies (KillPending w pc.addr)
  | .recvKill _ | .dial _ _ | .sendRead _ _ | .sendOut _ _ | .sendServer _ | .sendDead => True

def CanEnd (w : World) : Prop :=
  w.loop = .unwinding → Started w → ∀ op ∈ w.ops, Can w op

/-- While there is something left to clean up, no goroutine panics. -/
def SparesCleanup (s : Tracked) (a : Action) : Prop :=
  s.w.loop = .unwinding → Started s.w → s.w.ops ≠ [] → ¬ Panics s.w a

def remaining (kills deads : List PcRef) : List Op :=
  kills.map .sendKill ++ (deads.map .recvDead ++ [.sendDead])

structure Plan (kills deads : List PcRef) : Prop where
  killedOnce : (kills.map PcRef.addr).Nodup
  awaitedOnce : (deads.map PcRef.addr).Nodup
  awaited : ∀ k ∈ kills, ∃ d ∈ deads, d.addr = k.addr

structure Base (w : World) : Prop where
  refs : Refs w
  phased : ∀ addr, (w.pcs addr).Phased
  wired : ∀ addr, (w.pcs addr).Wired
  smDead : w.smDead.Mailbox
  looping : w.loop = .looping → w.smDead.buf = [] ∧ .sendDead ∉ w.ops
  left : w.loop = .unwinding → w.ops = [] ∨ w.smDead.buf = [] ∧
    ∃ kills deads, Plan kills deads ∧ w.ops = remaining kills deads

variable {token : Token} {w v : World} {a : Action} {op : Op} {addr : ℕ} {pc : PeerConn}

lemma settledStep_eq (h : settledStep token w a = some v) :
    quiet w a = true ∧ Network.step token w a = some v :=
  Option.ite_none_right_eq_some.mp h

lemma quiet_settled {b : PeerConn.Action} (h : quiet w (.pc addr b) = true) :
    (w.pcs addr).Settled b := by
  rintro (rfl | rfl)
  · exact beq_iff_eq.mp h
  · exact beq_iff_eq.mp h

section Moves

lemma wired_moves (hw : (w.pcs addr).Wired) (hq : quiet w a = true) (h : Moves w a addr pc) :
    pc.Wired := by
  cases h with
  | stays => exact hw
  | starts _ hr =>
    obtain ⟨hfresh, halive⟩ := hw.unasked (by rw [hr]; rfl)
    exact { hw with
      reader := nofun
      fresh := fun _ => hfresh
      asked := nofun
      alive := fun _ => halive }
  | acts ha he =>
    subst ha
    exact hw.effect (quiet_settled hq) he
  | takesKill _ _ _ hk =>
    exact { hw with
      cap := (Chan.drop_cap hk).trans hw.cap
      length := (Chan.drop_length hk).trans hw.length }
  | killed _ _ _ hk =>
    have hcap := (Chan.send_cap hk).trans hw.cap
    exact { hw with cap := hcap, length := (Chan.send_length hk).trans_eq hcap }
  | read => exact { hw with reads := fun hc => by rw [hw.reads hc] }
  | sent => exact { hw with }
  | takesDead _ _ _ hd =>
    exact { hw with
      dead := hw.dead.of_drop hd
      alive := fun hr => absurd (hw.alive hr) (Chan.ne_nil_of_drop hw.dead.open_ hd) }

lemma wired_new (addr : ℕ) (peerId : PeerId) (nat : PeerConn.DialPhase) :
    (PeerConn.new addr peerId nat).Wired where
  cap := rfl
  length := Nat.zero_le _
  sidebandKill := ⟨rfl, rfl⟩
  sidebandDead := ⟨rfl, rfl⟩
  dead := ⟨rfl, rfl⟩
  reads _ := rfl
  udpConn := nofun
  reader := nofun
  fresh _ := ⟨rfl, rfl⟩
  asked := nofun
  alive _ := rfl

lemma wired_step (hw : ∀ addr, (w.pcs addr).Wired) (h : settledStep token w a = some v) (addr : ℕ) :
    (v.pcs addr).Wired := by
  obtain ⟨hq, h⟩ := settledStep_eq h
  rcases step_moves h addr with ho | hm
  · obtain ⟨peerId, initiator, hpc⟩ := ho.pc
    rw [hpc]
    exact wired_new ..
  · exact wired_moves (hw addr) hq hm

lemma started_moves (h : Moves w a addr pc) (hr : (w.pcs addr).run ≠ .notStarted) :
    pc.run ≠ .notStarted := by
  cases h with
  | starts => exact nofun
  | acts _ he =>
    cases he with
    | @write _ ok => cases ok <;> exact nofun
    | recvOut | recvKill | closeKill | closeOut | killSideband | awaitSideband | reportDead =>
      exact nofun
    | _ => exact hr
  | _ => exact hr

lemma dies_before {p p' : Prop} (hw : (w.pcs addr).Wired) (hph : (w.pcs addr).Phased)
    (hs : (w.pcs addr).run ≠ .notStarted) (hp : p' → p)
    (hkill : ∀ ref, .sendKill ref ∈ w.ops.head? → ref.addr = addr → p) (h : Moves w a addr pc)
    (hd : pc.Dies p') : (w.pcs addr).Dies p := by
  cases h with
  | stays | read | sent => exact hd.of_same rfl id id .inl fun _ => Or.imp_right hp
  | starts _ hr => exact absurd hr hs
  | acts _ he => exact PeerConn.Dies.before hw hph hp he hd
  | takesKill _ _ _ hk =>
    refine hd.of_same rfl id id .inl fun _ => Or.imp (fun hb he => hb ?_) hp
    rw [Chan.drop_buf hk, he, List.tail_nil]
  | killed _ ho ha => exact hd.of_same rfl id id .inl fun _ _ => .inr (hkill _ ho ha)
  | takesDead _ _ _ hdead =>
    refine hd.of_same rfl id (fun hb he => hb ?_) .inl fun _ => Or.imp_right hp
    rw [Chan.drop_buf hdead, he, List.tail_nil]

lemma takesKill_before (hno : ∀ ref, .recvKill ref ∉ w.ops.head?) (h : Moves w a addr pc)
    (hk : pc.TakesKill) : (w.pcs addr).TakesKill := by
  cases h with
  | stays | read | sent | takesDead => exact hk.of_same rfl id
  | starts _ hr => exact ⟨by rw [hr]; rfl, fun hc => by cases hr.symm.trans hc⟩
  | acts _ he => exact hk.before he
  | takesKill _ ho => exact absurd ho (hno _)
  | killed _ _ _ hs => exact hk.of_same rfl fun hb => absurd hb (Chan.send_buf_ne_nil hs)

end Moves

section Base

lemma mem_remaining {kills deads : List PcRef} (h : op ∈ remaining kills deads) :
    (∃ pc ∈ kills, op = .sendKill pc) ∨ (∃ pc ∈ deads, op = .recvDead pc) ∨ op = .sendDead := by
  rcases List.mem_append.mp h with h | h
  · obtain ⟨pc, hpc, rfl⟩ := List.mem_map.mp h
    exact .inl ⟨pc, hpc, rfl⟩
  · rcases List.mem_append.mp h with h | h
    · obtain ⟨pc, hpc, rfl⟩ := List.mem_map.mp h
      exact .inr (.inl ⟨pc, hpc, rfl⟩)
    · exact .inr (.inr (List.mem_singleton.mp h))

lemma Plan.tail {kills deads : List PcRef} (hp : Plan kills deads)
    (ho : w.ops = remaining kills deads) : w.ops.tail = [] ∧ w.ops.head? = some .sendDead ∨
      .sendDead ∉ w.ops.head? ∧
        ∃ kills deads, Plan kills deads ∧ w.ops.tail = remaining kills deads := by
  cases kills with
  | cons pc kills =>
    refine .inr ⟨by rw [ho]; exact nofun, kills, deads, ⟨?_, hp.awaitedOnce, ?_⟩, by rw [ho]; rfl⟩
    · exact (List.nodup_cons.mp hp.killedOnce).2
    · exact fun k hk => hp.awaited k (List.mem_cons_of_mem _ hk)
  | nil =>
    cases deads with
    | cons pc deads =>
      refine .inr ⟨by rw [ho]; exact nofun, [], deads, ⟨List.nodup_nil, ?_, nofun⟩,
        by rw [ho]; rfl⟩
      exact (List.nodup_cons.mp hp.awaitedOnce).2
    | nil =>
      rw [ho]
      exact .inl ⟨rfl, rfl⟩

lemma filed_inj (hr : Refs w) {pid pid' : PeerId} {ref ref' : PcRef}
    (h : w.sm.peerConnMap.lookup pid = some ref) (h' : w.sm.peerConnMap.lookup pid' = some ref')
    (ha : ref.addr = ref'.addr) : pid = pid' := by
  obtain ⟨hk, rfl⟩ := hr.filed pid ref h
  obtain ⟨hk', rfl⟩ := hr.filed pid' ref' h'
  rw [← hk.2, ← hk'.2, ha]

lemma order_nodup (hr : Refs w) {order : PcOrder} (hi : Iterates w.sm.peerConnMap order) :
    ((order.map Sigma.snd).map PcRef.addr).Nodup := by
  rw [List.map_map]
  refine hi.nodup.map_on ?_
  rintro ⟨pid, ref⟩ hx ⟨pid', ref'⟩ hy ha
  have hl := hi.mem_iff.mp hx
  have hl' := hi.mem_iff.mp hy
  obtain rfl := filed_inj hr hl hl' ha
  obtain rfl := Option.some.inj (hl.symm.trans hl')
  rfl

lemma plan_cleanup (hr : Refs w) {o : Orders} (hv : o.Valid w.sm.peerConnMap) :
    Plan (o.first.map Sigma.snd) (o.second.map Sigma.snd) ∧
      cleanup o = remaining (o.first.map Sigma.snd) (o.second.map Sigma.snd) := by
  refine ⟨⟨order_nodup hr hv.1, order_nodup hr hv.2, fun k hk => ?_⟩, ?_⟩
  · obtain ⟨⟨pid, ref⟩, he, rfl⟩ := List.mem_map.mp hk
    refine ⟨ref, List.mem_map.mpr ⟨⟨pid, ref⟩, ?_, rfl⟩, rfl⟩
    exact hv.2.mem_iff.mpr (hv.1.mem_iff.mp he)
  · simp only [cleanup, remaining, List.map_map, List.append_assoc]
    rfl

lemma step_loop (h : Network.step token w a = some v) :
    v.loop = w.loop ∨ ∃ o, a = .takeKill o ∧ w.loop = .looping ∧ v.loop = .unwinding ∧
      o.Valid w.sm.peerConnMap := by
  cases step_effect h with
  | takeKill hl _ hv => exact .inr ⟨_, rfl, hl, rfl, hv⟩
  | op _ hd =>
    cases hd with
    | dial hd =>
      have hd' := (dial_dialed hd).loop
      exact .inl hd'
    | _ => exact .inl rfl
  | openConn hd => exact .inl (dial_dialed hd).loop
  | reconnect he => exact .inl (reconnect_aside he).loop
  | main he => exact .inl (main_aside he).loop
  | _ => exact .inl rfl

lemma step_smDead (h : Network.step token w a = some v) (hb : w.smDead.Mailbox) :
    v.smDead.Mailbox ∧ (w.smDead.buf = [] → v.smDead.buf = [] ∨
      a = .op ∧ .sendDead ∈ w.ops.head?) := by
  have hsame : v.smDead = w.smDead → v.smDead.Mailbox ∧ (w.smDead.buf = [] →
      v.smDead.buf = [] ∨ a = .op ∧ .sendDead ∈ w.ops.head?) := by
    intro he
    rw [he]
    exact ⟨hb, .inl⟩
  cases step_effect h with
  | op ho hd =>
    cases hd with
    | dial hd => exact hsame (dial_dialed hd).smDead
    | sendDead hs =>
      exact ⟨hb.of_send hs, fun _ => .inr ⟨rfl, List.head?_eq_some_iff.mpr ⟨_, ho⟩⟩⟩
    | _ => exact hsame rfl
  | openConn hd => exact hsame (dial_dialed hd).smDead
  | main he =>
    cases he with
    | recvSmDead _ hd =>
      refine ⟨hb.of_drop hd, fun he => .inl ?_⟩
      rw [Chan.drop_buf hd, he, List.tail_nil]
    | _ => exact hsame rfl
  | reconnect he => cases he <;> exact hsame rfl
  | _ => exact hsame rfl

lemma looping_step (hw : Base w) (h : Network.step token w a = some v)
    (hl : v.loop = .looping) : v.smDead.buf = [] ∧ .sendDead ∉ v.ops := by
  have hw' : w.loop = .looping := by
    rcases step_loop h with he | ⟨_, -, -, he, -⟩
    · rw [← he, hl]
    · cases hl.symm.trans he
  obtain ⟨hb, ho⟩ := hw.looping hw'
  constructor
  · refine ((step_smDead h hw.smDead).2 hb).resolve_right fun hd => ho ?_
    exact List.mem_of_mem_head? hd.2
  · rw [step_ops h]
    cases step_effect h with
    | takeEvent _ _ hv => exact fun hm => nomatch turn_issued hv hm
    | takeKill => cases hl
    | op => exact fun hm => ho (List.mem_of_mem_tail hm)
    | _ => exact ho

lemma unwinding_ops (h : Network.step token w a = some v) (hl : w.loop = .unwinding) :
    a ≠ .op ∧ v.ops = w.ops ∨ a = .op ∧ v.ops = w.ops.tail := by
  rw [step_ops h]
  cases step_effect h with
  | takeEvent hlo | takeKill hlo => cases hl.symm.trans hlo
  | op => exact .inr ⟨rfl, rfl⟩
  | _ => exact .inl ⟨nofun, rfl⟩

lemma left_step (hw : Base w) (h : Network.step token w a = some v)
    (hl : v.loop = .unwinding) : v.ops = [] ∨ v.smDead.buf = [] ∧
      ∃ kills deads, Plan kills deads ∧ v.ops = remaining kills deads := by
  have hdead := (step_smDead h hw.smDead).2
  rcases step_loop h with he | ⟨o, rfl, hlo, -, hv⟩
  · have hlw := he.symm.trans hl
    rcases hw.left hlw with ho | ⟨hb, kills, deads, hp, ho⟩
    · rcases unwinding_ops h hlw with ⟨-, hv⟩ | ⟨-, hv⟩
      · exact .inl (hv.trans ho)
      · exact .inl (by rw [hv, ho, List.tail_nil])
    · rcases unwinding_ops h hlw with ⟨ha, hv⟩ | ⟨-, hv⟩
      · exact .inr ⟨(hdead hb).resolve_right fun hd => ha hd.1, kills, deads, hp, hv.trans ho⟩
      · rcases hp.tail ho with ⟨ht, -⟩ | ⟨hn, kills, deads, hp, ht⟩
        · exact .inl (hv.trans ht)
        · exact .inr ⟨(hdead hb).resolve_right fun hd => hn hd.2, kills, deads, hp, hv.trans ht⟩
  · obtain ⟨hp, hc⟩ := plan_cleanup hw.refs hv
    refine .inr ⟨(hdead (hw.looping hlo).1).resolve_right fun hd => ?_, _, _, hp, ?_⟩
    · cases hd.1
    · exact (step_ops h).trans hc

lemma Base.step (hw : Base w) (h : settledStep token w a = some v) : Base v := by
  obtain ⟨-, hn⟩ := settledStep_eq h
  exact ⟨hw.refs.step hn, Closing.phased_step hw.phased hn, wired_step hw.wired h,
    (step_smDead hn hw.smDead).1, looping_step hw hn, left_step hw hn⟩

end Base

section Stuck

structure Hangs (w : World) (op : Op) : Prop extends Base w where
  loop : w.loop = .unwinding
  pending : op ∈ w.ops
  started : ∀ pc ∈ target op, (w.pcs pc.addr).run ≠ .notStarted
  cannot : ¬ Can w op

lemma can_of_done (hw : Base w) (h : Done w op v) : Can w op := by
  cases h with
  | @sendKill pc kill hs =>
    obtain ⟨⟨ho, hl⟩, -⟩ := Chan.send_eq_some.mp hs
    refine ⟨(hw.phased pc.addr).kill.symm.trans ho, fun _ => ?_⟩
    rw [(hw.wired pc.addr).cap] at hl
    exact List.eq_nil_of_length_eq_zero (Nat.lt_one_iff.mp hl)
  | @recvDead pc _ hd => exact .inl (Chan.ne_nil_of_drop (hw.wired pc.addr).dead.open_ hd)
  | _ => trivial

lemma no_recvKill (hw : Base w) (hl : w.loop = .unwinding) (ref : PcRef) :
    .recvKill ref ∉ w.ops := by
  intro hm
  rcases hw.left hl with ho | ⟨-, kills, deads, -, ho⟩
  · rw [ho] at hm
    cases hm
  · rw [ho] at hm
    rcases mem_remaining hm with ⟨_, -, he⟩ | ⟨_, -, he⟩ | he <;> cases he

lemma ops_subset (h : Network.step token w a = some v) (hl : w.loop = .unwinding) :
    v.ops ⊆ w.ops := by
  rcases unwinding_ops h hl with ⟨-, ho⟩ | ⟨-, ho⟩
  · rw [ho]
    exact List.Subset.refl _
  · rw [ho]
    exact List.tail_subset _

lemma can_before (hw : Hangs w op) (h : Network.step token w a = some v) (hc : Can v op) :
    Can w op := by
  cases op with
  | sendKill pc =>
    have hm := (hw.refs.pending _ hw.pending pc rfl).moves h
    refine takesKill_before (fun ref hr => ?_) hm hc
    exact no_recvKill hw.toBase hw.loop ref (List.mem_of_mem_head? hr)
  | recvDead pc =>
    have hm := (hw.refs.pending _ hw.pending pc rfl).moves h
    refine dies_before (hw.wired _) (hw.phased _) (hw.started pc rfl) ?_ ?_ hm hc
    · rintro ⟨ref, hr, ha⟩
      exact ⟨ref, ops_subset h hw.loop hr, ha⟩
    · exact fun ref hr ha => ⟨.sendKill ref, List.mem_of_mem_head? hr, ha⟩
  | _ => trivial

lemma Hangs.step (hw : Hangs w op) (h : settledStep token w a = some v) : Hangs v op := by
  obtain ⟨-, hn⟩ := settledStep_eq h
  refine ⟨hw.toBase.step h, ?_, ?_, fun pc ht => ?_, fun hc => hw.cannot (can_before hw hn hc)⟩
  · rcases step_loop hn with he | ⟨_, -, -, he, -⟩
    · exact he.trans hw.loop
    · exact he
  · rcases unwinding_ops hn hw.loop with ⟨-, ho⟩ | ⟨rfl, ho⟩
    · rw [ho]
      exact hw.pending
    · cases step_effect hn with
      | op hops hd =>
        have hp := hw.pending
        rw [hops] at hp
        rcases List.mem_cons.mp hp with rfl | hp
        · exact absurd (can_of_done hw.toBase hd) hw.cannot
        · exact hp
  · have hm := (hw.refs.pending _ hw.pending pc ht).moves hn
    exact started_moves hm (hw.started pc ht)

lemma Hangs.not_cleansUp (hw : Hangs w op) :
    ¬ CanReach (Steps (settledStep token)) (fun v => v.ops = []) w := by
  refine CanReach.not_of_invariant (Hangs · op) (fun _ _ _ hs h => hs.step h) hw fun s hs ho => ?_
  have hp := hs.pending
  rw [ho] at hp
  cases hp

end Stuck

section Ends

lemma quiet_of_settled {b : PeerConn.Action} (h : (w.pcs addr).Settled b) :
    quiet w (.pc addr b) = true := by
  cases b with
  | connect => exact beq_iff_eq.mpr (h (.inl rfl))
  | failConnect => exact beq_iff_eq.mpr (h (.inr rfl))
  | _ => rfl

lemma own_step {b : PeerConn.Action} (h : PeerConn.Own w.ch (w.pcs addr) b pc) :
    Steps (settledStep token) w (.pc addr b) (setPc addr pc w) := by
  rw [Steps, settledStep, if_pos (quiet_of_settled h.2), Network.step, h.1]
  rfl

lemma own_run (token : Token) {ch : Shared} {s c : PeerConn} {tr : List (PeerConn × PeerConn.Action)}
    (h : Run (PeerConn.Own ch) s tr c) (hch : w.ch = ch) (hs : w.pcs addr = s) :
    ∃ tr, Run (Steps (settledStep token)) w tr (setPc addr c w) := by
  induction h generalizing w with
  | nil =>
    refine ⟨[], ?_⟩
    rw [← hs, setPc, Function.update_eq_self]
    exact .nil
  | @cons s t u a tr he _ ih =>
    subst hch hs
    obtain ⟨tr', hr⟩ := ih (w := setPc addr t w) rfl (setPc_self ..)
    have hidem : setPc addr u (setPc addr t w) = setPc addr u w := by
      simp only [setPc, Function.update_idem]
    rw [hidem] at hr
    exact ⟨_, .cons (own_step he) hr⟩

lemma op_step {ops : List Op} (ho : w.ops = op :: ops) (h : doOp w op = some v) :
    Steps (settledStep token) w .op { v with ops } := by
  have hq : quiet w .op = true := rfl
  rw [Steps, settledStep, if_pos hq]
  simp only [Network.step, ho, h, Option.map_some]

structure Past (w v : World) (ops : List Op) (addr : ℕ) : Prop where
  ops : v.ops = ops
  loop : v.loop = w.loop
  pcs : ∀ addr', addr' ≠ addr → v.pcs addr' = w.pcs addr'

lemma dead_done (token : Token) {pc : PcRef} {ops : List Op} (hw : Base w)
    (ho : w.ops = .recvDead pc :: ops) (hd : (w.pcs pc.addr).Dies False) :
    ∃ tr v, Run (Steps (settledStep token)) w tr v ∧ Past w v ops pc.addr := by
  obtain ⟨_, c, hr, hc⟩ := hd.reports w.ch (hw.wired _)
  obtain ⟨tr, hr⟩ := own_run token hr rfl rfl
  obtain ⟨dead, hdead⟩ := Chan.drop_isSome hc
  have h : doOp (setPc pc.addr c w) (.recvDead pc) =
      some (setPc pc.addr { c with dead } (setPc pc.addr c w)) := by
    rw [doOp, setPc_self, hdead]
    rfl
  refine ⟨_, _, hr.snoc (op_step ho h), rfl, rfl, fun addr' ha => ?_⟩
  exact (setPc_of_ne ha ..).trans (setPc_of_ne ha ..)

lemma ends_deads (token : Token) {deads : List PcRef} (hw : Base w) (hl : w.loop = .unwinding)
    (ho : w.ops = remaining [] deads) (hn : (deads.map PcRef.addr).Nodup)
    (hd : ∀ pc ∈ deads, (w.pcs pc.addr).Dies False) :
    CanReach (Steps (settledStep token)) (fun v => v.ops = []) w := by
  induction deads generalizing w with
  | nil =>
    have hb : w.smDead.buf = [] := by
      refine ((hw.left hl).resolve_left ?_).1
      rw [ho]
      exact nofun
    obtain ⟨smDead, hs⟩ := hw.smDead.send_of_empty hb ()
    have h : doOp w .sendDead = some { w with smDead } := by
      rw [doOp, hs]
      rfl
    exact .next (op_step ho h) (.now rfl)
  | cons pc deads ih =>
    obtain ⟨hpc, hn⟩ := List.nodup_cons.mp hn
    obtain ⟨tr, v, hr, hp⟩ := dead_done token hw ho (hd pc List.mem_cons_self)
    have hv : Base v := hr.invariant_last (fun _ _ _ hs h => hs.step h) hw
    refine .after_run hr (ih hv (hp.loop.trans hl) hp.ops hn fun pc' hm => ?_)
    rw [hp.pcs _ fun ha => hpc (ha ▸ List.mem_map_of_mem hm)]
    exact hd pc' (List.mem_cons_of_mem _ hm)

lemma connecting_of_dies {p : Prop} (hw : pc.Wired) (hk : pc.TakesKill) (hd : pc.Dies p) :
    pc.Connecting ∧ (pc.run = .selecting ∨ pc.run = .closeKill) := by
  have hr : pc.run ≠ .returned := fun hr => by
    have ho := hk.open_
    rw [hr] at ho
    cases ho
  have h := hd.resolve_left fun hb => hb (hw.alive hr)
  have ho := hk.open_
  cases hrun : pc.run with
  | selecting =>
    rw [hrun] at h
    exact ⟨h.1, .inl rfl⟩
  | closeKill =>
    rw [hrun] at h
    exact ⟨h, .inr rfl⟩
  | notStarted | writing =>
    rw [hrun] at h
    exact h.elim
  | closeOut | killSideband | awaitSideband | reportDead | returned =>
    rw [hrun] at ho
    cases ho

lemma kill_sent (token : Token) {ref : PcRef} {ops : List Op} (hw : Base w)
    (ho : w.ops = .sendKill ref :: ops) (hk : (w.pcs ref.addr).run.killClosed = false)
    (hb : (w.pcs ref.addr).kill.buf = []) (hc : (w.pcs ref.addr).Connecting)
    (hr : (w.pcs ref.addr).run = .selecting ∨ (w.pcs ref.addr).run = .closeKill) :
    ∃ v, Steps (settledStep token) w .op v ∧ Past w v ops ref.addr ∧ (v.pcs ref.addr).Dies False := by
  obtain ⟨kill, hs⟩ := Option.isSome_iff_exists.mp (Chan.send_isSome (x := ()).mpr
    ⟨(hw.phased ref.addr).kill.trans hk, by rw [hb, (hw.wired _).cap]; exact Nat.zero_lt_one⟩)
  have h : doOp w (.sendKill ref) =
      some (setPc ref.addr { w.pcs ref.addr with kill } w) := by
    rw [doOp, hs]
    rfl
  have hdies : PeerConn.Dies { w.pcs ref.addr with kill } False := by
    refine .inr ?_
    rcases hr with hr | hr
    · simp only [hr]
      exact ⟨hc, .inl (Chan.send_buf_ne_nil hs)⟩
    · simp only [hr]
      exact hc
  have hself := setPc_self ref.addr { w.pcs ref.addr with kill } w
  rw [← hself] at hdies
  exact ⟨_, op_step ho h, ⟨rfl, rfl, fun addr' ha => setPc_of_ne ha ..⟩, hdies⟩

lemma kill_done (token : Token) {ref : PcRef} {ops : List Op} {p : Prop} (hw : Base w)
    (ho : w.ops = .sendKill ref :: ops) (hk : (w.pcs ref.addr).TakesKill)
    (hd : (w.pcs ref.addr).Dies p) : ∃ tr v, Run (Steps (settledStep token)) w tr v ∧
      Past w v ops ref.addr ∧ (v.pcs ref.addr).Dies False := by
  obtain ⟨hc, hr⟩ := connecting_of_dies (hw.wired _) hk hd
  by_cases hb : (w.pcs ref.addr).kill.buf = []
  · obtain ⟨v, hv, hp, hdies⟩ := kill_sent token hw ho hk.open_ hb hc hr
    exact ⟨_, v, .single hv, hp, hdies⟩
  · have hsel := hr.resolve_right fun h => hb (hk.room h)
    obtain ⟨kill, hdrop, hrecv⟩ := PeerConn.recvKill_step w.ch hsel hb
    have hstep : Steps (settledStep token) w (.pc ref.addr .recvKill)
        (setPc ref.addr { w.pcs ref.addr with kill, run := .closeKill } w) :=
      own_step ⟨hrecv, nofun⟩
    have hself := setPc_self ref.addr { w.pcs ref.addr with kill, run := .closeKill } w
    have hempty : kill.buf = [] := by
      rw [Chan.drop_buf hdrop, ← List.length_eq_zero_iff, List.length_tail]
      exact Nat.sub_eq_zero_of_le (hw.wired _).length
    obtain ⟨v, hv, hp, hdies⟩ := kill_sent token (hw.step hstep) ho (by rw [hself]; rfl)
      (by rw [hself]; exact hempty) (by rw [hself]; exact hc) (by rw [hself]; exact .inr rfl)
    refine ⟨_, v, .cons hstep (.single hv), ⟨hp.ops, hp.loop, fun addr' ha => ?_⟩, hdies⟩
    exact (hp.pcs addr' ha).trans (setPc_of_ne ha ..)

lemma ends_kills (token : Token) {kills deads : List PcRef} (hw : Base w)
    (hl : w.loop = .unwinding) (ho : w.ops = remaining kills deads) (hp : Plan kills deads)
    (hk : ∀ pc ∈ kills, (w.pcs pc.addr).TakesKill)
    (hd : ∀ pc ∈ deads, (w.pcs pc.addr).Dies (∃ k ∈ kills, k.addr = pc.addr)) :
    CanReach (Steps (settledStep token)) (fun v => v.ops = []) w := by
  induction kills generalizing w with
  | nil =>
    refine ends_deads token hw hl ho hp.awaitedOnce fun pc hm => ?_
    exact (hd pc hm).of_same rfl id id .inl fun _ => Or.imp_right fun ⟨k, hk, _⟩ => by cases hk
  | cons ref kills ih =>
    obtain ⟨hnot, hn⟩ := List.nodup_cons.mp hp.killedOnce
    obtain ⟨d, hdm, hda⟩ := hp.awaited ref List.mem_cons_self
    obtain ⟨tr, v, hr, hpast, hdies⟩ := kill_done token hw ho (hk ref List.mem_cons_self)
      (hda ▸ hd d hdm)
    have hv : Base v := hr.invariant_last (fun _ _ _ hs h => hs.step h) hw
    refine .after_run hr (ih hv (hpast.loop.trans hl) hpast.ops
      ⟨hn, hp.awaitedOnce, fun k hk => hp.awaited k (List.mem_cons_of_mem _ hk)⟩
      (fun pc hm => ?_) (fun pc hm => ?_))
    · rw [hpast.pcs _ fun ha => hnot (ha ▸ List.mem_map_of_mem hm)]
      exact hk pc (List.mem_cons_of_mem _ hm)
    · by_cases ha : pc.addr = ref.addr
      · rw [ha]
        exact hdies.of_same rfl id id .inl fun _ => Or.imp_right False.elim
      · rw [hpast.pcs _ ha]
        refine (hd pc hm).of_same rfl id id .inl fun _ => Or.imp_right fun ⟨k, hkm, hka⟩ => ?_
        rcases List.mem_cons.mp hkm with rfl | hkm
        · exact absurd hka.symm ha
        · exact ⟨k, hkm, hka⟩

end Ends

lemma canEnd_iff (token : Token) (hw : Base w) : CanEnd w ↔ (w.loop = .unwinding → Started w →
    CanReach (Steps (settledStep token)) (fun v => v.ops = []) w) := by
  symm
  constructor
  · intro h hl hs op ho
    by_contra hc
    exact Hangs.not_cleansUp ⟨hw, hl, ho, hs op ho, hc⟩ (h hl hs)
  · intro h hl hs
    rcases hw.left hl with ho | ⟨-, kills, deads, hp, ho⟩
    · exact .now ho
    · have hcan := h hl hs
      refine ends_kills token hw hl ho hp (fun pc hm => ?_) fun pc hm => ?_
      · refine hcan (.sendKill pc) ?_
        rw [ho]
        exact List.mem_append_left _ (List.mem_map_of_mem hm)
      · have hd := hcan (.recvDead pc) (by
          rw [ho]
          exact List.mem_append_right _ (List.mem_append_left _ (List.mem_map_of_mem hm)))
        refine hd.of_same rfl id id .inl fun _ => Or.imp_right fun ⟨k, hk, hka⟩ => ?_
        rw [ho] at hk
        rcases mem_remaining hk with ⟨k', hk', rfl⟩ | ⟨_, -, rfl⟩ | rfl
        · exact ⟨k', hk', hka⟩
        · cases hka
        · cases hka

lemma base_init (handles : ℕ) : Base (init handles) where
  refs := refs_init handles
  phased _ := ⟨rfl, rfl⟩
  wired _ := wired_new ..
  smDead := ⟨rfl, rfl⟩
  looping _ := ⟨rfl, nofun⟩
  left := nofun

section Crashes

variable {s t : Tracked}

lemma step_cases (h : step token s a = some t) : s.crashed = false ∧
    (Panics s.w a ∧ t = ⟨s.w, true⟩ ∨ settledStep token s.w a = some t.w ∧ t.crashed = false) := by
  obtain ⟨hn, h⟩ := Option.ite_none_left_eq_some.mp h
  have hn := Bool.eq_false_iff.mpr hn
  split_ifs at h with hp
  · exact ⟨hn, .inl ⟨hp, (Option.some.inj h).symm⟩⟩
  · obtain ⟨v, hv, rfl⟩ := Option.map_eq_some_iff.mp h
    exact ⟨hn, .inr ⟨hv, hn⟩⟩

lemma step_of_settled (h : settledStep token w a = some v) :
    step token ⟨w, false⟩ a = some ⟨v, false⟩ := by
  rw [step, if_neg Bool.false_ne_true, if_neg (step_not_panics (settledStep_eq h).2), h]
  rfl

lemma base_step (hs : Base s.w) (h : step token s a = some t) : Base t.w := by
  rcases (step_cases h).2 with ⟨-, rfl⟩ | ⟨h, -⟩
  · exact hs
  · exact hs.step h

lemma run_of_settled {tr : List (World × Action)} (h : Run (Steps (settledStep token)) w tr v) :
    ∃ tr, Run (Steps (step token)) ⟨w, false⟩ tr ⟨v, false⟩ := by
  induction h with
  | nil => exact ⟨[], .nil⟩
  | cons he _ ih =>
    obtain ⟨tr, hr⟩ := ih
    exact ⟨_, .cons (step_of_settled he) hr⟩

lemma settled_of_run {tr : List (Tracked × Action)} (h : Run (Steps (step token)) s tr t) :
    ∃ tr, Run (Steps (settledStep token)) s.w tr t.w := by
  induction h with
  | nil => exact ⟨[], .nil⟩
  | cons he _ ih =>
    obtain ⟨tr, hr⟩ := ih
    rcases (step_cases he).2 with ⟨-, rfl⟩ | ⟨h, -⟩
    · exact ⟨tr, hr⟩
    · exact ⟨_, .cons h hr⟩

lemma reach_iff (hs : s.crashed = false) :
    CanReach (Steps (step token)) (fun t => t.w.ops = []) s ↔
      CanReach (Steps (settledStep token)) (fun v => v.ops = []) s.w := by
  constructor
  · rintro ⟨_, t, hr, ht⟩
    obtain ⟨tr, hr⟩ := settled_of_run hr
    exact ⟨tr, t.w, hr, ht⟩
  · rintro ⟨_, v, hr, hv⟩
    obtain ⟨tr, hr⟩ := run_of_settled hr
    rw [← hs] at hr
    exact ⟨tr, _, hr, hv⟩

lemma reach_crashed (hs : s.crashed = true)
    (h : CanReach (Steps (step token)) (fun t => t.w.ops = []) s) : s.w.ops = [] := by
  obtain ⟨_, t, hr, ht⟩ := h
  cases hr with
  | nil => exact ht
  | cons he => cases hs.symm.trans (step_cases he).1

def EndedBefore (s : Tracked) : Prop :=
  s.crashed = true → s.w.loop = .unwinding → Started s.w → s.w.ops = []

lemma endedBefore_of_up (h : s.crashed = false) : EndedBefore s :=
  fun hc => by cases h.symm.trans hc

lemma cleansUp_iff (token : Token) (hs : Base s.w) :
    CleansUp token s ↔ CanEnd s.w ∧ EndedBefore s := by
  cases hc : s.crashed with
  | false =>
    rw [and_iff_left (endedBefore_of_up hc), canEnd_iff token hs, CleansUp, reach_iff hc]
  | true =>
    constructor
    · intro h
      have hends := fun hl hst => reach_crashed hc (h hl hst)
      refine ⟨fun hl hst op ho => ?_, fun _ => hends⟩
      rw [hends hl hst] at ho
      cases ho
    · exact fun h hl hst => .now (h.2 hc hl hst)

lemma endedBefore_iff {tr : List (Tracked × Action)} (h : Run (Steps (step token)) s tr t)
    (hs : s.crashed = false) : AllStates EndedBefore tr t ↔ AllSteps SparesCleanup tr := by
  refine h.all_states_iff EndedBefore (fun _ => id) (fun s a t hi he ha hc hl hst => ?_)
    (fun s a t _ he ha ht => ha fun hl hst ho hp => ho ?_) (endedBefore_of_up hs)
  · rcases (step_cases he).2 with ⟨hp, rfl⟩ | ⟨-, hn⟩
    · by_contra ho
      exact ha hl hst ho hp
    · cases hc.symm.trans hn
  · rcases (step_cases he).2 with ⟨-, rfl⟩ | ⟨hv, -⟩
    · exact ht rfl hl hst
    · exact absurd hp (step_not_panics (settledStep_eq hv).2)

end Crashes

section Samples

instance (addr : ℕ) : DecidablePred (Kills addr)
  | .sendKill _ => inferInstanceAs (Decidable (_ = _))
  | .recvKill _ | .dial _ _ | .sendRead _ _ | .sendOut _ _ | .sendServer _ | .recvDead _
  | .sendDead => inferInstanceAs (Decidable False)

instance (w : World) (addr : ℕ) : Decidable (KillPending w addr) :=
  inferInstanceAs (Decidable (∃ op ∈ w.ops, Kills addr op))

instance (w : World) : ∀ op, Decidable (Can w op)
  | .sendKill pc => inferInstanceAs (Decidable (w.pcs pc.addr).TakesKill)
  | .recvDead pc => inferInstanceAs (Decidable ((w.pcs pc.addr).Dies (KillPending w pc.addr)))
  | .recvKill _ | .dial _ _ | .sendRead _ _ | .sendOut _ _ | .sendServer _ | .sendDead =>
    inferInstanceAs (Decidable True)

instance (w : World) : Decidable (Started w) :=
  inferInstanceAs (Decidable (∀ op ∈ w.ops, ∀ pc ∈ target op, (w.pcs pc.addr).run ≠ .notStarted))

instance (w : World) : Decidable (CanEnd w) :=
  inferInstanceAs (Decidable (_ → Started w → ∀ op ∈ w.ops, Can w op))

def friendRuns : List Action :=
  [.openConn friend true, .takeEvent (.newPeerConn friendConn) ⟨[], []⟩, .op, .startRun 0]

def takesKill : List Action :=
  [.main .interrupt, .main .kill, .main .kill, .takeKill friendOnly, .op]

-- the reader gets to its first `Read` only after `nat.Connect` has returned a connection
def diesReading : List Action :=
  friendRuns ++ [.pc 0 .callRead] ++ takesKill ++ [.pc 0 .recvKill, .pc 0 .unwind, .pc 0 .unwind,
    .pc 0 .unwind, .pc 0 .killRead, .pc 0 .connect, .pc 0 (.read UdpPacket.zero.asUdpData),
    .pc 0 .sendLocal, .pc 0 .unwind, .pc 0 .unwind, .op, .op]

def connectedThenKilled : List Action := friendRuns ++ [.pc 0 .connect] ++ takesKill

end Samples

end XbTunnel.Daemon.Shutdown
