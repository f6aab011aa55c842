import XbTunnel.Daemon.Closing

/-! The death of a connection: the handshakes of its deferred function with the shim's `Read`, and
when they can still be completed. -/

namespace XbTunnel.Daemon.PeerConn

open Common Udp Lib.Channels Lib.Runs Network

/-- `nat.Connect` does not read the sideband after it has returned. -/
def Settled (pc : PeerConn) (a : Action) : Prop :=
  a = .connect ∨ a = .failConnect → pc.reads = 0

def RunPhase.beforeSideband : RunPhase → Bool
  | .notStarted | .selecting | .writing _ | .closeKill | .closeOut | .killSideband => true
  | .awaitSideband | .reportDead | .returned => false

structure Wired (pc : PeerConn) : Prop where
  cap : pc.kill.cap = 1
  length : pc.kill.buf.length ≤ 1
  sidebandKill : pc.sidebandKill.Mailbox
  sidebandDead : pc.sidebandDead.Mailbox
  dead : pc.dead.Mailbox
  reads : ¬ pc.Connecting → pc.reads = 0
  udpConn : pc.udpConn = true → ¬ pc.Connecting
  reader : pc.reader = .killing → ¬ pc.Connecting
  fresh : pc.run.beforeSideband = true → pc.sidebandKill.buf = [] ∧ pc.sidebandDead.buf = []
  asked : pc.run = .awaitSideband → pc.sidebandDead.buf = [] → pc.sidebandKill.buf ≠ []
  alive : pc.run ≠ .returned → pc.dead.buf = []

def Dies (pc : PeerConn) (killPending : Prop) : Prop :=
  pc.dead.buf ≠ [] ∨ match pc.run with
    | .selecting => pc.Connecting ∧ (pc.kill.buf ≠ [] ∨ killPending)
    | .closeKill | .closeOut | .killSideband => pc.Connecting
    | .awaitSideband => pc.sidebandDead.buf ≠ [] ∨ pc.Connecting
    | .reportDead => True
    | .notStarted | .writing _ | .returned => False

structure TakesKill (pc : PeerConn) : Prop where
  open_ : pc.run.killClosed = false
  room : pc.run = .closeKill → pc.kill.buf = []

instance (pc : PeerConn) (p : Prop) [Decidable p] : Decidable (pc.Dies p) :=
  match h : pc.run with
  | .selecting => decidable_of_iff (pc.dead.buf ≠ [] ∨ pc.Connecting ∧ (pc.kill.buf ≠ [] ∨ p))
    (by rw [Dies, h])
  | .closeKill | .closeOut | .killSideband =>
    decidable_of_iff (pc.dead.buf ≠ [] ∨ pc.Connecting) (by rw [Dies, h])
  | .awaitSideband => decidable_of_iff (pc.dead.buf ≠ [] ∨ pc.sidebandDead.buf ≠ [] ∨ pc.Connecting)
    (by rw [Dies, h])
  | .reportDead => .isTrue (by rw [Dies, h]; exact .inr trivial)
  | .notStarted | .writing _ | .returned =>
    decidable_of_iff (pc.dead.buf ≠ [] ∨ False) (by rw [Dies, h])

instance (pc : PeerConn) : Decidable pc.TakesKill :=
  decidable_of_iff (pc.run.killClosed = false ∧ (pc.run = .closeKill → pc.kill.buf = []))
    ⟨fun h => ⟨h.1, h.2⟩, fun h => ⟨h.open_, h.room⟩⟩

variable {ch ch' : Shared} {pc pc' : PeerConn} {a : Action}

lemma not_connecting (hn : ∀ i, pc.nat ≠ .connecting i) : ¬ pc.Connecting := by
  rintro (h | h)
  · exact hn _ h
  · exact hn _ h

lemma Wired.unasked (hw : Wired pc) (hb : pc.run.beforeSideband = true) :
    (pc.sidebandKill.buf = [] ∧ pc.sidebandDead.buf = []) ∧ pc.dead.buf = [] := by
  refine ⟨hw.fresh hb, hw.alive fun hr => ?_⟩
  rw [hr] at hb
  cases hb

lemma Wired.effect (hw : Wired pc) (hs : Settled pc a) (h : Effect ch pc a ch' pc') :
    Wired pc' := by
  cases h with
  | callRead hn =>
    have hc : pc.Connecting := connecting_iff.mpr ⟨_, hn⟩
    exact { hw with reads := fun h => absurd hc h }
  | killRead hr hk hd =>
    exact { hw with
      sidebandKill := hw.sidebandKill.of_drop hk
      sidebandDead := hw.sidebandDead.of_send hd
      reads := fun hn => absurd (hw.reads hn) hr
      fresh := fun h => absurd (hw.fresh h).1 (Chan.ne_nil_of_drop hw.sidebandKill.open_ hk)
      asked := fun _ he => absurd he (Chan.send_buf_ne_nil hd) }
  | callWrite => exact hw
  | connect =>
    have hc : ¬ Connecting { pc with udpConn := true, nat := .returned } := not_connecting nofun
    exact { hw with reads := fun _ => hs (.inl rfl), udpConn := fun _ => hc, reader := fun _ => hc }
  | failConnect =>
    have hc : ¬ Connecting { pc with udpConn := false, nat := .failed } := not_connecting nofun
    exact { hw with reads := fun _ => hs (.inr rfl), udpConn := fun _ => hc, reader := fun _ => hc }
  | sendRemovePeer hn =>
    have hf : ¬ pc.Connecting := not_connecting (by rw [hn]; exact nofun)
    have hc : ¬ Connecting { pc with nat := .returned } := not_connecting nofun
    exact { hw with reads := fun _ => hw.reads hf, udpConn := fun _ => hc, reader := fun _ => hc }
  | recvOut hr =>
    obtain ⟨hfresh, halive⟩ := hw.unasked (by rw [hr]; rfl)
    exact { hw with fresh := fun _ => hfresh, asked := nofun, alive := fun _ => halive }
  | recvKill hr hk =>
    obtain ⟨hfresh, halive⟩ := hw.unasked (by rw [hr]; rfl)
    exact { hw with
      cap := (Chan.drop_cap hk).trans hw.cap
      length := (Chan.drop_length hk).trans hw.length
      fresh := fun _ => hfresh
      asked := nofun
      alive := fun _ => halive }
  | @write pkt ok hr =>
    obtain ⟨hfresh, halive⟩ := hw.unasked (by rw [hr]; rfl)
    cases ok
    · exact { hw with fresh := fun _ => hfresh, asked := nofun, alive := fun _ => halive }
    · exact { hw with fresh := fun _ => hfresh, asked := nofun, alive := fun _ => halive }
  | closeKill hr | closeOut hr =>
    obtain ⟨hfresh, halive⟩ := hw.unasked (by rw [hr]; rfl)
    exact { hw with fresh := fun _ => hfresh, asked := nofun, alive := fun _ => halive }
  | killSideband hr hk =>
    exact { hw with
      sidebandKill := hw.sidebandKill.of_send hk
      fresh := nofun
      asked := fun _ _ => Chan.send_buf_ne_nil hk
      alive := fun _ => hw.alive (by rw [hr]; exact nofun) }
  | awaitSideband hr hd =>
    exact { hw with
      sidebandDead := hw.sidebandDead.of_drop hd
      fresh := nofun
      asked := nofun
      alive := fun _ => hw.alive (by rw [hr]; exact nofun) }
  | reportDead _ hd =>
    exact { hw with
      dead := hw.dead.of_send hd
      fresh := nofun
      asked := nofun
      alive := fun h => absurd rfl h }
  | read | sendLocal => exact { hw with reader := nofun }
  | failRead _ hu => exact { hw with reader := fun _ => hw.udpConn hu }
  | sendKill _ hk =>
    have hcap := (Chan.send_cap hk).trans hw.cap
    exact { hw with
      cap := hcap
      length := (Chan.send_length hk).trans_eq hcap
      reader := nofun }

lemma Dies.of_same {p p' : Prop} (h : Dies pc' p') (hr : pc'.run = pc.run)
    (hc : pc'.Connecting → pc.Connecting)
    (hd : pc'.dead.buf ≠ [] → pc.dead.buf ≠ [])
    (hs : pc'.sidebandDead.buf ≠ [] → pc.sidebandDead.buf ≠ [] ∨ pc.Connecting)
    (hk : pc'.Connecting → pc'.kill.buf ≠ [] ∨ p' → pc.kill.buf ≠ [] ∨ p) : Dies pc p := by
  refine h.imp hd fun h => ?_
  rw [hr] at h
  cases hrun : pc.run with
  | selecting =>
    rw [hrun] at h
    exact ⟨hc h.1, hk h.1 h.2⟩
  | closeKill | closeOut | killSideband =>
    rw [hrun] at h
    exact hc h
  | awaitSideband =>
    rw [hrun] at h
    exact h.elim hs fun h => .inr (hc h)
  | reportDead => trivial
  | notStarted | writing | returned =>
    rw [hrun] at h
    exact h

lemma Dies.before {p p' : Prop} (hw : Wired pc) (hph : Phased pc) (hp : p' → p)
    (h : Effect ch pc a ch' pc') (hd : Dies pc' p') : Dies pc p := by
  have hsame : ∀ {c : PeerConn}, Dies c p' → c.run = pc.run → (c.Connecting → pc.Connecting) →
      c.dead = pc.dead → c.sidebandDead = pc.sidebandDead → c.kill = pc.kill → Dies pc p := by
    intro c hd hr hc hdead hs hk
    exact hd.of_same hr hc (by rw [hdead]; exact id) (by rw [hs]; exact .inl)
      fun _ => by rw [hk]; exact Or.imp_right hp
  cases h with
  | callRead | callWrite | read | failRead | sendLocal => exact hsame hd rfl id rfl rfl rfl
  | connect | failConnect | sendRemovePeer =>
    exact hsame hd rfl (fun hc => absurd hc (not_connecting fun _ => nofun)) rfl rfl rfl
  | killRead hr _ _ =>
    have hc : pc.Connecting := by_contra fun hn => hr (hw.reads hn)
    exact hd.of_same rfl id id (fun _ => .inr hc) fun _ => Or.imp_right hp
  | sendKill hr _ =>
    have hc := hw.reader hr
    exact hd.of_same rfl id id .inl fun hc' => absurd hc' hc
  | recvOut => exact .inl (hd.resolve_right id)
  | recvKill hr hk =>
    refine hd.imp id fun h => ?_
    rw [hr]
    have ho : pc.kill.closed = false := by
      rw [hph.kill, hr]
      rfl
    exact ⟨h, .inl (Chan.ne_nil_of_drop ho hk)⟩
  | @write pkt ok hr hu =>
    refine .inl (hd.resolve_right fun h => ?_)
    cases ok
    · exact hw.udpConn hu h
    · exact hw.udpConn hu h.1
  | closeKill hr | closeOut hr =>
    refine hd.imp id fun h => ?_
    rw [hr]
    exact h
  | killSideband hr =>
    refine hd.imp id fun h => ?_
    rw [hr]
    have hf := (hw.fresh (by rw [hr]; rfl)).2
    exact h.resolve_left fun hs => hs hf
  | awaitSideband hr hs =>
    refine .inr ?_
    rw [hr]
    exact .inl (Chan.ne_nil_of_drop hw.sidebandDead.open_ hs)
  | reportDead hr =>
    refine .inr ?_
    rw [hr]
    trivial

lemma TakesKill.of_same (h : TakesKill pc') (hr : pc'.run = pc.run)
    (hk : pc'.kill.buf = [] → pc.kill.buf = []) : TakesKill pc :=
  ⟨hr ▸ h.open_, fun hc => hk (h.room (hr.trans hc))⟩

lemma TakesKill.before (h : Effect ch pc a ch' pc') (hk : TakesKill pc') : TakesKill pc := by
  cases h with
  | recvOut hr | recvKill hr | write hr =>
    exact ⟨by rw [hr]; rfl, fun hc => by cases hr.symm.trans hc⟩
  | closeKill | closeOut | killSideband | awaitSideband | reportDead => cases hk.open_
  | sendKill _ hs => exact hk.of_same rfl fun hb => absurd hb (Chan.send_buf_ne_nil hs)
  | _ => exact hk.of_same rfl id

section Reports

def Own (ch : Shared) (pc : PeerConn) (a : Action) (pc' : PeerConn) : Prop :=
  pc.step ch a = some (ch, pc') ∧ Settled pc a

def Reported (pc : PeerConn) : Prop := pc.dead.buf ≠ []

lemma reports_next (hw : Wired pc) (h : pc.step ch a = some (ch, pc')) (hs : Settled pc a)
    (hr : Wired pc' → CanReach (Own ch) Reported pc') : CanReach (Own ch) Reported pc :=
  .next (show Own ch pc a pc' from ⟨h, hs⟩) (hr (hw.effect hs (step_effect h)))

lemma settled_of_ne (hc : a ≠ .connect) (hf : a ≠ .failConnect) : Settled pc a := by
  rintro (h | h)
  · exact absurd h hc
  · exact absurd h hf

lemma reports_unwind (hw : Wired pc) (h : pc.unwind = some pc')
    (hr : Wired pc' → CanReach (Own ch) Reported pc') : CanReach (Own ch) Reported pc :=
  reports_next hw (show pc.step ch .unwind = some (ch, pc') by rw [step, h, Option.map_some])
    (settled_of_ne nofun nofun) hr

lemma reports_reportDead (hw : Wired pc) (hr : pc.run = .reportDead) :
    CanReach (Own ch) Reported pc := by
  obtain ⟨dead, hs⟩ := hw.dead.send_of_empty (hw.alive fun h => by cases hr.symm.trans h) ()
  have h : pc.unwind = some { pc with dead, run := .returned } := by
    simp only [unwind, hr, hs]
    rfl
  exact reports_unwind hw h fun _ => .now (Chan.send_buf_ne_nil hs)

lemma reports_awaitSideband (hw : Wired pc) (hr : pc.run = .awaitSideband)
    (hb : pc.sidebandDead.buf ≠ []) : CanReach (Own ch) Reported pc := by
  obtain ⟨sidebandDead, hd⟩ := Chan.drop_isSome hb
  have h : pc.unwind = some { pc with sidebandDead, run := .reportDead } := by
    simp only [unwind, hr, hd]
    rfl
  exact reports_unwind hw h fun hw' => reports_reportDead hw' rfl

lemma callRead_step (ch : Shared) (hc : pc.Connecting) :
    pc.step ch .callRead = some (ch, { pc with reads := pc.reads + 1 }) := by
  obtain ⟨i, hn⟩ := connecting_iff.mp hc
  simp only [step, hn]

lemma killRead_step (ch : Shared) {sidebandKill sidebandDead : Chan Unit} (hr : pc.reads ≠ 0)
    (hk : pc.sidebandKill.drop = some sidebandKill)
    (hd : pc.sidebandDead.send () = some sidebandDead) :
    pc.step ch .killRead =
      some (ch, { pc with sidebandKill, sidebandDead, reads := pc.reads - 1 }) := by
  simp only [step, if_neg hr, hk, hd]
  rfl

lemma reports_killRead (hw : Wired pc) (hr : pc.run = .awaitSideband) (hc : pc.Connecting) :
    CanReach (Own ch) Reported pc := by
  by_cases hb : pc.sidebandDead.buf = []
  · obtain ⟨sidebandKill, hk⟩ := Chan.drop_isSome (hw.asked hr hb)
    obtain ⟨sidebandDead, hd⟩ := hw.sidebandDead.send_of_empty hb ()
    refine reports_next hw (callRead_step ch hc) (settled_of_ne nofun nofun) fun hw => ?_
    refine reports_next hw (killRead_step ch (Nat.succ_ne_zero _) hk hd)
      (settled_of_ne nofun nofun) fun hw => ?_
    exact reports_awaitSideband hw hr (Chan.send_buf_ne_nil hd)
  · exact reports_awaitSideband hw hr hb

lemma reports_killSideband (hw : Wired pc) (hr : pc.run = .killSideband) (hc : pc.Connecting) :
    CanReach (Own ch) Reported pc := by
  have hb := (hw.fresh (by rw [hr]; rfl)).1
  obtain ⟨sidebandKill, hk⟩ := hw.sidebandKill.send_of_empty hb ()
  have h : pc.unwind = some { pc with sidebandKill, run := .awaitSideband } := by
    simp only [unwind, hr, hk]
    rfl
  exact reports_unwind hw h fun hw => reports_killRead hw rfl hc

lemma reports_closeOut (hw : Wired pc) (hr : pc.run = .closeOut) (hc : pc.Connecting) :
    CanReach (Own ch) Reported pc := by
  have h : pc.unwind = some { pc with out := pc.out.close, run := .killSideband } := by
    simp only [unwind, hr]
  exact reports_unwind hw h fun hw => reports_killSideband hw rfl hc

lemma reports_closeKill (hw : Wired pc) (hr : pc.run = .closeKill) (hc : pc.Connecting) :
    CanReach (Own ch) Reported pc := by
  have h : pc.unwind = some { pc with kill := pc.kill.close, run := .closeOut } := by
    simp only [unwind, hr]
  exact reports_unwind hw h fun hw => reports_closeOut hw rfl hc

lemma recvKill_step (ch : Shared) (hr : pc.run = .selecting) (hb : pc.kill.buf ≠ []) : ∃ kill,
    pc.kill.drop = some kill ∧
      pc.step ch .recvKill = some (ch, { pc with kill, run := .closeKill }) := by
  obtain ⟨kill, hd⟩ := Chan.drop_isSome hb
  refine ⟨kill, hd, ?_⟩
  simp only [step, hr, hd]
  rfl

lemma Dies.reports (ch : Shared) (hw : Wired pc) (h : Dies pc False) :
    CanReach (Own ch) Reported pc := by
  rcases h with h | h
  · exact .now h
  cases hr : pc.run with
  | selecting =>
    rw [hr] at h
    obtain ⟨kill, -, hs⟩ := recvKill_step ch hr (h.2.resolve_right id)
    exact reports_next hw hs (settled_of_ne nofun nofun) fun hw => reports_closeKill hw rfl h.1
  | closeKill =>
    rw [hr] at h
    exact reports_closeKill hw hr h
  | closeOut =>
    rw [hr] at h
    exact reports_closeOut hw hr h
  | killSideband =>
    rw [hr] at h
    exact reports_killSideband hw hr h
  | awaitSideband =>
    rw [hr] at h
    exact h.elim (reports_awaitSideband hw hr) (reports_killRead hw hr)
  | reportDead => exact reports_reportDead hw hr
  | notStarted | writing | returned =>
    rw [hr] at h
    exact h.elim

end Reports

end XbTunnel.Daemon.PeerConn
