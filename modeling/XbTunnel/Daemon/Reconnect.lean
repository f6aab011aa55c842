import XbTunnel.Daemon.Moves

/-! The attempts to reach the server: how each can fail, and what the failure does to the goroutines
that still hold the client. -/

namespace XbTunnel.Daemon.Reconnect

open Common Lib.Channels Lib.Runs Network

/-- `nilRun` is set when `run` is called on the nil client of a name that was not resolved. -/
structure Tracked where
  w : World
  nilRun : Bool

def start (handles : ℕ) : Tracked := ⟨init handles, false⟩

def step (token : Token) (s : Tracked) (a : Action) : Option Tracked :=
  -- the panic of `run` ends the daemon
  if s.nilRun = true then none
  else match a with
    | .reconnect .failResolve =>
      if s.w.reconnect = .resolving then some { s with nilRun := true } else none
    | a => (Network.step token s.w a).map fun w => { s with w }

def Told (c : Client) : Prop := c.decoder = .killing ∨ c.kill.buf ≠ []

def Failed (c : Client) : Prop := c.run = .returned ∨ Told c

def Down (w : World) : Prop :=
  match w.reconnect with
  | .running k => Failed (w.clients k)
  | .sleeping => True
  | .selecting | .resolving | .returned => False

def LeadsBack (token : Token) (s : Tracked) : Prop :=
  Down s.w → CanReach (Steps (step token)) (fun t => t.w.reconnect = .selecting) s

def last (w : World) : Client := w.clients (w.nextClient - 1)

structure Survives (token : Token) (s : Tracked) : Prop where
  resolved : s.nilRun = false
  decoder : ∀ k, (s.w.clients k).decoder = .killing → (s.w.clients k).kill.closed = false
  pinger : ∀ k, (s.w.clients k).run = .pinging → (s.w.clients k).out.closed = false
  main : s.w.main = .killClient → s.w.nextClient ≠ 0 → (last s.w).kill.closed = false
  leadsBack : LeadsBack token s

def Jammed (c : Client) : Prop := c.run = .pinging ∧ c.out.Full

structure TakesFailure (c : Client) : Prop where
  kill : c.kill.closed = false
  run : ¬ Jammed c

structure ClosesUnused (w : World) (k : ℕ) : Prop where
  decoder : (w.clients k).decoder ≠ .killing
  main : w.main = .killClient → k ≠ w.nextClient - 1

structure KillsSafely (w : World) : Prop where
  next : w.main = .killLocalManager → w.nextClient ≠ 0 → (last w).kill.closed = false
  now : w.main = .killClient → ¬ Jammed (last w)

def StepsSafely (w : World) : Action → Prop
  | .client k .failDecode => TakesFailure (w.clients k)
  | .client k (.decode resp) => Client.received resp = .killing → TakesFailure (w.clients k)
  | .client k (.encode false) | .client k .recvKill => ClosesUnused w k
  | .client k .tick => Told (w.clients k) → ¬ (w.clients k).out.Full
  | .main .kill => KillsSafely w
  | .reconnect .failResolve => False
  | _ => True

def FailsSafely (s : Tracked) (a : Action) : Prop := StepsSafely s.w a

structure Ready (c : Client) : Prop where
  kill : c.kill.closed = true → c.run = .returned
  out : c.out.closed = true → c.run = .returned
  cap : c.kill.cap = 1

structure Base (w : World) : Prop where
  ready : ∀ k, Ready (w.clients k)
  made : ∀ k, w.reconnect = .running k → k < w.nextClient
  alone : ∀ k < w.nextClient, (w.clients k).run ≠ .returned → w.reconnect = .running k

structure Calm (w : World) : Prop where
  decoder : ∀ k, (w.clients k).decoder = .killing → (w.clients k).kill.closed = false
  main : w.main = .killClient → w.nextClient ≠ 0 → (last w).kill.closed = false
  free : ∀ k, w.reconnect = .running k → Told (w.clients k) → ¬ Jammed (w.clients k)

structure Inv (s : Tracked) : Prop where
  resolved : s.nilRun = false
  base : Base s.w
  calm : Calm s.w

structure Apart (w v : World) : Prop where
  clients : v.clients = w.clients
  nextClient : v.nextClient = w.nextClient
  reconnect : v.reconnect = w.reconnect
  main : v.main = w.main

inductive Sides (token : Token) (w : World) : Action → World → Prop
  | apart {a v} : StepsSafely w a → Apart w v → Sides token w a v
  | client {k b ch c} : k < w.nextClient → (w.clients k).Effect token w.ch b ch c →
      Sides token w (.client k b) (setClient k c { w with ch })
  | reconnect {b v} : ReconnectEffect w b v → Sides token w (.reconnect b) v
  | main {b v} : MainEffect w b v → Sides token w (.main b) v

variable {token : Token} {w v : World} {a : Action} {k : ℕ} {c c' : Client}
  {ch ch' : Shared} {b : Client.Action}

lemma apart_of_dialed (h : Dialed w v) : Apart w v :=
  ⟨h.clients, h.nextClient, h.reconnect, h.main⟩

lemma step_sides (h : Network.step token w a = some v) : Sides token w a v := by
  cases step_effect h with
  | op _ hd =>
    cases hd with
    | dial hd =>
      have ha := apart_of_dialed (dial_dialed hd)
      exact .apart trivial { ha with }
    | _ => exact .apart trivial ⟨rfl, rfl, rfl, rfl⟩
  | openConn hd => exact .apart trivial (apart_of_dialed (dial_dialed hd))
  | client hk he => exact .client hk he
  | reconnect he => exact .reconnect he
  | main he => exact .main he
  | _ => exact .apart trivial ⟨rfl, rfl, rfl, rfl⟩

@[simp] lemma setClient_self (k : ℕ) (c : Client) (w : World) : (setClient k c w).clients k = c :=
  Function.update_self ..

lemma setClient_of_ne {k k' : ℕ} (h : k' ≠ k) (c : Client) (w : World) :
    (setClient k c w).clients k' = w.clients k' :=
  Function.update_of_ne h ..

section Base

lemma Ready.open_ (hc : Ready c) (hr : c.run ≠ .returned) :
    c.kill.closed = false ∧ c.out.closed = false :=
  ⟨Bool.eq_false_iff.mpr (mt hc.kill hr), Bool.eq_false_iff.mpr (mt hc.out hr)⟩

lemma Ready.of_open (hk : c.kill.closed = false) (ho : c.out.closed = false)
    (hcap : c.kill.cap = 1) : Ready c :=
  ⟨fun h => Bool.noConfusion (hk.symm.trans h), fun h => Bool.noConfusion (ho.symm.trans h), hcap⟩

lemma Ready.effect (hc : Ready c) (h : c.Effect token ch b ch' c') : Ready c' := by
  have hopen : ∀ {r}, c.run = r → r ≠ .returned →
      c.kill.closed = false ∧ c.out.closed = false := by
    rintro _ rfl hr
    exact hc.open_ hr
  cases h with
  | dial hr | encode hr | tick hr =>
    obtain ⟨hk, ho⟩ := hopen hr nofun
    exact .of_open hk ho hc.cap
  | recvOut hr hout =>
    obtain ⟨hk, ho⟩ := hopen hr nofun
    exact .of_open hk ((Chan.recv_closed hout).trans ho) hc.cap
  | ping hr hout =>
    obtain ⟨hk, ho⟩ := hopen hr nofun
    exact .of_open hk ((Chan.send_closed hout).trans ho) hc.cap
  | failDial | failEncode => exact ⟨fun _ => rfl, fun _ => rfl, hc.cap⟩
  | recvKill _ hk => exact ⟨fun _ => rfl, fun _ => rfl, (Chan.drop_cap hk).trans hc.cap⟩
  | sendKill _ hk =>
    exact ⟨fun h => hc.kill ((Chan.send_closed hk).symm.trans h), hc.out,
      (Chan.send_cap hk).trans hc.cap⟩
  | _ => exact ⟨hc.kill, hc.out, hc.cap⟩

lemma returned_effect (h : c.Effect token ch b ch' c') (hr : c.run = .returned) :
    c'.run = .returned := by
  cases h with
  | failDial | failEncode | recvKill => rfl
  | dial hc | recvOut hc | encode hc | tick hc | ping hc => cases hr.symm.trans hc
  | _ => exact hr

lemma Ready.killed {kill : Chan Unit} (hc : Ready c) (h : c.kill.send () = some kill) :
    Ready { c with kill } :=
  ⟨fun hk => hc.kill ((Chan.send_closed h).symm.trans hk), hc.out,
    (Chan.send_cap h).trans hc.cap⟩

lemma ready_setClient (hw : ∀ k, Ready (w.clients k)) (hc : Ready c) (k' : ℕ) :
    Ready ((setClient k c w).clients k') := by
  by_cases hk : k' = k
  · rw [hk, setClient_self]
    exact hc
  · rw [setClient_of_ne hk]
    exact hw k'

lemma Base.step (hw : Base w) (h : Network.step token w a = some v) : Base v := by
  cases step_sides h with
  | apart _ ha =>
    refine ⟨fun k => ha.clients ▸ hw.ready k, fun k hr => ?_, fun k hk hr => ?_⟩
    · rw [ha.nextClient]
      exact hw.made k (ha.reconnect.symm.trans hr)
    · rw [ha.clients] at hr
      rw [ha.nextClient] at hk
      exact ha.reconnect.trans (hw.alone k hk hr)
  | @client k b ch c hk he =>
    refine ⟨ready_setClient hw.ready ((hw.ready k).effect he), hw.made, fun k' hk' hr => ?_⟩
    by_cases he' : k' = k
    · subst he'
      rw [setClient_self] at hr
      exact hw.alone k' hk (mt (returned_effect he) hr)
    · rw [setClient_of_ne he'] at hr
      exact hw.alone k' hk' hr
  | reconnect he =>
    cases he with
    | recvKill hr =>
      exact ⟨hw.ready, nofun, fun k hk hc => by cases hr.symm.trans (hw.alone k hk hc)⟩
    | newClient hr =>
      have hnew : Ready Daemon.newClient := ⟨nofun, nofun, rfl⟩
      refine ⟨ready_setClient hw.ready hnew, fun k hk => ?_, fun k hk hc => ?_⟩
      · cases hk
        exact Nat.lt_succ_self _
      · rcases Nat.lt_succ_iff_lt_or_eq.mp hk with hk | rfl
        · have hne : k ≠ w.nextClient := hk.ne
          have hc' : (w.clients k).run ≠ .returned := by
            rwa [← setClient_of_ne hne Daemon.newClient w]
          cases hr.symm.trans (hw.alone k hk hc')
        · rfl
    | runReturned hr hret =>
      refine ⟨hw.ready, nofun, fun k hk hc => ?_⟩
      cases hr.symm.trans (hw.alone k hk hc)
      exact absurd hret hc
    | resolve hr | wake hr =>
      exact ⟨hw.ready, nofun, fun k hk hc => by cases hr.symm.trans (hw.alone k hk hc)⟩
  | main he =>
    cases he with
    | killClient _ _ hs =>
      refine ⟨ready_setClient hw.ready ((hw.ready _).killed hs), hw.made, fun k hk hr => ?_⟩
      refine hw.alone k hk fun hret => hr ?_
      by_cases hl : k = w.nextClient - 1
      · subst hl
        exact (congrArg Client.run (setClient_self ..)).trans hret
      · exact (congrArg Client.run (setClient_of_ne hl ..)).trans hret
    | _ => exact ⟨hw.ready, hw.made, hw.alone⟩

end Base

section Calm

structure CalmAt (w : World) (k : ℕ) (c : Client) : Prop where
  decoder : c.decoder = .killing → c.kill.closed = false
  main : w.main = .killClient → k = w.nextClient - 1 → c.kill.closed = false
  free : w.reconnect = .running k → Told c → ¬ Jammed c

lemma Calm.at (hw : Calm w) (hk : k < w.nextClient) : CalmAt w k (w.clients k) where
  decoder := hw.decoder k
  main hm hl := by
    subst hl
    exact hw.main hm (Nat.ne_zero_of_lt hk)
  free := hw.free k

lemma calm_setClient_iff (hw : Calm w) (hk : k < w.nextClient) :
    Calm (setClient k c { w with ch }) ↔ CalmAt w k c := by
  constructor
  · intro h
    have hself : (setClient k c { w with ch }).clients k = c := setClient_self ..
    refine ⟨fun hd => ?_, fun hm hl => ?_, fun hr ht => ?_⟩
    · exact hself ▸ h.decoder k (hself.symm ▸ hd)
    · subst hl
      exact hself ▸ h.main hm (Nat.ne_zero_of_lt hk)
    · exact hself ▸ h.free k hr (hself.symm ▸ ht)
  · intro h
    refine ⟨fun k' hd => ?_, fun hm hn => ?_, fun k' hr ht => ?_⟩
    · by_cases hk' : k' = k
      · subst hk'
        rw [setClient_self] at hd ⊢
        exact h.decoder hd
      · rw [setClient_of_ne hk'] at hd ⊢
        exact hw.decoder k' hd
    · by_cases hl : w.nextClient - 1 = k
      · exact (congrArg (fun c : Client => c.kill.closed)
          (hl ▸ setClient_self ..)).trans (h.main hm hl.symm)
      · exact (congrArg (fun c : Client => c.kill.closed)
          (setClient_of_ne hl ..)).trans (hw.main hm hn)
    · by_cases hk' : k' = k
      · subst hk'
        rw [setClient_self] at ht ⊢
        exact h.free hr ht
      · rw [setClient_of_ne hk'] at ht ⊢
        exact hw.free k' hr ht

lemma CalmAt.of_run (hd : c.decoder = .killing → c.kill.closed = false)
    (hm : w.main = .killClient → k = w.nextClient - 1 → c.kill.closed = false)
    (hr : c.run ≠ .pinging) : CalmAt w k c :=
  ⟨hd, hm, fun _ _ hj => hr hj.1⟩

lemma CalmAt.of_decoder (h : CalmAt w k c) {decoder : Client.DecoderPhase}
    (hd : decoder ≠ .killing) : CalmAt w k { c with decoder } :=
  ⟨fun hd' => absurd hd' hd, h.main, fun hr ht => h.free hr (.inr (ht.resolve_left hd))⟩

lemma calmAt_close_iff (hd : c.decoder = (w.clients k).decoder) :
    CalmAt w k c.close ↔ ClosesUnused w k := by
  constructor
  · intro h
    refine ⟨fun hk => ?_, fun hm hl => ?_⟩
    · cases h.decoder (hd.trans hk)
    · cases h.main hm hl
  · intro h
    exact .of_run (fun hk => absurd (hd.symm.trans hk) h.decoder)
      (fun hm hl => absurd hl (h.main hm)) nofun

lemma calmAt_killing_iff (h : CalmAt w k c) (hr : c.run ≠ .returned → w.reconnect = .running k) :
    CalmAt w k { c with decoder := .killing } ↔ TakesFailure c := by
  constructor
  · intro h
    refine ⟨h.decoder rfl, fun hj => h.free (hr ?_) (.inl rfl) hj⟩
    rw [hj.1]
    exact nofun
  · exact fun ht => ⟨fun _ => ht.kill, h.main, fun _ _ hj => ht.run hj⟩

lemma client_calm_iff (hb : Base w) (hw : Calm w) (hk : k < w.nextClient)
    (he : (w.clients k).Effect token w.ch b ch c) :
    CalmAt w k c ↔ StepsSafely w (.client k b) := by
  have ha := hw.at hk
  have hr := hb.alone k hk
  cases he with
  | dial => exact iff_of_true (.of_run nofun ha.main nofun) trivial
  | failDial | recvOut | encode => exact iff_of_true (.of_run ha.decoder ha.main nofun) trivial
  | failEncode | recvKill => exact calmAt_close_iff rfl
  | tick hsel =>
    rw [hsel] at hr
    constructor
    · exact fun h ht hf => h.free (hr nofun) ht ⟨rfl, hf⟩
    · exact fun h => ⟨ha.decoder, ha.main, fun _ ht hj => h ht hj.2⟩
  | ping => exact iff_of_true (.of_run ha.decoder ha.main nofun) trivial
  | sendToken => exact iff_of_true ⟨ha.decoder, ha.main, ha.free⟩ trivial
  | @decode resp =>
    by_cases hd : Client.received resp = .killing
    · rw [hd]
      exact (calmAt_killing_iff ha hr).trans ⟨fun h _ => h, fun h => h hd⟩
    · exact iff_of_true (ha.of_decoder hd) fun h => absurd h hd
  | failDecode => exact calmAt_killing_iff ha hr
  | @sendLocalState _ pcSignal =>
    refine iff_of_true (ha.of_decoder ?_) trivial
    cases pcSignal <;> exact nofun
  | sendPcSignal => exact iff_of_true (ha.of_decoder nofun) trivial
  | sendKill hd hs =>
    have hopen := (Chan.send_closed hs).trans (ha.decoder hd)
    exact iff_of_true ⟨fun _ => hopen, fun _ _ => hopen, fun hrun _ hj => ha.free hrun (.inl hd) hj⟩
      trivial

lemma calm_newClient (hw : Calm w) :
    Calm { setClient w.nextClient Daemon.newClient w with
      nextClient := w.nextClient + 1, reconnect := .running w.nextClient } := by
  have hself := setClient_self w.nextClient Daemon.newClient w
  constructor
  · intro k hd
    by_cases hk : k = w.nextClient
    · subst hk
      exact congrArg (fun c : Client => c.kill.closed) hself
    · have hne := setClient_of_ne hk Daemon.newClient w
      exact (congrArg (fun c : Client => c.kill.closed) hne).trans
        (hw.decoder k ((congrArg Client.decoder hne).symm.trans hd))
  · intro _ _
    exact congrArg (fun c : Client => c.kill.closed) hself
  · intro k hr _ hj
    cases hr
    cases (congrArg Client.run hself).symm.trans hj.1

lemma calm_killClient_iff {kill : Chan Unit} (hb : Base w) (hw : Calm w) (hn : w.nextClient ≠ 0)
    (hs : (last w).kill.send () = some kill) :
    Calm { setClient (w.nextClient - 1) { last w with kill } w with main := .polling 3 } ↔
      ¬ Jammed (last w) := by
  have hself := setClient_self (w.nextClient - 1) { last w with kill } w
  constructor
  · intro h hj
    have hrun : (w.clients (w.nextClient - 1)).run = .pinging := hj.1
    have hr : w.reconnect = .running (w.nextClient - 1) := by
      apply hb.alone _ (Nat.sub_one_lt hn)
      rw [hrun]
      exact nofun
    exact h.free _ hr (hself.symm ▸ .inr (Chan.send_buf_ne_nil hs)) (hself.symm ▸ hj)
  · intro h
    refine ⟨fun k hd => ?_, nofun, fun k hr ht hj => ?_⟩
    · by_cases hk : k = w.nextClient - 1
      · subst hk
        exact (congrArg (fun c : Client => c.kill.closed) hself).trans (Chan.send_open hs)
      · have hne := setClient_of_ne hk { last w with kill } w
        exact (congrArg (fun c : Client => c.kill.closed) hne).trans
          (hw.decoder k ((congrArg Client.decoder hne).symm.trans hd))
    · by_cases hk : k = w.nextClient - 1
      · subst hk
        have hj' : Jammed { last w with kill } := hself ▸ hj
        exact h hj'
      · have hne := setClient_of_ne hk { last w with kill } w
        exact hw.free k hr (hne ▸ ht) (hne ▸ hj)

lemma calm_iff (hb : Base w) (hw : Calm w) (h : Network.step token w a = some v) :
    Calm v ↔ StepsSafely w a := by
  cases step_sides h with
  | apart hs ha =>
    refine iff_of_true ⟨?_, ?_, ?_⟩ hs
    · rw [ha.clients]
      exact hw.decoder
    · rw [ha.main, last, ha.clients, ha.nextClient]
      exact hw.main
    · rw [ha.reconnect, ha.clients]
      exact hw.free
  | client hk he => exact (calm_setClient_iff hw hk).trans (client_calm_iff hb hw hk he)
  | reconnect he =>
    cases he with
    | newClient => exact iff_of_true (calm_newClient hw) trivial
    | recvKill | resolve | runReturned | wake =>
      exact iff_of_true ⟨hw.decoder, hw.main, fun k hrun => by cases hrun⟩ trivial
  | main he =>
    cases he with
    | killLocalManager hm hs =>
      constructor
      · exact fun h => ⟨fun _ => h.main rfl, fun h => by cases hm.symm.trans h⟩
      · exact fun h => ⟨hw.decoder, fun _ => h.next hm, hw.free⟩
    | killClient hm hn hs =>
      refine (calm_killClient_iff hb hw hn hs).trans ⟨fun h => ⟨fun hm' => ?_, fun _ => h⟩, ?_⟩
      · cases hm.symm.trans hm'
      · exact fun h => h.now hm
    | interrupt | recvSmDead | recvLmDead | recvDead =>
      exact iff_of_true ⟨hw.decoder, nofun, hw.free⟩ trivial
    | killReconnect hm | killStateManager hm =>
      refine iff_of_true ⟨hw.decoder, nofun, hw.free⟩ ⟨fun h => ?_, fun h => ?_⟩
      · cases hm.symm.trans h
      · cases hm.symm.trans h

end Calm

section LeadsBack

variable {s t : Tracked}

def Looping (s : Tracked) : Prop := s.w.reconnect = .selecting

lemma step_of_network (hn : s.nilRun = false) (h : Network.step token s.w a = some v) :
    step token s a = some ⟨v, false⟩ := by
  rw [step, hn, if_neg Bool.false_ne_true, h]
  · rfl
  · rintro rfl
    cases h

lemma back_of_step (hn : s.nilRun = false) (h : Network.step token s.w a = some v)
    (hv : CanReach (Steps (step token)) Looping ⟨v, false⟩) :
    CanReach (Steps (step token)) Looping s := by
  refine .next (step_of_network hn h) hv

lemma back_of_client {r : Shared × Client} (hn : s.nilRun = false) (hk : k < s.w.nextClient)
    (h : (s.w.clients k).step token s.w.ch b = some r)
    (hr : CanReach (Steps (step token)) Looping ⟨setClient k r.2 { s.w with ch := r.1 }, false⟩) :
    CanReach (Steps (step token)) Looping s := by
  refine back_of_step hn (a := .client k b) ?_ hr
  rw [Network.step, if_pos hk, h]
  rfl

lemma back_sleeping (hn : s.nilRun = false) (hr : s.w.reconnect = .sleeping) :
    CanReach (Steps (step token)) Looping s := by
  have h : Network.step token s.w (.reconnect .wake) =
      some { s.w with reconnect := .selecting } := if_pos hr
  exact back_of_step hn h (.now rfl)

lemma back_returned (hn : s.nilRun = false) (hr : s.w.reconnect = .running k)
    (hret : (s.w.clients k).run = .returned) : CanReach (Steps (step token)) Looping s := by
  have h : Network.step token s.w (.reconnect .runReturned) =
      some { s.w with reconnect := .sleeping } := by
    simp only [Network.step, reconnectStep, hr, if_pos hret]
  exact back_of_step hn h (back_sleeping rfl rfl)

lemma back_killed (hn : s.nilRun = false) (hr : s.w.reconnect = .running k)
    (hk : k < s.w.nextClient) (hsel : (s.w.clients k).run = .selecting)
    (hbuf : (s.w.clients k).kill.buf ≠ []) : CanReach (Steps (step token)) Looping s := by
  obtain ⟨kill, hd⟩ := Chan.drop_isSome hbuf
  have h : (s.w.clients k).step token s.w.ch .recvKill =
      some (s.w.ch, { s.w.clients k with kill }.close) := by
    simp only [Client.step, hsel, hd]
    rfl
  refine back_of_client hn hk h (back_returned rfl hr ?_)
  rw [setClient_self]
  rfl

lemma back_told (hn : s.nilRun = false) (hr : s.w.reconnect = .running k)
    (hk : k < s.w.nextClient) (hc : Ready (s.w.clients k))
    (hsel : (s.w.clients k).run = .selecting) (ht : Told (s.w.clients k)) :
    CanReach (Steps (step token)) Looping s := by
  by_cases hbuf : (s.w.clients k).kill.buf = []
  · have hd := ht.resolve_right fun h => h hbuf
    have hopen := (hc.open_ (by rw [hsel]; exact nofun)).1
    have hroom : (s.w.clients k).kill.buf.length < (s.w.clients k).kill.cap := by
      rw [hbuf, hc.cap]
      exact Nat.zero_lt_one
    obtain ⟨kill, hs⟩ := Option.isSome_iff_exists.mp
      (Chan.send_isSome (x := ()).mpr ⟨hopen, hroom⟩)
    have h : (s.w.clients k).step token s.w.ch .sendKill =
        some (s.w.ch, { s.w.clients k with kill, decoder := .returned }) := by
      simp only [Client.step, hd, hs]
      rfl
    refine back_of_client hn hk h (back_killed rfl hr hk ?_ ?_)
    · rw [setClient_self]
      exact hsel
    · rw [setClient_self]
      exact Chan.send_buf_ne_nil hs
  · exact back_killed hn hr hk hsel hbuf

lemma leadsBack_of_calm (hn : s.nilRun = false) (hb : Base s.w) (hc : Calm s.w) :
    LeadsBack token s := by
  intro hd
  cases hr : s.w.reconnect with
  | selecting => exact .now hr
  | sleeping => exact back_sleeping hn hr
  | resolving | returned =>
    rw [Down, hr] at hd
    exact hd.elim
  | running k =>
    rw [Down, hr] at hd
    have hk := hb.made k hr
    cases hrun : (s.w.clients k).run with
    | returned => exact back_returned hn hr hrun
    | dialing =>
      have h : (s.w.clients k).step token s.w.ch (.dial false) =
          some (s.w.ch, { s.w.clients k with run := .returned }) := by
        simp only [Client.step, hrun]
        rfl
      exact back_of_client hn hk h (back_returned rfl hr (by rw [setClient_self]))
    | encoding msg =>
      have h : (s.w.clients k).step token s.w.ch (.encode false) =
          some (s.w.ch, (s.w.clients k).close) := by
        simp only [Client.step, hrun]
        rfl
      exact back_of_client hn hk h (back_returned rfl hr (by rw [setClient_self]; rfl))
    | selecting =>
      have ht := hd.resolve_left fun h => by cases hrun.symm.trans h
      exact back_told hn hr hk (hb.ready k) hrun ht
    | pinging =>
      have ht := hd.resolve_left fun h => by cases hrun.symm.trans h
      have hopen := ((hb.ready k).open_ fun h => by cases hrun.symm.trans h).2
      have hroom := Nat.lt_of_not_le fun hf => hc.free k hr ht ⟨hrun, hopen, hf⟩
      obtain ⟨out, hs⟩ := Option.isSome_iff_exists.mp
        (Chan.send_isSome (x := ({} : ServerReq)).mpr ⟨hopen, hroom⟩)
      have h : (s.w.clients k).step token s.w.ch .ping =
          some (s.w.ch, { s.w.clients k with out, run := .selecting }) := by
        simp only [Client.step, hrun, hs]
        rfl
      refine back_of_client hn hk h (back_told rfl hr hk ?_ ?_ ?_)
      · rw [setClient_self]
        have hkill := ((hb.ready k).open_ fun h => by cases hrun.symm.trans h).1
        exact .of_open hkill (Chan.send_open hs) (hb.ready k).cap
      · rw [setClient_self]
      · rw [setClient_self]
        exact ht

lemma step_cases (h : step token s a = some t) : s.nilRun = false ∧
    ((∃ v, Network.step token s.w a = some v ∧ t = ⟨v, false⟩) ∨
      a = .reconnect .failResolve ∧ t.nilRun = true ∧ t.w = s.w) := by
  obtain ⟨hn, h⟩ := Option.ite_none_left_eq_some.mp h
  have hn := Bool.eq_false_iff.mpr hn
  split at h
  · obtain ⟨-, h⟩ := Option.ite_none_right_eq_some.mp h
    obtain rfl := Option.some.inj h
    exact ⟨hn, .inr ⟨rfl, rfl, rfl⟩⟩
  · obtain ⟨v, hv, rfl⟩ := Option.map_eq_some_iff.mp h
    exact ⟨hn, .inl ⟨v, hv, by rw [hn]⟩⟩

lemma Jammed.effect (hj : Jammed c) (h : c.Effect token ch b ch' c') : Jammed c' := by
  cases h with
  | dial hr | failDial hr | recvOut hr | encode hr | failEncode hr | tick hr | recvKill hr =>
    cases hj.1.symm.trans hr
  | ping _ hs =>
    rw [Chan.send_full hj.2] at hs
    cases hs
  | _ => exact ⟨hj.1, hj.2⟩

structure Stays (k : ℕ) (w : World) : Prop where
  reconnect : w.reconnect = .running k
  jammed : Jammed (w.clients k)

lemma Stays.step (hw : Stays k w) (h : Network.step token w a = some v) : Stays k v := by
  have hr := hw.reconnect
  cases step_sides h with
  | apart _ ha => exact ⟨ha.reconnect.trans hr, ha.clients ▸ hw.jammed⟩
  | @client k' b ch c hk he =>
    refine ⟨hr, ?_⟩
    by_cases hk' : k = k'
    · subst hk'
      rw [setClient_self]
      exact hw.jammed.effect he
    · rw [setClient_of_ne hk']
      exact hw.jammed
  | reconnect he =>
    cases he with
    | recvKill hr' | resolve hr' | newClient hr' | wake hr' => cases hr.symm.trans hr'
    | runReturned hr' hret =>
      cases hr.symm.trans hr'
      cases hw.jammed.1.symm.trans hret
  | main he =>
    cases he with
    | @killClient kill _ _ hs =>
      refine ⟨hr, ?_⟩
      by_cases hl : k = w.nextClient - 1
      · subst hl
        have hj : Jammed { w.clients (w.nextClient - 1) with kill } := hw.jammed
        exact setClient_self .. ▸ hj
      · exact setClient_of_ne hl { last w with kill } w ▸ hw.jammed
    | _ => exact ⟨hr, hw.jammed⟩

lemma Stays.not_back (hw : Stays k s.w) :
    ¬ CanReach (Steps (Reconnect.step token)) Looping s := by
  refine CanReach.not_of_invariant (fun s => Stays k s.w) (fun s a t hs h => ?_) hw fun s hs hl => ?_
  · rcases (step_cases h).2 with ⟨v, hv, rfl⟩ | ⟨-, -, ht⟩
    · exact hs.step hv
    · exact ht ▸ hs
  · cases hs.reconnect.symm.trans hl

lemma Inv.survives (hs : Inv s) : Survives token s where
  resolved := hs.resolved
  decoder := hs.calm.decoder
  pinger k hr := ((hs.base.ready k).open_ (by rw [hr]; exact nofun)).2
  main := hs.calm.main
  leadsBack := leadsBack_of_calm hs.resolved hs.base hs.calm

lemma Survives.calm (hs : Survives token s) : Calm s.w where
  decoder := hs.decoder
  main := hs.main
  free k hr ht hj := by
    have hd : Down s.w := by
      rw [Down, hr]
      exact .inr ht
    exact Stays.not_back ⟨hr, hj⟩ (hs.leadsBack hd)

end LeadsBack

lemma inv_start (handles : ℕ) : Inv (start handles) :=
  ⟨rfl, ⟨fun _ => ⟨nofun, nofun, rfl⟩, nofun, fun _ hk => absurd hk (Nat.not_lt_zero _)⟩,
    ⟨nofun, nofun, nofun⟩⟩

section Samples

instance (c : Client) : Decidable (Jammed c) := inferInstanceAs (Decidable (_ ∧ _))

instance (c : Client) : Decidable (TakesFailure c) :=
  decidable_of_iff (c.kill.closed = false ∧ ¬ Jammed c)
    ⟨fun h => ⟨h.1, h.2⟩, fun h => ⟨h.kill, h.run⟩⟩

instance (w : World) (k : ℕ) : Decidable (ClosesUnused w k) :=
  decidable_of_iff ((w.clients k).decoder ≠ .killing ∧
      (w.main = .killClient → k ≠ w.nextClient - 1))
    ⟨fun h => ⟨h.1, h.2⟩, fun h => ⟨h.decoder, h.main⟩⟩

def failsTwice : List Action :=
  [.reconnect .resolve, .reconnect .newClient, .client 0 (.dial false), .reconnect .runReturned,
    .reconnect .wake, .reconnect .resolve, .reconnect .newClient, .client 1 (.dial true),
    .client 1 .failDecode, .client 1 .sendKill, .client 1 .recvKill, .reconnect .runReturned,
    .reconnect .wake]

def safely (s : Tracked) : Action → Bool
  | .client k .failDecode => decide (TakesFailure (s.w.clients k))
  | .client k .recvKill => decide (ClosesUnused s.w k)
  | .client _ (.dial _) | .client _ .sendKill => true
  | .reconnect a => decide (a ≠ .failResolve)
  | _ => false

lemma failsSafely_of_safely {s : Tracked} {a : Action} (h : safely s a = true) :
    FailsSafely s a := by
  rw [safely.eq_def] at h
  split at h
  · exact (of_decide_eq_true h : TakesFailure _)
  · exact (of_decide_eq_true h : ClosesUnused _ _)
  · trivial
  · trivial
  · rename_i a
    have hne : a ≠ .failResolve := of_decide_eq_true h
    cases a with
    | failResolve => exact absurd rfl hne
    | _ => trivial
  · cases h

def encodeThenDecode : List Action :=
  [.reconnect .resolve, .reconnect .newClient, .client 0 (.dial true), .client 0 .tick,
    .client 0 .ping, .client 0 .recvOut, .client 0 (.encode false), .client 0 .failDecode]

end Samples

end XbTunnel.Daemon.Reconnect
