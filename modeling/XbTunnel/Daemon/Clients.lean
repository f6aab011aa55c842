import XbTunnel.Daemon.Outbox
import XbTunnel.Daemon.Reconnect
import XbTunnel.Daemon.Signals

/-! The clients that the reconnect goroutine makes, one after the other, and what they say to the
server. -/

namespace XbTunnel.Daemon

open Common Remote StateManager Lib.Channels Lib.Flows Lib.Runs

namespace Client

structure Pings (c : Client) : Prop where
  out : ∀ msg ∈ c.out.buf, msg = {}
  run : ∀ msg, c.run = .encoding msg → msg = {}

variable {token : Token} {ch ch' : Shared} {c c' : Client} {a : Action}

lemma pings_new : Pings newClient := ⟨nofun, nofun⟩

lemma Pings.effect (hc : c.Pings) (h : c.Effect token ch a ch' c') : c'.Pings := by
  cases h with
  | @recvOut msg out _ hr =>
    obtain ⟨rest, hb, rfl⟩ := Chan.recv_eq_some.mp hr
    have hmem : ∀ m ∈ msg :: rest, m = {} := hb ▸ hc.out
    refine ⟨fun m hm => hmem m (List.mem_cons_of_mem _ hm), fun m he => ?_⟩
    obtain rfl := RunPhase.encoding.inj he
    exact hmem _ List.mem_cons_self
  | ping _ hs =>
    refine ⟨fun m hm => ?_, nofun⟩
    rw [Chan.send_buf hs, List.mem_append, List.mem_singleton] at hm
    exact hm.elim (hc.out m) id
  | dial | failDial | encode | failEncode | tick | recvKill => exact ⟨hc.out, nofun⟩
  | _ => exact ⟨hc.out, hc.run⟩

def writes (c : Client) : Action → List ServerReq
  | .encode _ =>
    match c.run with
    | .encoding msg => [msg]
    | _ => []
  | _ => []

lemma Pings.writes (hc : c.Pings) {req : ServerReq} (h : req ∈ c.writes a) : req = {} := by
  cases a with
  | encode ok =>
    simp only [Client.writes] at h
    split at h
    · rename_i msg hr
      obtain rfl := List.mem_singleton.mp h
      exact hc.run _ hr
    · cases h
  | _ => cases h

end Client

namespace Clients

open Network Reconnect

def writes (w : World) : Network.Action → List ServerReq
  | .client k a => (w.clients k).writes a
  | _ => []

structure Inv (w : World) : Prop where
  base : Base w
  last : ∀ k, w.reconnect = .running k → k + 1 = w.nextClient
  unmade : ∀ k, w.nextClient ≤ k → w.clients k = newClient
  pings : ∀ k, (w.clients k).Pings

/-- Only the client that the variable `client` holds can still be running. -/
structure Alone (w : World) : Prop where
  unmade : ∀ k, w.nextClient ≤ k → w.clients k = newClient
  former : ∀ k, k + 1 < w.nextClient → (w.clients k).run = .returned
  current : ∀ k, k + 1 = w.nextClient → (w.clients k).run = .returned ∨ w.reconnect = .running k

variable {token : Token} {w v : World} {a : Network.Action} {c : Client} {k : ℕ}

lemma pings_setClient (hw : ∀ k, (w.clients k).Pings) (hc : c.Pings) (k' : ℕ) :
    ((setClient k c w).clients k').Pings := by
  by_cases hk : k' = k
  · rw [hk, setClient_self]
    exact hc
  · rw [setClient_of_ne hk]
    exact hw k'

lemma Inv.step (hi : Inv w) (h : Network.step token w a = some v) : Inv v := by
  have hb := hi.base.step h
  cases step_sides h with
  | apart _ ha =>
    exact ⟨hb, ha.reconnect ▸ ha.nextClient ▸ hi.last, ha.clients ▸ ha.nextClient ▸ hi.unmade,
      ha.clients ▸ hi.pings⟩
  | @client k b ch c hk he =>
    refine ⟨hb, hi.last, fun k' hk' => ?_, pings_setClient hi.pings ((hi.pings k).effect he)⟩
    have hne : k' ≠ k := (hk.trans_le hk').ne'
    exact (setClient_of_ne hne c { w with ch }).trans (hi.unmade k' hk')
  | reconnect he =>
    cases he with
    | recvKill | resolve | runReturned | wake => exact ⟨hb, nofun, hi.unmade, hi.pings⟩
    | newClient =>
      refine ⟨hb, fun k hk => ?_, fun k hk => ?_, pings_setClient hi.pings Client.pings_new⟩
      · obtain rfl := ReconnectPhase.running.inj hk
        rfl
      · have hne : k ≠ w.nextClient := (Nat.lt_of_succ_le hk).ne'
        exact (setClient_of_ne hne Daemon.newClient w).trans
          (hi.unmade k (Nat.le_of_succ_le hk))
  | main he =>
    cases he with
    | @killClient kill _ hn hs =>
      have hlast := hi.pings (w.nextClient - 1)
      refine ⟨hb, hi.last, fun k hk => ?_, pings_setClient hi.pings ⟨hlast.out, hlast.run⟩⟩
      have hne : k ≠ w.nextClient - 1 := by
        have hle : w.nextClient ≤ k := hk
        omega
      exact (setClient_of_ne hne { w.clients (w.nextClient - 1) with kill } w).trans
        (hi.unmade k hk)
    | _ => exact ⟨hb, hi.last, hi.unmade, hi.pings⟩

lemma inv_init (handles : ℕ) : Inv (Network.init handles) where
  base := (inv_start handles).base
  last := nofun
  unmade _ _ := rfl
  pings _ := Client.pings_new

lemma Inv.alone (hi : Inv w) : Alone w where
  unmade := hi.unmade
  former k hk := by
    by_contra hr
    have hlast := hi.last k (hi.base.alone k (Nat.lt_of_succ_lt hk) hr)
    exact hk.ne hlast
  current k hk := by
    by_cases hr : (w.clients k).run = .returned
    · exact .inl hr
    · exact .inr (hi.base.alone k (Nat.lt_of_succ_le hk.le) hr)

theorem clients_only_ping {handles : ℕ} {tr : List (World × Network.Action)} {u : World}
    (h : Run (Steps (Network.step token)) (Network.init handles) tr u) :
    AllStates Alone tr u ∧ ∀ req ∈ total writes tr, req = {} := by
  have hstep : ∀ s a t, Inv s → Steps (Network.step token) s a t → Inv t :=
    fun _ _ _ hi he => hi.step he
  obtain ⟨htr, hu⟩ := h.invariant hstep (inv_init handles)
  refine ⟨⟨fun p hp => (htr p hp).alone, hu.alone⟩, fun req hreq => ?_⟩
  obtain ⟨⟨w, a⟩, hp, hreq⟩ := List.mem_flatMap.mp hreq
  cases a with
  | client k a => exact ((htr _ hp).pings k).writes hreq
  | _ => cases hreq

theorem jam_never_ends {handles : ℕ} {tr tr' : List (World × Network.Action)} {u : World}
    (h : Run (Steps (Network.step token)) (Network.init handles) tr w) (hk : k < w.nextClient)
    (hj : Jammed (w.clients k)) (h' : Run (Steps (Network.step token)) w tr' u) :
    AllStates (fun v => Jammed (v.clients k) ∧ v.main ≠ .polling 0) tr' u := by
  have hi := h.invariant_last (fun _ _ _ hi he => Inv.step hi he) (inv_init handles)
  have hr : w.reconnect = .running k :=
    hi.base.alone k hk (by rw [hj.1]; exact nofun)
  have hstep : ∀ s a t, Stays k s ∧ Signals.Inv s → Steps (Network.step token) s a t →
      Stays k t ∧ Signals.Inv t := fun _ _ _ hi he => ⟨hi.1.step he, hi.2.step he⟩
  obtain ⟨htr, hu⟩ := h'.invariant hstep ⟨⟨hr, hj⟩, (Signals.run_inv h).2⟩
  have hends : ∀ v, Stays k v ∧ Signals.Inv v → Jammed (v.clients k) ∧ v.main ≠ .polling 0 := by
    rintro v ⟨hs, hv⟩
    refine ⟨hs.jammed, fun hm => ?_⟩
    have hret := (hv.heard.ended hm).2.2.2
    cases hs.reconnect.symm.trans hret
  exact ⟨fun p hp => hends _ (htr p hp), hends _ hu⟩

section Samples

def twoClients : List Network.Action :=
  [.reconnect .resolve, .reconnect .newClient, .client 0 (.dial true), .client 0 .tick,
    .client 0 .ping, .client 0 .recvOut, .client 0 (.encode true), .client 0 .failDecode,
    .client 0 .sendKill, .client 0 .recvKill, .reconnect .runReturned, .reconnect .wake,
    .reconnect .resolve, .reconnect .newClient, .client 1 (.dial true)]

theorem twoClients_ping : ∃ tr u, tr.map Prod.snd = twoClients ∧
    Run (Steps (Network.step sampleToken)) (Network.init 1) tr u ∧ AllStates Alone tr u ∧
    ∀ req ∈ total writes tr, req = {} := by
  have hend : (exec (Network.step sampleToken) (Network.init 1) twoClients).any (fun _ => true) =
    true := rfl
  obtain ⟨tr, u, ha, hr, -⟩ := exec_any _ hend
  exact ⟨tr, u, ha, hr, clients_only_ping hr⟩

def elevenTicks : List Network.Action :=
  [.reconnect .resolve, .reconnect .newClient, .client 0 (.dial true)] ++
    (List.replicate 10 [.client 0 .tick, .client 0 .ping]).flatten ++ [.client 0 .tick]

def interruptAfter : List Network.Action :=
  [.main .interrupt, .main .kill, .main .kill, .main .kill, .main .kill]

theorem elevenTicks_never_end : ∃ tr w tr' u, tr.map Prod.snd = elevenTicks ∧
    Run (Steps (Network.step sampleToken)) (Network.init 1) tr w ∧
    tr'.map Prod.snd = interruptAfter ∧ Run (Steps (Network.step sampleToken)) w tr' u ∧
    AllStates (fun v => Jammed (v.clients 0) ∧ v.main ≠ .polling 0) tr' u := by
  have hend : (exec (Network.step sampleToken) (Network.init 1) elevenTicks).any
      (fun w => decide (0 < w.nextClient ∧ Jammed (w.clients 0)) &&
        (exec (Network.step sampleToken) w interruptAfter).any fun _ => true) = true := rfl
  obtain ⟨tr, w, ha, hr, hw⟩ := exec_any _ hend
  obtain ⟨hj, hw⟩ := Bool.and_eq_true_iff.mp hw
  obtain ⟨tr', u, ha', hr', -⟩ := exec_any _ hw
  obtain ⟨hk, hj⟩ := of_decide_eq_true hj
  exact ⟨tr, w, tr', u, ha, hr, ha', hr', jam_never_ends hr hk hj hr'⟩

end Samples

end Clients

end XbTunnel.Daemon
