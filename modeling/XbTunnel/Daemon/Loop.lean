import XbTunnel.Daemon.Lan

/-! Frames that the daemon injects on one handle and captures again on another. The capture filter
lets them pass. -/

namespace XbTunnel.Daemon.Loop

open Common Udp Lib.Channels Lib.Maps Lib.Runs Lan

/-- `own` tells for each handle whether the frame it captured last came in through `lm.out`. -/
structure Tracked where
  lan : Lan.World
  own : HandleId → Bool
  looped : List UdpPacket

def start (handles : ℕ) : Tracked := ⟨init handles, fun _ => false, []⟩

def forwarding : LocalManager.PcapPhase → Option UdpPacket
  | .forwarding packet => some packet
  | .polling | .capturing | .registering _ | .returned => none

def ownAfter (s : Tracked) : Lan.Action → HandleId → Bool
  | .lm (.capture i _) => Function.update s.own i false
  | _ => s.own

def loops (s : Tracked) : Lan.Action → List UdpPacket
  | .lm (.forward i) => if s.own i then (forwarding (s.lan.lm.pcap i)).toList else []
  | _ => []

def lanStep (s : Tracked) (a : Lan.Action) : Option Tracked :=
  (Lan.step s.lan a).map fun lan => ⟨lan, ownAfter s a, s.looped ++ loops s a⟩

inductive Action
  | lan (a : Lan.Action)
  | recapture (i : HandleId) (k : ℕ) (payload : Bytes)

/-- `recapture i k payload` is `Next` on handle `i` with the frame that was injected as the `k`th,
on another handle. -/
def step (s : Tracked) : Action → Option Tracked
  | .lan a => lanStep s a
  | .recapture i k payload => do
    let (h, frame) ← s.lan.lm.injected[k]?
    if h = i then none
    else
      let lan ← Lan.step s.lan (.lm (.capture i ⟨frame, payload⟩))
      some { s with lan, own := Function.update s.own i true }

def NoLoop (s : Tracked) : Prop :=
  ¬ CanReach (Steps lanStep) (fun t => t.looped ≠ []) s

def stopped : LocalManager.RunPhase → Bool
  | .stopping _ | .returned => true
  | .selecting | .announcing _ => false

/-- No frame that `runpcap` captures as a broadcast can get past `lm.xboxes`. -/
structure Stuck (w : Lan.World) : Prop where
  stopped : stopped w.lm.run = true
  full : w.lm.xboxes.Full

def RecapturesNothing (s : Tracked) : Action → Prop
  | .lan _ => True
  | .recapture _ _ _ => Stuck s.lan

instance (w : Lan.World) : Decidable (Stuck w) :=
  decidable_of_iff (Loop.stopped w.lm.run = true ∧ w.lm.xboxes.Full)
    ⟨fun h => ⟨h.1, h.2⟩, fun h => ⟨h.stopped, h.full⟩⟩

instance (s : Tracked) : ∀ a, Decidable (RecapturesNothing s a)
  | .lan _ => .isTrue trivial
  | .recapture _ _ _ => inferInstanceAs (Decidable (Stuck s.lan))

structure Inv (s : Tracked) : Prop where
  learns : Learns s.lan
  looped : s.looped = []
  waits : ∀ i, s.own i = true → Stuck s.lan ∧ (registering (s.lan.lm.pcap i)).isSome

variable {s t : Tracked} {a : Action} {b : Lan.Action} {i : HandleId}

lemma waits_step {w v : Lan.World} (hs : Stuck w) (hr : (registering (w.lm.pcap i)).isSome)
    (h : Lan.step w b = some v) :
    Stuck v ∧ (registering (v.lm.pcap i)).isSome := by
  have hrun : ∀ phase, w.lm.run = phase → stopped phase = true := by
    rintro _ rfl
    exact hs.stopped
  have hpcap : ∀ {lm : LocalManager} (j : HandleId) (phase phase' : LocalManager.PcapPhase),
      lm.pcap = w.lm.pcap → w.lm.pcap j = phase → registering phase = none →
        (registering ((lm.setPcap j phase').pcap i)).isSome := by
    intro lm j phase phase' hlm hj hn
    have hij : i ≠ j := by
      rintro rfl
      rw [hj, hn] at hr
      cases hr
    rw [LocalManager.setPcap_of_ne hij, hlm]
    exact hr
  cases Lan.step_effect h with
  | lm he =>
    cases he with
    | recvOut hsel | recvXbox hsel | sendNewXbox hsel | recvKill hsel => cases hrun _ hsel
    | stopChild | sendDead => exact ⟨⟨rfl, hs.full⟩, hr⟩
    | @capture j _ _ hj => exact ⟨⟨hs.stopped, hs.full⟩, hpcap j _ _ rfl hj rfl⟩
    | @recvStop j _ hj | @poll j hj | @miss j hj =>
      exact ⟨⟨hs.stopped, hs.full⟩, hpcap j _ _ rfl hj rfl⟩
    | sendXbox _ hx =>
      rw [Chan.send_full hs.full] at hx
      cases hx
    | @forward j _ _ hj => exact ⟨⟨hs.stopped, hs.full⟩, hpcap j _ _ rfl hj rfl⟩
  | _ => exact ⟨⟨hs.stopped, hs.full⟩, hr⟩

lemma own_of_ownAfter (h : ownAfter s b i = true) : s.own i = true := by
  rw [ownAfter.eq_def] at h
  split at h
  · rename_i j _
    by_cases hij : i = j
    · rw [hij, Function.update_self] at h
      cases h
    · rwa [Function.update_of_ne hij] at h
  · exact h

lemma loops_eq_nil (hs : Inv s) : loops s b = [] := by
  rw [loops.eq_def]
  split
  · rename_i i
    split_ifs with hi
    · obtain ⟨packet, hp⟩ := Option.isSome_iff_exists.mp (hs.waits i hi).2
      cases hr : s.lan.lm.pcap i with
      | forwarding => rw [hr] at hp; cases hp
      | _ => rfl
    · rfl
  · rfl

lemma Inv.lanStep (hs : Inv s) (h : lanStep s b = some t) : Inv t := by
  obtain ⟨lan, hl, rfl⟩ := Option.map_eq_some_iff.mp h
  refine ⟨hs.learns.step hl, ?_, fun i hi => ?_⟩
  · simp only [hs.looped, loops_eq_nil hs, List.append_nil]
  · obtain ⟨hstuck, hr⟩ := hs.waits i (own_of_ownAfter hi)
    exact waits_step hstuck hr hl

lemma Inv.noLoop (hs : Inv s) : NoLoop s :=
  CanReach.not_of_invariant Inv (fun _ _ _ hi h => hi.lanStep h) hs
    fun _ hi hn => hn hi.looped

lemma recapture_eq {k : ℕ} {payload : Bytes} (hl : Learns s.lan)
    (h : step s (.recapture i k payload) = some t) : ∃ packet, Learns t.lan ∧
      t = { s with
        lan := ⟨s.lan.ch, s.lan.lm.setPcap i (.registering packet)⟩
        own := Function.update s.own i true } := by
  obtain ⟨⟨j, frame⟩, hm, h⟩ := Option.bind_eq_some_iff.mp h
  obtain ⟨-, h⟩ := Option.ite_none_left_eq_some.mp h
  obtain ⟨lan, hlan, h⟩ := Option.bind_eq_some_iff.mp h
  obtain rfl := Option.some.inj h
  obtain ⟨pkt, hd, rfl⟩ := hl.injected _ (List.mem_of_getElem? hm)
  have hl' := hl.step hlan
  cases Lan.step_effect hlan with
  | lm he =>
    cases he with
    | capture _ hp =>
      obtain rfl := Option.some.inj ((parse_transmitted pkt payload).symm.trans hp)
      have hb := (Xbox.isBroadcast_iff _).mpr hd
      rw [if_pos hb] at hl' ⊢
      exact ⟨_, hl', rfl⟩

lemma Inv.recapture {k : ℕ} {payload : Bytes} (hs : Inv s) (hstuck : Stuck s.lan)
    (h : step s (.recapture i k payload) = some t) : Inv t := by
  obtain ⟨packet, hl, rfl⟩ := recapture_eq hs.learns h
  refine ⟨hl, hs.looped, fun j hj => ⟨⟨hstuck.stopped, hstuck.full⟩, ?_⟩⟩
  by_cases hij : j = i
  · rw [hij, LocalManager.setPcap_self]
    rfl
  · rw [LocalManager.setPcap_of_ne hij]
    exact (hs.waits j ((Function.update_of_ne hij _ _).symm.trans hj)).2

section Forwarded

def Looped (s : Tracked) : Prop := s.looped ≠ []

variable {packet : UdpPacket}

lemma canReach_lm {a : LocalManager.Action} {r : Shared × LocalManager}
    (h : s.lan.lm.step s.lan.ch a = some r) (ht : CanReach (Steps lanStep) Looped
      ⟨⟨r.1, r.2⟩, ownAfter s (.lm a), s.looped ++ loops s (.lm a)⟩) :
    CanReach (Steps lanStep) Looped s := by
  refine .next (a := .lm a) ?_ ht
  simp only [Steps, lanStep, Lan.step, h, Option.map_some]

lemma loops_forwarding (ho : s.own i = true) (hp : s.lan.lm.pcap i = .forwarding packet) :
    CanReach (Steps lanStep) Looped s := by
  have hf : s.lan.lm.step .init (.forward i) =
      some ({ Shared.init with remoteChan := ⟨10, [packet], false⟩ },
        s.lan.lm.setPcap i .polling) := by
    simp only [LocalManager.step, hp]
    rfl
  refine .next (a := .others .init) rfl (canReach_lm hf (.now ?_))
  simp [Looped, loops, ownAfter, ho, hp, forwarding]

lemma loops_registering (hl : Learns s.lan) (ho : s.own i = true)
    (hp : s.lan.lm.pcap i = .registering packet) (hroom : s.lan.lm.xboxes.buf.length < 5) :
    CanReach (Steps lanStep) Looped s := by
  obtain ⟨xboxes, hx⟩ := Option.isSome_iff_exists.mp
    (Chan.send_isSome (x := ⟨packet.dst, i⟩).mpr ⟨hl.open_, hroom.trans_eq hl.cap.symm⟩)
  have hsend : s.lan.lm.step s.lan.ch (.sendXbox i) =
      some (s.lan.ch, { s.lan.lm with xboxes }.setPcap i (.forwarding packet)) := by
    simp only [LocalManager.step, hp, hx]
    rfl
  exact canReach_lm hsend (loops_forwarding ho (LocalManager.setPcap_self ..))

lemma loops_selecting (hl : Learns s.lan) (ho : s.own i = true)
    (hp : s.lan.lm.pcap i = .registering packet) (hr : s.lan.lm.run = .selecting) :
    CanReach (Steps lanStep) Looped s := by
  by_cases hroom : s.lan.lm.xboxes.buf.length < 5
  · exact loops_registering hl ho hp hroom
  · cases hb : s.lan.lm.xboxes.buf with
    | nil =>
      rw [hb] at hroom
      exact absurd (Nat.zero_lt_succ 4) hroom
    | cons xh rest =>
      have hlen := hl.length
      rw [hb] at hlen
      have hx := Chan.recv_eq_some.mpr ⟨rest, hb, rfl⟩
      have hrecv : s.lan.lm.step s.lan.ch .recvXbox = some (s.lan.ch, { s.lan.lm with
          xboxes := { s.lan.lm.xboxes with buf := rest }
          xboxHandleMap := if xh.x ∈ s.lan.lm.xboxHandleMap then s.lan.lm.xboxHandleMap
            else s.lan.lm.xboxHandleMap.insert xh.x xh.h
          run := .announcing xh.x }) := by
        simp only [LocalManager.step, if_pos hr, hx]
        rfl
      have hlan := congrArg (Option.map fun r => World.mk r.1 r.2) hrecv
      exact canReach_lm hrecv (loops_registering (hl.step (a := .lm .recvXbox) hlan) ho hp hlen)

lemma loops_of_not_stuck (hl : Learns s.lan) (ho : s.own i = true)
    (hp : s.lan.lm.pcap i = .registering packet) (hn : ¬ Stuck s.lan) :
    CanReach (Steps lanStep) Looped s := by
  cases hr : s.lan.lm.run with
  | selecting => exact loops_selecting hl ho hp hr
  | announcing x =>
    have hsend : s.lan.lm.step .init .sendNewXbox =
        some ({ Shared.init with newXboxChan := ⟨10, [x], false⟩ },
          { s.lan.lm with run := .selecting }) := by
      simp only [LocalManager.step, hr]
      rfl
    refine .next (a := .others .init) rfl (canReach_lm hsend ?_)
    exact loops_selecting ⟨hl.open_, hl.cap, hl.length, hl.registers, hl.queued, hl.known,
      hl.injected⟩ ho hp rfl
  | stopping | returned =>
    apply loops_registering hl ho hp
    by_contra hfull
    refine hn ⟨by rw [hr]; rfl, hl.open_, ?_⟩
    rw [hl.cap]
    exact Nat.le_of_not_lt hfull

end Forwarded

lemma recapture_not_noLoop {k : ℕ} {payload : Bytes} (hs : Inv s) (hn : ¬ Stuck s.lan)
    (h : step s (.recapture i k payload) = some t) : ¬ NoLoop t := by
  obtain ⟨packet, hl, rfl⟩ := recapture_eq hs.learns h
  refine fun hno => hno (loops_of_not_stuck hl (i := i) ?_ (LocalManager.setPcap_self ..) ?_)
  · exact Function.update_self ..
  · exact fun hst => hn ⟨hst.stopped, hst.full⟩

lemma inv_start (handles : ℕ) : Inv (start handles) := ⟨learns_init handles, rfl, nofun⟩

theorem no_loop_iff {handles : ℕ} {tr : List (Tracked × Action)} {u : Tracked}
    (h : Run (Steps step) (start handles) tr u) :
    AllStates NoLoop tr u ↔ AllSteps RecapturesNothing tr := by
  refine h.all_states_iff Inv (fun _ hi => hi.noLoop) (fun s a t hi hs ha => ?_)
    (fun s a t hi hs ha => ?_) (inv_start handles)
  · cases a with
    | lan b => exact hi.lanStep hs
    | recapture i k payload => exact hi.recapture ha hs
  · cases a with
    | lan b => exact absurd trivial ha
    | recapture i k payload => exact recapture_not_noLoop hi ha hs

section Samples

def injects : List Action :=
  (heardOn 0 ++ [.deliver remoteHello, takeNext]).map .lan

def stopsAndFills : List Action :=
  ([Lan.Action.kill, .lm .recvKill, .lm (.poll 1)] ++ (List.replicate 5
    [Lan.Action.lm (.capture 1 hello), .lm (.sendXbox 1), .lm (.forward 1),
      .lm (.poll 1)]).flatten).map .lan

theorem recapture_when_stuck : ∃ tr u,
    tr.map Prod.snd = injects ++ stopsAndFills ++ [.recapture 1 0 [1]] ∧
      Run (Steps step) (start 2) tr u ∧ AllStates NoLoop tr u := by
  obtain ⟨tr, u, ha, hr, hs⟩ := follow_decide step RecapturesNothing (start 2)
    (injects ++ stopsAndFills ++ [.recapture 1 0 [1]]) rfl
  exact ⟨tr, u, ha, hr, (no_loop_iff hr).mpr hs⟩

def comesBack : List Action :=
  injects ++ [.lan (.lm (.poll 1)), .recapture 1 0 [1], .lan (.lm (.sendXbox 1)),
    .lan (.lm (.forward 1))]

theorem remoteHello_comes_back : ∃ tr u, tr.map Prod.snd = comesBack ∧
    Run (Steps step) (start 2) tr u ∧ remoteHello ∈ u.lan.ch.remoteChan.buf ∧ ¬ NoLoop u := by
  have hend : (exec step (start 2) comesBack).any (fun u =>
      decide (remoteHello ∈ u.lan.ch.remoteChan.buf ∧ u.looped = [remoteHello])) = true := rfl
  obtain ⟨tr, u, ha, hr, hd⟩ := exec_any _ hend
  obtain ⟨hm, hl⟩ := of_decide_eq_true hd
  refine ⟨tr, u, ha, hr, hm, fun hn => hn (.now ?_)⟩
  rw [hl]
  exact List.cons_ne_nil _ _

end Samples

end XbTunnel.Daemon.Loop
