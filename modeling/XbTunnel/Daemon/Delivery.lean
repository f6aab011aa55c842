import XbTunnel.Daemon.Lan

/-! On which handles a packet of `lm.out` is injected. The local manager files the handle of a
captured broadcast under its destination, not under the console that sent it. -/

namespace XbTunnel.Daemon.Delivery

open Common Udp Lib.Channels Lib.Maps Lib.Runs Lan

/-- The broadcast frames so far, each with its sender and the handle that captured it: `captured` by
`runpcap`, `queued` in `lm.xboxes` and `processed` by `run`. -/
structure History where
  captured : List (Xbox × HandleId)
  queued : List (Xbox × HandleId)
  processed : List (Xbox × HandleId)

structure Tracked where
  lan : Lan.World
  heard : History

def start (handles : ℕ) : Tracked := ⟨init handles, [], [], []⟩

def broadcastsOf (packet : Option UdpPacket) (i : HandleId) : List (Xbox × HandleId) :=
  (packet.filter fun packet => packet.dst.isBroadcast).toList.map fun packet => (packet.src, i)

def record (s : Tracked) : Action → History
  | .lm (.capture i pkt) =>
    { s.heard with captured := s.heard.captured ++ broadcastsOf (parsePcapPacket pkt) i }
  | .lm (.sendXbox i) =>
    { s.heard with
      queued := s.heard.queued ++ broadcastsOf (registering (s.lan.lm.pcap i)) i }
  | .lm .recvXbox =>
    { s.heard with
      queued := s.heard.queued.tail
      processed := s.heard.processed ++ s.heard.queued.head?.toList }
  | _ => s.heard

def step (s : Tracked) (a : Action) : Option Tracked :=
  (Lan.step s.lan a).map fun lan => ⟨lan, record s a⟩

structure Reaches (s : Tracked) (dst : Xbox) (handles : List HandleId) : Prop where
  broadcast : dst.isBroadcast = true → ∀ h,
    handles.count h = if ∃ p ∈ s.heard.processed, p.2 = h then 1 else 0
  known : dst.isBroadcast = false → (∃ p ∈ s.heard.processed, p.1 = dst) →
    ∃ p, s.heard.captured.find? (fun p => p.1 = dst) = some p ∧ handles = [p.2]
  unknown : dst.isBroadcast = false → (∀ p ∈ s.heard.processed, p.1 ≠ dst) → handles = []

def taken (s : Tracked) : Action → Option UdpPacket
  | .lm (.recvOut _) => s.lan.lm.out.buf.head?
  | _ => none

def Delivers (s : Tracked) (a : Action) : Prop :=
  ∀ t, step s a = some t → match taken s a with
    | some pkt => ∃ handles, Reaches s pkt.dst handles ∧ t.lan.lm.injected =
        s.lan.lm.injected ++ handles.map fun h => (h, LocalManager.transmitted pkt)
    | none => t.lan.lm.injected = s.lan.lm.injected

def Fits (s : Tracked) (dst : Xbox) : Prop :=
  if dst.isBroadcast then ∀ p ∈ s.heard.processed, ∀ q ∈ s.heard.processed, p.2 = q.2
  else ∀ p ∈ s.heard.processed, p.1 ≠ dst

def TakesFitting (s : Tracked) (a : Action) : Prop := ∀ pkt ∈ taken s a, Fits s pkt.dst

instance (s : Tracked) (dst : Xbox) : Decidable (Fits s dst) :=
  inferInstanceAs (Decidable (if dst.isBroadcast then _ else _))

instance (s : Tracked) (a : Action) : Decidable (TakesFitting s a) :=
  inferInstanceAs (Decidable (∀ pkt ∈ taken s a, Fits s pkt.dst))

structure Inv (s : Tracked) : Prop where
  learns : Learns s.lan
  queue : s.lan.lm.xboxes.buf = s.heard.queued.map fun p => ⟨broadcast, p.2⟩
  first : s.lan.lm.xboxHandleMap.lookup broadcast = s.heard.processed.head?.map Prod.snd

variable {s t : Tracked} {a : Action}

lemma broadcastsOf_registering {packet : UdpPacket} {phase : LocalManager.PcapPhase}
    (h : phase = .registering packet) (hb : packet.dst = broadcast) (i : HandleId) :
    broadcastsOf (registering phase) i = [(packet.src, i)] := by
  have hd := (Xbox.isBroadcast_iff _).mpr hb
  rw [h, registering, broadcastsOf, Option.filter_some, if_pos hd]
  rfl

lemma insert_first {m : Map Xbox HandleId} {processed : List (Xbox × HandleId)}
    (h : m.lookup broadcast = processed.head?.map Prod.snd) (p : Xbox × HandleId) :
    (if broadcast ∈ m then m else m.insert broadcast p.2).lookup broadcast =
      (processed ++ [p]).head?.map Prod.snd := by
  cases processed with
  | nil =>
    have hn : broadcast ∉ m := Finmap.lookup_eq_none.mp h
    rw [if_neg hn, Finmap.lookup_insert]
    rfl
  | cons q rest =>
    have hm : broadcast ∈ m := Finmap.mem_of_lookup_eq_some h
    rw [if_pos hm, h]
    rfl

lemma Inv.step (hs : Inv s) (h : step s a = some t) : Inv t := by
  obtain ⟨lan, hl, rfl⟩ := Option.map_eq_some_iff.mp h
  refine ⟨hs.learns.step hl, ?_, ?_⟩
  · cases Lan.step_effect hl with
    | lm he =>
      cases he with
      | recvXbox _ hr =>
        obtain ⟨p, queued, hq, -, hrest⟩ := Chan.recv_history hr hs.queue
        simp only [record, hq, List.tail_cons, hrest]
      | @sendXbox i packet xboxes hr hx =>
        obtain ⟨-, rfl⟩ := Chan.send_eq_some.mp hx
        have hd := hs.learns.registers i packet (hr ▸ rfl)
        simp only [record]
        rw [broadcastsOf_registering hr hd, List.map_append, ← hs.queue, hd]
        rfl
      | _ => exact hs.queue
    | _ => exact hs.queue
  · cases Lan.step_effect hl with
    | lm he =>
      cases he with
      | recvXbox _ hr =>
        obtain ⟨p, queued, hq, rfl, -⟩ := Chan.recv_history hr hs.queue
        simp only [record, hq]
        exact insert_first hs.first p
      | _ => exact hs.first
    | _ => exact hs.first

lemma inv_start (handles : ℕ) : Inv (start handles) := ⟨learns_init handles, rfl, rfl⟩

lemma head_only_iff {l : List (Xbox × HandleId)} :
    (∀ h, l.head?.map Prod.snd = some h ↔ ∃ p ∈ l, p.2 = h) ↔
      ∀ p ∈ l, ∀ q ∈ l, p.2 = q.2 := by
  cases l with
  | nil => simp
  | cons first rest =>
    constructor
    · intro hl p hp q hq
      have hf := (hl p.2).mpr ⟨p, hp, rfl⟩
      exact (Option.some.inj (hf.symm.trans ((hl q.2).mpr ⟨q, hq, rfl⟩)))
    · intro hl h
      constructor
      · intro hf
        exact ⟨first, List.mem_cons_self, Option.some.inj hf⟩
      · rintro ⟨p, hp, rfl⟩
        exact congrArg some (hl first List.mem_cons_self p hp)

lemma reaches_iff (hs : Inv s) {pkt : UdpPacket} {order : List (Σ _ : Xbox, HandleId)}
    (ho : Iterates s.lan.lm.xboxHandleMap order) :
    Reaches s pkt.dst (LocalManager.targets s.lan.lm.xboxHandleMap pkt order) ↔
      Fits s pkt.dst := by
  by_cases hb : pkt.dst.isBroadcast = true
  · have hn : ¬ pkt.dst.isBroadcast = false := by
      rw [hb]
      exact Bool.noConfusion
    have hcount : ∀ h, (LocalManager.targets s.lan.lm.xboxHandleMap pkt order).count h =
        if s.heard.processed.head?.map Prod.snd = some h then 1 else 0 := by
      intro h
      rw [LocalManager.targets, if_pos hb, ← hs.first]
      exact ho.count_snd (fun _ => broadcast) (fun x h hl => (hs.learns.known x h hl).symm) h
    rw [Fits, if_pos hb, ← head_only_iff]
    constructor
    · intro hr h
      have hc := (hcount h).symm.trans (hr.broadcast hb h)
      by_cases hp : ∃ p ∈ s.heard.processed, p.2 = h
      · rw [if_pos hp] at hc
        exact iff_of_true (by_contra fun hh => by rw [if_neg hh] at hc; cases hc) hp
      · rw [if_neg hp] at hc
        exact iff_of_false (fun hh => by rw [if_pos hh] at hc; cases hc) hp
    · intro hf
      refine ⟨fun _ h => ?_, fun hb' => absurd hb' hn, fun hb' => absurd hb' hn⟩
      rw [hcount, if_congr (hf h) rfl rfl]
  · have hn := Bool.eq_false_iff.mpr hb
    rw [Fits, if_neg hb, targets_broadcast hs.learns.known hn]
    constructor
    · intro hr p hp he
      obtain ⟨q, -, hq⟩ := hr.known hn ⟨p, hp, he⟩
      cases hq
    · intro hf
      refine ⟨fun hb' => absurd hb' hb, fun _ hk => ?_, fun _ _ => rfl⟩
      obtain ⟨p, hp, he⟩ := hk
      exact absurd he (hf p hp)

lemma delivers_iff (hs : Inv s) (h : step s a = some t) :
    Delivers s a ↔ TakesFitting s a := by
  have hdet : Delivers s a ↔ match taken s a with
      | some pkt => ∃ handles, Reaches s pkt.dst handles ∧ t.lan.lm.injected =
          s.lan.lm.injected ++ handles.map fun h => (h, LocalManager.transmitted pkt)
      | none => t.lan.lm.injected = s.lan.lm.injected := by
    refine ⟨fun hd => hd t h, fun hd t' ht => ?_⟩
    obtain rfl := Option.some.inj (h.symm.trans ht)
    exact hd
  rw [hdet]
  obtain ⟨lan, hl, rfl⟩ := Option.map_eq_some_iff.mp h
  cases Lan.step_effect hl with
  | lm he =>
    cases he with
    | @recvOut order pkt out _ ho hr =>
      obtain ⟨rest, hb, rfl⟩ := Chan.recv_eq_some.mp hr
      have htaken : taken s (.lm (.recvOut order)) = some pkt := by
        rw [taken, hb, List.head?_cons]
      simp only [TakesFitting, htaken, Option.mem_some_iff, forall_eq', ← reaches_iff hs ho]
      constructor
      · rintro ⟨handles, hr, he⟩
        have hinj : Function.Injective fun h : HandleId => (h, LocalManager.transmitted pkt) :=
          fun _ _ he => congrArg Prod.fst he
        rw [List.map_injective_iff.mpr hinj (List.append_cancel_left he)]
        exact hr
      · exact fun hr => ⟨_, hr, rfl⟩
    | _ => exact iff_of_true rfl nofun
  | _ => exact iff_of_true rfl nofun

theorem run_injects_iff {handles : ℕ} {tr : List (Tracked × Action)} {u : Tracked}
    (h : Run (Steps step) (start handles) tr u) :
    AllSteps Delivers tr ↔ AllSteps TakesFitting tr :=
  h.all_steps_iff Inv (fun _ _ _ hi hs => hi.step hs) (fun _ _ _ hi hs => delivers_iff hi hs)
    (inv_start handles)

section Samples

def answer : UdpPacket := ⟨[2], newXbox [9], console⟩

theorem remoteHello_delivered :
    ∃ tr u, tr.map Prod.snd = heardOn 0 ++ [.deliver remoteHello, takeNext] ∧
      Run (Steps step) (start 2) tr u ∧ AllSteps Delivers tr := by
  obtain ⟨tr, u, ha, hr, hs⟩ := follow_decide step TakesFitting (start 2)
    (heardOn 0 ++ [.deliver remoteHello, takeNext]) rfl
  exact ⟨tr, u, ha, hr, (run_injects_iff hr).mpr hs⟩

theorem answer_lost :
    ∃ s t, exec step (start 2) (heardOn 0 ++ [.deliver answer]) = some s ∧
      step s takeNext = some t ∧ ¬ Delivers s takeNext := by
  refine ⟨_, _, rfl, rfl, fun hd => ?_⟩
  obtain ⟨handles, hr, he⟩ := hd _ rfl
  obtain ⟨p, -, rfl⟩ := hr.known rfl ⟨(console, 0), by decide, rfl⟩
  cases he

end Samples

end XbTunnel.Daemon.Delivery
