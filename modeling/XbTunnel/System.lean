import Mathlib.Data.Nat.Pairing
import XbTunnel.Daemon.Idle
import XbTunnel.Server.Anonymous

/-! The server and any number of daemons, joined by the connections that the daemons' clients dial. -/

namespace XbTunnel.System

open Common Daemon Lib.Flows Lib.Runs
open Daemon.Network (World sampleToken)
open Server (ConnId SessionId)

/-- `requests` and `responses` are what one side has written and the other has not read yet. -/
structure State where
  server : Server.State
  daemons : ℕ → World
  requests : ConnId → List ServerReq
  responses : ConnId → List Server.ServerResp

def start (handles : ℕ → ℕ) : State where
  server := Server.init
  daemons d := Network.init (handles d)
  requests _ := []
  responses _ := []

def conn (d k : ℕ) : ConnId := Nat.pair d k

def setDaemon (d : ℕ) (w : World) (s : State) : State :=
  { s with daemons := Function.update s.daemons d w }

def setServer (t : Server.State) (s : State) : State :=
  let new := t.sent.drop s.server.sent.length
  { s with
    server := t
    responses := fun c => s.responses c ++ (new.filter fun m => m.1 = c).map Prod.snd }

def received (resp : Server.ServerResp) : ServerResp :=
  { localState := resp.localState, pcSignal := resp.pcSignal }

inductive Action
  | daemon (d : ℕ) (a : Network.Action)
  | write (d k : ℕ)
  | read (d k : ℕ)
  | accept (d k : ℕ)
  | server (a : Server.Action)
  | serve (c : ConnId) (order : List SessionId)

/-- The steps that need nothing from the other side. Nothing calls `dialPeerConnection` but the state
manager. -/
def internal : Network.Action → Bool
  | .client _ (.encode true) | .client _ (.decode _) | .openConn _ _ => false
  | _ => true

def web : Server.Action → Bool
  | .connect _ | .request _ _ _ => false
  | _ => true

variable (env : Server.Env) (token : ℕ → Token)

def step (s : State) : Action → Option State
  | .daemon d a =>
    if internal a then (Network.step (token d) (s.daemons d) a).map fun w => setDaemon d w s
    else none
  | .write d k =>
    match ((s.daemons d).clients k).run with
    | .encoding msg =>
      (Network.step (token d) (s.daemons d) (.client k (.encode true))).map fun w =>
        { setDaemon d w s with
          requests := Function.update s.requests (conn d k) (s.requests (conn d k) ++ [msg]) }
    | _ => none
  | .read d k =>
    match s.responses (conn d k) with
    | [] => none
    | resp :: rest =>
      (Network.step (token d) (s.daemons d) (.client k (.decode (received resp)))).map fun w =>
        { setDaemon d w s with responses := Function.update s.responses (conn d k) rest }
  | .accept d k =>
    if ((s.daemons d).clients k).decoder ≠ .notStarted then
      (Server.step env s.server (.connect (conn d k))).map fun t => setServer t s
    else none
  | .server a =>
    if web a then (Server.step env s.server a).map fun t => setServer t s else none
  | .serve c order =>
    match s.requests c with
    | [] => none
    | req :: rest =>
      (Server.step env s.server (.request c req order)).map fun t =>
        { setServer t s with requests := Function.update s.requests c rest }

structure Quiet (w : World) : Prop where
  idle : Idle.Inv w
  inward : Inward.Inv w
  commands : Commands.Inv w
  states : Commands.Empty Commands.states w
  signals : Commands.Empty Commands.signals w
  place : Commands.place w.sm.localState = (emptyPeerId, ⟨[]⟩)

structure Inv (s : State) : Prop where
  server : Server.Anonymous.Deaf env s.server
  daemons : ∀ d, Quiet (s.daemons d)
  requests : ∀ c, ∀ req ∈ s.requests c, req = {}
  responses : ∀ c, ∀ resp ∈ s.responses c, resp = {}

/-- Both sides only ever hear that the other is there. No daemon learns its user, its room or a
peer, none opens a connection or brings a packet onto its network, and the server can relay
nothing. -/
structure Silent (s : State) : Prop where
  encoder : ∀ sid se, s.server.ss.lookup sid = some se → se.encoder = none
  requests : ∀ c, ∀ req ∈ s.requests c, req = {}
  responses : ∀ c, ∀ resp ∈ s.responses c, resp = {}
  places : ∀ d, Commands.place (s.daemons d).sm.localState = (emptyPeerId, ⟨[]⟩)
  unopened : ∀ d, Idle.Unopened (token d) (s.daemons d)
  injected : ∀ d, (s.daemons d).lm.injected = []
  server : Server.Anonymous.Unheard env s.server

variable {env token} {s t : State} {a : Action}

section Daemons

variable {w v : World} {tok : Token} {b : Network.Action}

lemma quiet_init (handles : ℕ) : Quiet (Network.init handles) :=
  ⟨Idle.inv_init handles, Inward.inv_init handles, Commands.inv_init handles,
    ⟨fun _ => rfl, rfl⟩, ⟨fun _ => rfl, rfl⟩, rfl⟩

lemma Quiet.step (hq : Quiet w) (h : Network.step tok w b = some v) (hb : Idle.Undialed b)
    (hs : ∀ k, Commands.decoded Commands.states k w b = [])
    (hg : ∀ k, Commands.decoded Commands.signals k w b = []) : Quiet v := by
  obtain ⟨hstates, htaken⟩ := hq.states.step _ hq.commands h hs
  obtain ⟨hsignals, -⟩ := hq.signals.step _ hq.commands h hg
  refine ⟨hq.idle.step h hb, hq.inward.step h, hq.commands.step h, hstates, hsignals, ?_⟩
  rw [Commands.step_place h, htaken]
  exact hq.place

lemma Quiet.internal (hq : Quiet w) (h : Network.step tok w b = some v)
    (hb : internal b = true) : Quiet v := by
  have hdecoded : ∀ {β : Type} (I : Commands.Inlet β) (k : ℕ), Commands.decoded I k w b = [] := by
    intro β I k
    cases b with
    | client k' c =>
      have hc : Client.decoded I.message c = [] := by
        cases c with
        | decode => cases hb
        | _ => rfl
      rw [Commands.decoded, hc, ite_self]
    | _ => rfl
  refine hq.step h ?_ (hdecoded _) (hdecoded _)
  cases b with
  | openConn => cases hb
  | _ => trivial

lemma Quiet.read (hq : Quiet w) {k : ℕ}
    (h : Network.step tok w (.client k (.decode (received {}))) = some v) : Quiet v := by
  refine hq.step h trivial (fun k' => ?_) fun k' => ?_
  all_goals
    rw [Commands.decoded]
    exact ite_self _

lemma Quiet.write (hq : Quiet w) {k : ℕ} (h : Network.step tok w (.client k (.encode true)) = some v) :
    Quiet v := by
  refine hq.step h trivial (fun k' => ?_) fun k' => ?_
  all_goals
    rw [Commands.decoded]
    exact ite_self _

lemma setDaemon_daemons (hs : ∀ d, Quiet (s.daemons d)) {d : ℕ} (hw : Quiet w) (d' : ℕ) :
    Quiet ((setDaemon d w s).daemons d') := by
  simp only [setDaemon]
  by_cases hd : d' = d
  · rw [hd, Function.update_self]
    exact hw
  · rw [Function.update_of_ne hd]
    exact hs d'

end Daemons

section Steps

lemma setServer_responses (hr : ∀ c, ∀ resp ∈ s.responses c, resp = {}) {u : Server.State}
    (hu : ∀ m ∈ u.sent, m.2 = {}) :
    ∀ c, ∀ resp ∈ (setServer u s).responses c, resp = {} := by
  intro c resp hm
  rcases List.mem_append.mp hm with hm | hm
  · exact hr c resp hm
  · obtain ⟨m, hmem, rfl⟩ := List.mem_map.mp hm
    exact hu m (List.mem_of_mem_drop (List.mem_filter.mp hmem).1)

lemma queue_update {β : Type} {P : β → Prop} {q : ConnId → List β} (hq : ∀ c, ∀ x ∈ q c, P x)
    {c : ConnId} {xs : List β} (hx : ∀ x ∈ xs, P x) :
    ∀ c', ∀ x ∈ Function.update q c xs c', P x := by
  intro c'
  by_cases hc : c' = c
  · rw [hc, Function.update_self]
    exact hx
  · rw [Function.update_of_ne hc]
    exact hq c'

lemma Inv.step (hi : Inv env s) (h : step env token s a = some t) : Inv env t := by
  cases a with
  | daemon d b =>
    obtain ⟨hb, h⟩ := Option.ite_none_right_eq_some.mp h
    obtain ⟨w, hw, rfl⟩ := Option.map_eq_some_iff.mp h
    exact ⟨hi.server, setDaemon_daemons hi.daemons ((hi.daemons d).internal hw hb), hi.requests,
      hi.responses⟩
  | write d k =>
    simp only [System.step] at h
    split at h
    · rename_i msg hmsg
      obtain ⟨w, hw, rfl⟩ := Option.map_eq_some_iff.mp h
      refine ⟨hi.server, setDaemon_daemons hi.daemons ((hi.daemons d).write hw),
        queue_update hi.requests (List.forall_mem_append.mpr ⟨hi.requests _, ?_⟩), hi.responses⟩
      exact List.forall_mem_singleton.mpr (((hi.daemons d).commands.clients.pings k).run msg hmsg)
    · cases h
  | read d k =>
    simp only [System.step] at h
    split at h
    · cases h
    · rename_i resp rest hr
      obtain ⟨w, hw, rfl⟩ := Option.map_eq_some_iff.mp h
      obtain ⟨rfl, hrest⟩ := List.forall_mem_cons.mp (hr ▸ hi.responses (conn d k))
      exact ⟨hi.server, setDaemon_daemons hi.daemons ((hi.daemons d).read hw), hi.requests,
        queue_update hi.responses hrest⟩
  | accept d k =>
    obtain ⟨-, h⟩ := Option.ite_none_right_eq_some.mp h
    obtain ⟨u, hu, rfl⟩ := Option.map_eq_some_iff.mp h
    have hd := hi.server.step hu trivial
    exact ⟨hd, hi.daemons, hi.requests, setServer_responses hi.responses hd.sent⟩
  | server b =>
    obtain ⟨hb, h⟩ := Option.ite_none_right_eq_some.mp h
    obtain ⟨u, hu, rfl⟩ := Option.map_eq_some_iff.mp h
    have ht : Server.Anonymous.WithoutToken b := by
      cases b with
      | request => cases hb
      | _ => trivial
    have hd := hi.server.step hu ht
    exact ⟨hd, hi.daemons, hi.requests, setServer_responses hi.responses hd.sent⟩
  | serve c order =>
    simp only [System.step] at h
    split at h
    · cases h
    · rename_i req rest hr
      obtain ⟨u, hu, rfl⟩ := Option.map_eq_some_iff.mp h
      obtain ⟨rfl, hrest⟩ := List.forall_mem_cons.mp (hr ▸ hi.requests c)
      have hd := hi.server.step hu rfl
      exact ⟨hd, hi.daemons, queue_update hi.requests hrest,
        setServer_responses hi.responses hd.sent⟩

lemma inv_start (handles : ℕ → ℕ) : Inv env (start handles) :=
  ⟨Server.Anonymous.deaf_init env, fun d => quiet_init (handles d), fun _ => nofun, fun _ => nofun⟩

lemma Inv.silent (hi : Inv env s) : Silent env token s where
  encoder := hi.server.encoder
  requests := hi.requests
  responses := hi.responses
  places d := (hi.daemons d).place
  unopened d := (hi.daemons d).idle.unopened (token d)
  injected d := (hi.daemons d).inward.injected
  server := hi.server.unheard

end Steps

theorem stays_silent {handles : ℕ → ℕ} {tr : List (State × Action)} {u : State}
    (h : Run (Steps (step env token)) (start handles) tr u) :
    AllStates (Silent env token) tr u := by
  obtain ⟨htr, hu⟩ := h.invariant (fun _ _ _ hi he => Inv.step hi he) (inv_start handles)
  exact ⟨fun p hp => (htr p hp).silent, hu.silent⟩

section Samples

def pingAndBeat : List Action :=
  [.daemon 0 (.reconnect .resolve), .daemon 0 (.reconnect .newClient),
    .daemon 0 (.client 0 (.dial true)), .accept 0 0, .daemon 0 (.client 0 .sendToken),
    .daemon 0 (.client 0 .tick), .daemon 0 (.client 0 .ping), .daemon 0 (.client 0 .recvOut),
    .write 0 0, .server (.loginCheck 0 Server.alice.id []),
    .server (.loginCreate 0 Server.aliceSession), .serve 0 [Server.aliceSession],
    .server (.tick 0), .read 0 0]

theorem pingAndBeat_silent : ∃ tr u, tr.map Prod.snd = pingAndBeat ∧
    Run (Steps (step Server.sampleEnv fun _ => sampleToken)) (start fun _ => 1) tr u ∧
    AllStates (Silent Server.sampleEnv fun _ => sampleToken) tr u := by
  have hend : (exec (step Server.sampleEnv fun _ => sampleToken) (start fun _ => 1)
    pingAndBeat).any (fun _ => true) = true := by decide +kernel
  obtain ⟨tr, u, ha, hr, -⟩ := exec_any _ hend
  exact ⟨tr, u, ha, hr, stays_silent hr⟩

end Samples

end XbTunnel.System
