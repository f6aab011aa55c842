import XbTunnel.Daemon.Clients

/-! The server's messages on their way from the clients' decoders to the state manager. -/

namespace XbTunnel.Daemon

open Common Udp Remote StateManager Lib.Channels Lib.Flows Lib.Runs

namespace Client

def statesIn : DecoderPhase → List LocalState
  | .sendingState localState _ => [localState]
  | _ => []

def signalsIn : DecoderPhase → List PcSignal
  | .sendingState _ pcSignal => pcSignal.toList
  | .sendingSignal pcSignal => [pcSignal]
  | _ => []

def decoded {β : Type} (f : ServerResp → Option β) : Action → List β
  -- an error ends the decoder, whatever comes with it
  | .decode resp => if resp.error.isSome then [] else (f resp).toList
  | _ => []

def handedStates (c : Client) : Action → List LocalState
  | .sendLocalState => statesIn c.decoder
  | _ => []

def handedSignals (c : Client) : Action → List PcSignal
  | .sendPcSignal => signalsIn c.decoder
  | _ => []

variable {token : Token} {ch ch' : Shared} {c c' : Client} {a : Action}

lemma statesIn_received (resp : ServerResp) :
    statesIn (received resp) = decoded ServerResp.localState (.decode resp) := by
  obtain ⟨error, localState, pcSignal⟩ := resp
  cases error <;> cases localState <;> cases pcSignal <;> rfl

lemma signalsIn_received (resp : ServerResp) :
    signalsIn (received resp) = decoded ServerResp.pcSignal (.decode resp) := by
  obtain ⟨error, localState, pcSignal⟩ := resp
  cases error <;> cases localState <;> cases pcSignal <;> rfl

def DecoderIdle (c : Client) : Prop := c.run = .dialing → c.decoder = .notStarted

lemma DecoderIdle.effect (hi : c.DecoderIdle) (h : c.Effect token ch a ch' c') :
    c'.DecoderIdle := by
  cases h with
  | sendToken => exact hi
  | decode hd | failDecode hd | sendLocalState hd | sendPcSignal hd | sendKill hd =>
    intro hr
    cases (hi hr).symm.trans hd
  | _ => exact nofun

lemma states_effect (hi : c.DecoderIdle) (h : c.Effect token ch a ch' c') :
    statesIn c.decoder ++ decoded ServerResp.localState a =
      c.handedStates a ++ statesIn c'.decoder := by
  cases h with
  | dial hr => rw [hi hr]; rfl
  | decode hd => rw [hd, statesIn_received]; rfl
  | failDecode hd | sendPcSignal hd | sendKill hd => rw [hd]; rfl
  | @sendLocalState localState pcSignal _ hd =>
    rw [handedStates, hd]
    cases pcSignal <;> rfl
  | _ => exact List.append_nil _

lemma signals_effect (hi : c.DecoderIdle) (h : c.Effect token ch a ch' c') :
    signalsIn c.decoder ++ decoded ServerResp.pcSignal a =
      c.handedSignals a ++ signalsIn c'.decoder := by
  cases h with
  | dial hr => rw [hi hr]; rfl
  | decode hd => rw [hd, signalsIn_received]; rfl
  | failDecode hd | sendKill hd => rw [hd]; rfl
  | @sendLocalState localState pcSignal _ hd =>
    rw [hd]
    cases pcSignal <;> rfl
  | sendPcSignal hd => rw [handedSignals, hd]; rfl
  | _ => exact List.append_nil _

end Client

namespace Commands

open Network Reconnect

structure Inlet (β : Type) where
  message : ServerResp → Option β
  inDecoder : Client.DecoderPhase → List β
  handed : Client → Client.Action → List β
  queue : Shared → List β
  taken : Event → List β
  decoder_effect : ∀ {token ch c a ch' c'}, Client.DecoderIdle c →
    Client.Effect token ch c a ch' c' →
    inDecoder c.decoder ++ Client.decoded message a = handed c a ++ inDecoder c'.decoder
  queue_effect : ∀ {token ch c a ch' c'}, Client.Effect token ch c a ch' c' →
    queue ch' = queue ch ++ handed c a
  queue_received : ∀ {ch e ch'}, Received ch e ch' → queue ch = taken e ++ queue ch'
  queue_congr : ∀ {ch ch' : Shared}, ch'.localStateChan = ch.localStateChan →
    ch'.pcSignalChan = ch.pcSignalChan → queue ch' = queue ch

def states : Inlet LocalState where
  message := ServerResp.localState
  inDecoder := Client.statesIn
  handed := Client.handedStates
  queue ch := ch.localStateChan.buf
  taken e := match e with
    | .localState ls => [ls]
    | _ => []
  decoder_effect := Client.states_effect
  queue_effect h := by
    cases h with
    | sendLocalState hd hs =>
      rw [Client.handedStates, hd]
      exact Chan.send_buf hs
    | _ => exact (List.append_nil _).symm
  queue_received h := by
    cases h with
    | localState hr =>
      obtain ⟨rest, hb, rfl⟩ := Chan.recv_eq_some.mp hr
      exact hb
    | _ => rfl
  queue_congr hs _ := congrArg Chan.buf hs

def signals : Inlet PcSignal where
  message := ServerResp.pcSignal
  inDecoder := Client.signalsIn
  handed := Client.handedSignals
  queue ch := ch.pcSignalChan.buf
  taken e := match e with
    | .pcSignal pcSignal => [pcSignal]
    | _ => []
  decoder_effect := Client.signals_effect
  queue_effect h := by
    cases h with
    | sendPcSignal hd hs =>
      rw [Client.handedSignals, hd]
      exact Chan.send_buf hs
    | _ => exact (List.append_nil _).symm
  queue_received h := by
    cases h with
    | pcSignal hr =>
      obtain ⟨rest, hb, rfl⟩ := Chan.recv_eq_some.mp hr
      exact hb
    | _ => rfl
  queue_congr _ hp := congrArg Chan.buf hp

section Flow

variable {β : Type} (I : Inlet β)

def decoded (k : ℕ) (_ : World) : Network.Action → List β
  | .client k' a => if k' = k then Client.decoded I.message a else []
  | _ => []

def handedBy (k : ℕ) (w : World) : Network.Action → List β
  | .client k' a => if k' = k then I.handed (w.clients k') a else []
  | _ => []

def handed (w : World) : Network.Action → List β
  | .client k a => I.handed (w.clients k) a
  | _ => []

def taken (_ : World) : Network.Action → List β
  | .takeEvent e _ => I.taken e
  | _ => []

def decoding (k : ℕ) : Stage World Network.Action β :=
  ⟨decoded I k, fun w => I.inDecoder (w.clients k).decoder, handedBy I k⟩

def inbox : Stage World Network.Action β := ⟨handed I, fun w => I.queue w.ch, taken I⟩

structure Inv (w : World) : Prop where
  clients : Clients.Inv w
  idle : ∀ k, (w.clients k).DecoderIdle

structure Apart (w v : World) : Prop where
  localStateChan : v.ch.localStateChan = w.ch.localStateChan
  pcSignalChan : v.ch.pcSignalChan = w.ch.pcSignalChan
  run : ∀ k, (v.clients k).run = (w.clients k).run
  decoder : ∀ k, (v.clients k).decoder = (w.clients k).decoder

inductive Sides (token : Token) (w : World) : Network.Action → World → Prop
  | apart {a v} : (∀ k b, a ≠ .client k b) → (∀ e o, a ≠ .takeEvent e o) → Apart w v →
      Sides token w a v
  | takeEvent {e o v} : Received w.ch e v.ch → v.clients = w.clients →
      Sides token w (.takeEvent e o) v
  | client {k b ch c} : (w.clients k).Effect token w.ch b ch c →
      Sides token w (.client k b) (setClient k c { w with ch })

variable {token : Token} {w v : World} {a : Network.Action}

lemma apart_of_dial {peerId : PeerId} {initiator : Bool} (h : dial peerId initiator w = some v) :
    Apart w v := by
  obtain ⟨_, -, rfl⟩ := dial_eq_some h
  exact ⟨rfl, rfl, fun _ => rfl, fun _ => rfl⟩

lemma step_sides (hi : Clients.Inv w) (h : Network.step token w a = some v) :
    Sides token w a v := by
  cases step_effect h with
  | takeEvent _ _ _ hr => exact .takeEvent (recvEvent_received hr) rfl
  | client _ he => exact .client he
  | op _ hd =>
    refine .apart nofun nofun ?_
    cases hd with
    | dial hd =>
      have ha := apart_of_dial hd
      exact { ha with }
    | _ => exact ⟨rfl, rfl, fun _ => rfl, fun _ => rfl⟩
  | openConn hd => exact .apart nofun nofun (apart_of_dial hd)
  | pc hp =>
    refine .apart nofun nofun ?_
    cases hp <;> exact ⟨rfl, rfl, fun _ => rfl, fun _ => rfl⟩
  | lm hl =>
    refine .apart nofun nofun ?_
    cases hl <;> exact ⟨rfl, rfl, fun _ => rfl, fun _ => rfl⟩
  | reconnect hr =>
    refine .apart nofun nofun ?_
    cases hr with
    | newClient =>
      have hsame : (setClient w.nextClient newClient w).clients = w.clients :=
        Function.update_eq_self_iff.mpr (hi.unmade _ le_rfl).symm
      exact ⟨rfl, rfl, fun k => congrArg (fun c => (c k).run) hsame,
        fun k => congrArg (fun c => (c k).decoder) hsame⟩
    | _ => exact ⟨rfl, rfl, fun _ => rfl, fun _ => rfl⟩
  | main hm =>
    refine .apart nofun nofun ?_
    cases hm with
    | @killClient kill =>
      have hsame (k : ℕ) : ((setClient (w.nextClient - 1)
          { w.clients (w.nextClient - 1) with kill } w).clients k).run = (w.clients k).run ∧
          ((setClient (w.nextClient - 1)
            { w.clients (w.nextClient - 1) with kill } w).clients k).decoder =
            (w.clients k).decoder := by
        by_cases hk : k = w.nextClient - 1
        · rw [hk, setClient_self]
          exact ⟨rfl, rfl⟩
        · rw [setClient_of_ne hk]
          exact ⟨rfl, rfl⟩
      exact ⟨rfl, rfl, fun k => (hsame k).1, fun k => (hsame k).2⟩
    | _ => exact ⟨rfl, rfl, fun _ => rfl, fun _ => rfl⟩
  | takeKill | startRun => exact .apart nofun nofun ⟨rfl, rfl, fun _ => rfl, fun _ => rfl⟩

lemma Inv.step (hi : Inv w) (h : Network.step token w a = some v) : Inv v := by
  refine ⟨hi.clients.step h, fun k => ?_⟩
  cases step_sides hi.clients h with
  | apart _ _ ha => exact fun hr => (ha.decoder k).trans (hi.idle k ((ha.run k).symm.trans hr))
  | takeEvent _ hc => exact hc ▸ hi.idle k
  | @client k' b ch c he =>
    by_cases hk : k = k'
    · rw [hk, setClient_self]
      exact (hi.idle k').effect he
    · rw [setClient_of_ne hk]
      exact hi.idle k

lemma inv_init (handles : ℕ) : Inv (Network.init handles) :=
  ⟨Clients.inv_init handles, fun _ _ => rfl⟩

lemma decoded_apart (hc : ∀ k b, a ≠ .client k b) (k : ℕ) : decoded I k w a = [] := by
  cases a with
  | client k b => exact absurd rfl (hc k b)
  | _ => rfl

lemma handedBy_apart (hc : ∀ k b, a ≠ .client k b) (k : ℕ) : handedBy I k w a = [] := by
  cases a with
  | client k b => exact absurd rfl (hc k b)
  | _ => rfl

lemma handed_apart (hc : ∀ k b, a ≠ .client k b) : handed I w a = [] := by
  cases a with
  | client k b => exact absurd rfl (hc k b)
  | _ => rfl

lemma taken_apart (he : ∀ e o, a ≠ .takeEvent e o) : taken I w a = [] := by
  cases a with
  | takeEvent e o => exact absurd rfl (he e o)
  | _ => rfl

lemma decoding_conserves (token : Token) (k : ℕ) :
    (decoding I k).Conserves (Steps (Network.step token)) Inv := by
  intro w a v hi h
  simp only [decoding]
  cases step_sides hi.clients h with
  | apart hc _ ha =>
    rw [decoded_apart I hc, handedBy_apart I hc, ha.decoder]
    exact List.append_nil _
  | takeEvent _ hv =>
    rw [hv]
    exact List.append_nil _
  | @client k' b ch c he =>
    by_cases hk : k' = k
    · subst hk
      simp only [decoded, handedBy, if_true, setClient_self]
      exact I.decoder_effect (hi.idle k') he
    · simp only [decoded, handedBy, if_neg hk, setClient_of_ne (Ne.symm hk), List.append_nil,
        List.nil_append]

lemma inbox_conserves (token : Token) :
    (inbox I).Conserves (Steps (Network.step token)) Inv := by
  intro w a v hi h
  simp only [inbox]
  cases step_sides hi.clients h with
  | apart hc he ha =>
    rw [handed_apart I hc, taken_apart I he, I.queue_congr ha.localStateChan ha.pcSignalChan]
    exact List.append_nil _
  | takeEvent hr _ => exact (List.append_nil _).trans (I.queue_received hr)
  | client he => exact (I.queue_effect he).symm

structure Empty (w : World) : Prop where
  decoders : ∀ k, I.inDecoder (w.clients k).decoder = []
  queue : I.queue w.ch = []

lemma Empty.step (he : Empty I w) (hi : Inv w) (h : Network.step token w a = some v)
    (hd : ∀ k, decoded I k w a = []) : Empty I v ∧ taken I w a = [] := by
  have hdec : ∀ k, handedBy I k w a = [] ∧ I.inDecoder (v.clients k).decoder = [] := by
    intro k
    have hc : I.inDecoder (w.clients k).decoder ++ decoded I k w a =
        handedBy I k w a ++ I.inDecoder (v.clients k).decoder :=
      decoding_conserves I token k w a v hi h
    rw [he.decoders, hd] at hc
    exact List.append_eq_nil_iff.mp hc.symm
  have hhand : handed I w a = [] := by
    cases a with
    | client k b => exact (if_pos rfl).symm.trans (hdec k).1
    | _ => rfl
  have hc : I.queue w.ch ++ handed I w a = taken I w a ++ I.queue v.ch :=
    inbox_conserves I token w a v hi h
  rw [he.queue, hhand] at hc
  obtain ⟨ht, hq⟩ := List.append_eq_nil_iff.mp hc.symm
  exact ⟨⟨fun k => (hdec k).2, hq⟩, ht⟩

structure InOrder (tr : List (World × Network.Action)) (u : World) : Prop where
  clients : ∀ k, total (decoded I k) tr =
    total (handedBy I k) tr ++ I.inDecoder (u.clients k).decoder
  channel : total (handed I) tr = total (taken I) tr ++ I.queue u.ch

variable {handles : ℕ} {tr : List (World × Network.Action)} {u : World}

lemma run_inOrder (hempty : I.inDecoder .notStarted = [] ∧ I.queue Shared.init = [])
    (h : Run (Steps (Network.step token)) (Network.init handles) tr u) : InOrder I tr u := by
  have hi := inv_init handles
  have hstep : ∀ s a t, Inv s → Steps (Network.step token) s a t → Inv t :=
    fun _ _ _ hi he => hi.step he
  refine ⟨fun k => ?_, ?_⟩
  · have hc : I.inDecoder .notStarted ++ total (decoded I k) tr =
        total (handedBy I k) tr ++ I.inDecoder (u.clients k).decoder :=
      (decoding_conserves I token k).run hstep h hi
    rwa [hempty.1] at hc
  · have hc : I.queue Shared.init ++ total (handed I) tr = total (taken I) tr ++ I.queue u.ch :=
      (inbox_conserves I token).run hstep h hi
    rwa [hempty.2] at hc

end Flow

def place (ls : LocalState) : PeerId × RoomId := (ls.userId, ls.curRoomId)

structure Obeys (tr : List (World × Network.Action)) (u : World) : Prop where
  states : InOrder states tr u
  signals : InOrder signals tr u
  place : place u.sm.localState =
    ((total (taken Commands.states) tr).getLast?.map place).getD (emptyPeerId, ⟨[]⟩)

variable {token : Token} {w v u : World} {a : Network.Action} {handles : ℕ}
  {tr : List (World × Network.Action)}

lemma step_place (h : Steps (Network.step token) w a v) :
    place v.sm.localState = ((taken states w a).getLast?.map place).getD (place w.sm.localState) := by
  by_cases ha : ∀ e o, a ≠ .takeEvent e o
  · rw [step_sm h ha, taken_apart states ha]
    rfl
  · push Not at ha
    obtain ⟨e, o, rfl⟩ := ha
    cases step_effect h with
    | takeEvent => cases e <;> rfl

theorem run_obeys (h : Run (Steps (Network.step token)) (Network.init handles) tr u) :
    Obeys tr u where
  states := run_inOrder states ⟨rfl, rfl⟩ h
  signals := run_inOrder signals ⟨rfl, rfl⟩ h
  place := getLast_total (fun w : World => Commands.place w.sm.localState) Commands.place
    (fun _ _ _ he => step_place he) h

section Samples

def roomOne : LocalState := ⟨friend, ⟨[1]⟩, none, []⟩

def movesToRoomOne : List Network.Action :=
  [.reconnect .resolve, .reconnect .newClient, .client 0 (.dial true),
    .client 0 (.decode { localState := some roomOne, pcSignal := some ⟨friend, friend, [5]⟩ }),
    .client 0 .sendLocalState, .takeEvent (.localState roomOne) ⟨[], []⟩]

theorem movesToRoomOne_obeys : ∃ tr u, tr.map Prod.snd = movesToRoomOne ∧
    Run (Steps (Network.step sampleToken)) (Network.init 1) tr u ∧ Obeys tr u := by
  have hend : (exec (Network.step sampleToken) (Network.init 1) movesToRoomOne).any
    (fun _ => true) = true := rfl
  obtain ⟨tr, u, ha, hr, -⟩ := exec_any _ hend
  exact ⟨tr, u, ha, hr, run_obeys hr⟩

end Samples

end Commands

end XbTunnel.Daemon
