import XbTunnel.Daemon.PeerConn

/-! `Client.run` and the two goroutines it starts. -/

namespace XbTunnel.Daemon

open Common Lib.Channels

structure ServerResp where
  error : Option String := none
  localState : Option LocalState := none
  pcSignal : Option PcSignal := none

namespace Client

inductive RunPhase
  | dialing
  | selecting
  | encoding (msg : ServerReq)
  | pinging
  | returned
deriving DecidableEq

inductive DecoderPhase
  | notStarted
  | decoding
  | sendingState (localState : LocalState) (pcSignal : Option PcSignal)
  | sendingSignal (pcSignal : PcSignal)
  | killing
  | returned
deriving DecidableEq

inductive TokenPhase
  | notStarted
  | sending
  | returned
deriving DecidableEq

end Client

structure Client where
  kill : Chan Unit
  out : Chan ServerReq
  run : Client.RunPhase
  decoder : Client.DecoderPhase
  auth : Client.TokenPhase

def newClient : Client := ⟨.make 1, .make 10, .dialing, .notStarted, .notStarted⟩

namespace Client

inductive Action
  | dial (ok : Bool)
  | recvOut
  | encode (ok : Bool)
  | tick
  | ping
  | recvKill
  | sendToken
  | decode (resp : ServerResp)
  | failDecode
  | sendLocalState
  | sendPcSignal
  | sendKill

def close (c : Client) : Client :=
  { c with out := c.out.close, kill := c.kill.close, run := .returned }

def received (resp : ServerResp) : DecoderPhase :=
  match resp.error, resp.localState, resp.pcSignal with
  | some _, _, _ => .killing
  | none, some localState, pcSignal => .sendingState localState pcSignal
  | none, none, some pcSignal => .sendingSignal pcSignal
  | none, none, none => .decoding

def step (token : Token) (ch : Shared) (c : Client) : Action → Option (Shared × Client)
  | .dial ok =>
    match c.run with
    -- if dialing fails, the deferred function is not yet registered
    | .dialing => some (ch, if ok then
        { c with run := .selecting, decoder := .decoding, auth := .sending }
      else { c with run := .returned })
    | _ => none
  | .recvOut =>
    match c.run with
    | .selecting => do
      let (msg, out) ← c.out.recv
      some (ch, { c with out, run := .encoding msg })
    | _ => none
  | .encode ok =>
    match c.run with
    | .encoding _ => some (ch, if ok then { c with run := .selecting } else c.close)
    | _ => none
  | .tick =>
    match c.run with
    | .selecting => some (ch, { c with run := .pinging })
    | _ => none
  | .ping =>
    match c.run with
    | .pinging => do
      let out ← c.out.send {}
      some (ch, { c with out, run := .selecting })
    | _ => none
  | .recvKill =>
    match c.run with
    | .selecting => do
      let kill ← c.kill.drop
      some (ch, { c with kill }.close)
    | _ => none
  | .sendToken =>
    match c.auth with
    | .sending => do
      let serverChan ← ch.serverChan.send (.own { token := some token })
      some ({ ch with serverChan }, { c with auth := .returned })
    | _ => none
  | .decode resp =>
    match c.decoder with
    | .decoding => some (ch, { c with decoder := received resp })
    | _ => none
  | .failDecode =>
    match c.decoder with
    | .decoding => some (ch, { c with decoder := .killing })
    | _ => none
  | .sendLocalState =>
    match c.decoder with
    | .sendingState localState pcSignal => do
      let localStateChan ← ch.localStateChan.send localState
      some ({ ch with localStateChan }, { c with
        decoder := match pcSignal with
          | some pcSignal => .sendingSignal pcSignal
          | none => .decoding })
    | _ => none
  | .sendPcSignal =>
    match c.decoder with
    | .sendingSignal pcSignal => do
      let pcSignalChan ← ch.pcSignalChan.send pcSignal
      some ({ ch with pcSignalChan }, { c with decoder := .decoding })
    | _ => none
  | .sendKill =>
    match c.decoder with
    | .killing => do
      let kill ← c.kill.send ()
      some (ch, { c with kill, decoder := .returned })
    | _ => none

def Panics (c : Client) : Action → Prop
  | .ping => c.run = .pinging ∧ c.out.closed = true
  | .sendKill => c.decoder = .killing ∧ c.kill.closed = true
  | _ => False

instance (c : Client) : DecidablePred c.Panics
  | .ping | .sendKill => inferInstanceAs (Decidable (_ ∧ _))
  | .dial _ | .recvOut | .encode _ | .tick | .recvKill | .sendToken | .decode _ | .failDecode
  | .sendLocalState | .sendPcSignal => .isFalse id

variable {token : Token} {ch ch' : Shared} {c c' : Client} {a : Action}

inductive Effect (token : Token) (ch : Shared) (c : Client) : Action → Shared → Client → Prop
  | dial : c.run = .dialing → Effect token ch c (.dial true) ch
      { c with run := .selecting, decoder := .decoding, auth := .sending }
  | failDial : c.run = .dialing → Effect token ch c (.dial false) ch { c with run := .returned }
  | recvOut {msg out} : c.run = .selecting → c.out.recv = some (msg, out) →
      Effect token ch c .recvOut ch { c with out, run := .encoding msg }
  | encode {msg} : c.run = .encoding msg →
      Effect token ch c (.encode true) ch { c with run := .selecting }
  | failEncode {msg} : c.run = .encoding msg → Effect token ch c (.encode false) ch c.close
  | tick : c.run = .selecting → Effect token ch c .tick ch { c with run := .pinging }
  | ping {out} : c.run = .pinging → c.out.send {} = some out →
      Effect token ch c .ping ch { c with out, run := .selecting }
  | recvKill {kill} : c.run = .selecting → c.kill.drop = some kill →
      Effect token ch c .recvKill ch { c with kill }.close
  | sendToken {serverChan} : c.auth = .sending →
      ch.serverChan.send (.own { token := some token }) = some serverChan →
      Effect token ch c .sendToken { ch with serverChan } { c with auth := .returned }
  | decode {resp} : c.decoder = .decoding →
      Effect token ch c (.decode resp) ch { c with decoder := received resp }
  | failDecode : c.decoder = .decoding →
      Effect token ch c .failDecode ch { c with decoder := .killing }
  | sendLocalState {localState pcSignal localStateChan} :
      c.decoder = .sendingState localState pcSignal →
      ch.localStateChan.send localState = some localStateChan →
      Effect token ch c .sendLocalState { ch with localStateChan } { c with
        decoder := match pcSignal with
          | some pcSignal => .sendingSignal pcSignal
          | none => .decoding }
  | sendPcSignal {pcSignal pcSignalChan} : c.decoder = .sendingSignal pcSignal →
      ch.pcSignalChan.send pcSignal = some pcSignalChan →
      Effect token ch c .sendPcSignal { ch with pcSignalChan } { c with decoder := .decoding }
  | sendKill {kill} : c.decoder = .killing → c.kill.send () = some kill →
      Effect token ch c .sendKill ch { c with kill, decoder := .returned }

lemma step_effect (h : c.step token ch a = some (ch', c')) : Effect token ch c a ch' c' := by
  cases a with
  | dial ok | encode ok =>
    simp only [step] at h
    split at h
    · rename_i hr
      cases ok <;> cases h <;> constructor <;> exact hr
    · cases h
  | tick | decode | failDecode =>
    simp only [step] at h
    split at h
    · rename_i hr
      cases h
      constructor
      exact hr
    · cases h
  | recvOut | ping | recvKill | sendToken | sendLocalState | sendPcSignal | sendKill =>
    simp only [step] at h
    split at h
    · rename_i hr
      obtain ⟨_, hs, h⟩ := Option.bind_eq_some_iff.mp h
      cases h
      constructor
      · exact hr
      · exact hs
    · cases h

lemma effect_not_panics (h : Effect token ch c a ch' c') : ¬ c.Panics a := by
  cases h with
  | ping _ hs | sendKill _ hs =>
    exact fun hp => Bool.noConfusion (hp.2.symm.trans (Chan.send_eq_some.mp hs).1.1)
  | _ => exact id

lemma effect_serverChan (h : Effect token ch c a ch' c') :
    ch.serverChan.Grows ch'.serverChan := by
  cases h with
  | sendToken _ hs => exact .sent _ hs
  | _ => exact .same

end Client

end XbTunnel.Daemon
