import XbTunnel.Server.Invariant

/-! Requests on a TCP connection, one after the other, with any tokens. A panic in the goroutine that
handles them ends the server. -/

namespace XbTunnel.Server.Requests

open Common Lib.Effects Lib.Maps Lib.Runs

structure Tracked where
  st : State
  down : Bool

def start : Tracked := ⟨init, false⟩

inductive Action
  | server (a : Server.Action)
  | request (c : ConnId) (req : ServerReq) (order : List SessionId)

def isRequest : Server.Action → Bool
  | .request _ _ _ => true
  | _ => false

/-- `getSessionByToken` hands `One` the nil pointer `user` itself, so it is nil after the query, too,
whatever users there are. -/
def unfilled (env : Env) : Env := { env with users := [] }

def step (env : Env) (s : Tracked) : Action → Option Tracked
  | .server a =>
    if s.down = false ∧ isRequest a = false then
      (Server.step env s.st a).map fun st => ⟨st, false⟩
    else none
  | .request c req order =>
    if s.down = false ∧ (s.st.conns c).phase = .reading ∧ Visits s.st.ss order then
      some (match request (unfilled env) c req order s.st with
        | some st => ⟨st, false⟩
        | none => { s with down := true })
    else none

def hasSession (env : Env) (s : State) (token : Option Token) : Prop :=
  ∃ u ∈ env.users, token = some u.token ∧
    ∃ sid se, s.ss.lookup sid = some se ∧ se.localState.userId = u.id

/-- The connection goes on; without a session of its own it relays nothing, and a token that selects
none leaves it without. -/
structure Handled (env : Env) (s : State) (c : ConnId) (req : ServerReq) (t : State) : Prop where
  reading : (t.conns c).phase = .reading
  unauthenticated : req.token.isSome = true → ¬ hasSession env s req.token → (t.conns c).s = none
  relays : (t.conns c).s = none → t.sent = s.sent

def Handles (env : Env) (s : Tracked) : Action → Prop
  | .server _ => True
  | .request c req order =>
    (handleReq (unfilled env) c req order).Ensures s.st
      (fun _ => Handled env s.st c req) (fun _ => False) fun _ => False

def WithoutToken : Action → Prop
  | .server _ => True
  | .request _ req _ => req.token = none

instance : DecidablePred WithoutToken
  | .server _ => inferInstanceAs (Decidable True)
  | .request _ _ _ => inferInstanceAs (Decidable (_ = _))

variable {env : Env} {s t : State} {c : ConnId} {req : ServerReq} {order : List SessionId}

section Select

variable {token : Token}

lemma unfilled_selects_none (token : Token) (order : List SessionId) (s : State) :
    order.find? (passes (ofToken (unfilled env).users token) s) = none := by
  rw [List.find?_eq_none]
  intro sid _
  cases hl : s.ss.lookup sid <;> simp [passes, hl, unfilled, ofToken]

-- the search dereferences the nil user, or there is no session and the encoder is written through
-- the nil one
lemma select_panics (hs : SessionsReadable s) :
    (selectSession (unfilled env) c (some token) order).Ensures s (fun _ _ => False)
      (fun _ => True) fun _ => True := by
  rw [selectSession, Go.ensures_bind, getSessionByToken]
  refine (findSession_ensures _ order hs).mono ?_ (fun _ _ => trivial) fun _ _ => trivial
  rintro r _ ⟨rfl, -, rfl⟩
  rw [unfilled_selects_none]
  trivial

lemma relays_nothing (h : (s.conns c).s = none) (pcSignal : Option PcSignal) :
    (relaySignal c pcSignal).Ensures s (fun _ t => t = s) (fun _ => False) fun _ => False := by
  rw [relaySignal, Go.ensures_bind, Go.ensures_get, h]
  exact rfl

lemma handles_iff (hs : SessionsReadable s) (hp : (s.conns c).phase = .reading)
    (hc : (s.conns c).s = none) :
    (handleReq (unfilled env) c req order).Ensures s (fun _ => Handled env s c req)
      (fun _ => False) (fun _ => False) ↔ req.token = none := by
  rw [handleReq]
  cases ht : req.token with
  | none =>
    refine iff_of_true ?_ rfl
    rw [selectSession, Go.ensures_bind, Go.ensures_pure]
    refine (relays_nothing hc req.pcSignal).mono ?_ (fun _ h => h) fun _ h => h
    rintro _ _ rfl
    exact ⟨hp, fun _ _ => hc, fun _ => rfl⟩
  | some token =>
    refine iff_of_false (Go.Ensures.not_returns (E := fun _ => True) (H := fun _ => True) ?_)
      (Option.some_ne_none token)
    rw [Go.ensures_bind]
    exact (select_panics hs).mono (fun _ _ h => h.elim) (fun _ h => h) fun _ h => h

end Select

section Run

variable {x y : Tracked} {a : Action}

lemma mem_ss_request {env' : Env} (h : Effect env' s (.request c req order) t) (sid : SessionId) :
    sid ∈ t.ss ↔ sid ∈ s.ss := by
  cases h with
  | waits | served => exact Iff.rfl
  | @selected _ _ _ _ _ sid' =>
    rw [attach_eq]
    exact mem_setEncoder sid' sid (some c) s

lemma sound_request (hs : Sound env s) (h : Effect (unfilled env) s (.request c req order) t) :
    Sound env t := by
  have hs' : Sound (unfilled env) s := hs.of_users fun _ _ _ hu => by cases hu
  exact (hs'.effect h).of_users fun sid hm => hs.apart sid ((mem_ss_request h sid).mp hm)

structure Inv (env : Env) (s : State) : Prop where
  sound : Sound env s
  unbound : ∀ c, (s.conns c).s = none

lemma step_up (h : step env x a = some y) : x.down = false := by
  cases a with
  | server a | request c req order => exact (Option.ite_none_right_eq_some.mp h).1.1

lemma inv_step (hx : x.down = false → Inv env x.st) (h : step env x a = some y)
    (hy : y.down = false) : Inv env y.st := by
  obtain ⟨hs, hu⟩ := hx (step_up h)
  cases a with
  | server a =>
    obtain ⟨⟨-, hr⟩, h⟩ := Option.ite_none_right_eq_some.mp h
    obtain ⟨t, ht, rfl⟩ := Option.map_eq_some_iff.mp h
    refine ⟨hs.step ht, (step_effect hs ht).unbound hu ?_⟩
    rintro _ _ _ _ _ rfl
    cases hr
  | request c req order =>
    obtain ⟨⟨-, hp, -⟩, h⟩ := Option.ite_none_right_eq_some.mp h
    obtain rfl := Option.some.inj h
    split at hy
    · rename_i t ht
      have he := request_effect hs.readable hp ht
      refine ⟨sound_request hs he, he.unbound hu ?_⟩
      rintro _ _ order token _ - -
      rw [unfilled_selects_none]
      exact nofun
    · cases hy

lemma handles_step (hx : x.down = false → Inv env x.st) (h : step env x a = some y) :
    Handles env x a ↔ WithoutToken a := by
  obtain ⟨hs, hu⟩ := hx (step_up h)
  cases a with
  | server a => exact Iff.rfl
  | request c req order =>
    obtain ⟨⟨-, hp, -⟩, -⟩ := Option.ite_none_right_eq_some.mp h
    exact handles_iff hs.readable hp (hu c)

theorem requests_handled_iff {tr : List (Tracked × Action)} {u : Tracked}
    (h : Run (Steps (step env)) start tr u) :
    AllSteps (Handles env) tr ↔ AllSteps (fun _ a => WithoutToken a) tr :=
  h.all_steps_iff (fun x => x.down = false → Inv env x.st) (fun _ _ _ => inv_step)
    (fun _ _ _ => handles_step) fun _ => ⟨sound_init env, fun _ => rfl⟩

lemma handled_stays_up (h : step env x a = some y) (hh : Handles env x a) : y.down = false := by
  cases a with
  | server a =>
    obtain ⟨-, h⟩ := Option.ite_none_right_eq_some.mp h
    obtain ⟨t, -, rfl⟩ := Option.map_eq_some_iff.mp h
    rfl
  | request c req order =>
    obtain ⟨-, h⟩ := Option.ite_none_right_eq_some.mp h
    obtain rfl := Option.some.inj h
    rw [request]
    cases ho : handleReq (unfilled env) c req order x.st with
    | ok _ t => rfl
    | panic t => exact (hh.of_panic ho).elim
    | hang t => exact (hh.of_hang ho).elim

lemma run_stays_up {tr : List (Tracked × Action)} (h : Run (Steps (step env)) x tr y)
    (hx : x.down = false) (hh : AllSteps (Handles env) tr) : y.down = false := by
  induction h with
  | nil => exact hx
  | cons he _ ih =>
    obtain ⟨ha, hh⟩ := (allSteps_cons _ _ _ _).mp hh
    exact ih (handled_stays_up he ha) hh

end Run

section Samples

def signalsOnly : List Action := bothLogIn.map .server ++ [.server (.connect 0),
  .request 0 { pcSignal := some ⟨bob.id, bob.id, [1]⟩ } [aliceSession, bobSession],
  .request 0 { xboxes := some [] } [aliceSession, bobSession]]

theorem signalsOnly_handled : ∃ tr u, tr.map Prod.snd = signalsOnly ∧
    Run (Steps (step sampleEnv)) start tr u ∧ AllSteps (Handles sampleEnv) tr := by
  obtain ⟨tr, u, ha, hr, hs⟩ :=
    follow_decide (step sampleEnv) (fun _ a => WithoutToken a) start signalsOnly rfl
  exact ⟨tr, u, ha, hr, (requests_handled_iff hr).mpr hs⟩

def aliceSaysWho : List Action := bothLogIn.map .server ++
  [.server (.connect 0), .request 0 (tokenReq alice) [aliceSession, bobSession]]

theorem aliceSaysWho_panics : ∃ tr u, tr.map Prod.snd = aliceSaysWho ∧
    Run (Steps (step sampleEnv)) start tr u ∧ u.down = true ∧
    ¬ AllSteps (Handles sampleEnv) tr := by
  have hend : (exec (step sampleEnv) start aliceSaysWho).any (fun u => u.down) = true := rfl
  obtain ⟨tr, u, ha, hr, hd⟩ := exec_any _ hend
  refine ⟨tr, u, ha, hr, hd, fun hh => ?_⟩
  cases hd.symm.trans (run_stays_up hr rfl hh)

end Samples

end XbTunnel.Server.Requests
