import XbTunnel.Lib.Sections
import XbTunnel.Server.Invariant

/-! The session store under many goroutines at once. Each takes the lock of the store, reads or
writes the map one access after the other, and gives the lock back. -/

namespace XbTunnel.Server.Interleaved

open Common Lib.Effects Lib.Maps Lib.Runs Lib.Sections Lib.Tallies

abbrev Sessions := Map SessionId Session

/-- The calls that give back the locks they take. `env` has the users that the query found before
the call took the lock, and `order` is the order in which the loop comes across the sessions. -/
inductive Request
  | createSession (pid : PeerId) (sid : SessionId)
  | getSessionById (id : SessionId)
  | getSessionByToken (env : Env) (token : Token) (order : Sessions → List SessionId)
  | getSessionByPeerId (pid : PeerId) (order : Sessions → List SessionId)
  | getSessionByRequest (sessionid : String) (order : Sessions → List SessionId)

inductive Reply
  | found (sid : Option SessionId)
  | panicked
deriving DecidableEq

def scan (test : Session → Option Bool) : List SessionId → Lookup Sessions Reply
  | [] => .done (.found none)
  | sid :: rest => .read fun ss =>
    match ss.lookup sid with
    | none => scan test rest
    | some s =>
      match test s with
      | none => .done .panicked
      | some true => .done (.found (some sid))
      | some false => scan test rest

def findSession (test : Session → Option Bool) (order : Sessions → List SessionId) :
    Lookup Sessions Reply :=
  .read fun ss => scan test (order ss)

def prog : Request → Lookup Sessions Reply ⊕ Update Sessions Reply
  | .createSession pid sid =>
    .inr (.write (·.insert sid (newSession pid sid)) (.done (.found (some sid))))
  | .getSessionById id => .inl (.read fun ss => .done (.found ((ss.lookup id).map fun _ => id)))
  | .getSessionByToken env token order => .inl (findSession (ofToken env.users token) order)
  | .getSessionByPeerId pid order => .inl (findSession (ofPeerId pid) order)
  | .getSessionByRequest value order => .inl (findSession (ofCookie value) order)

def call (s : State) : Request → Go State (Option SessionId)
  | .createSession pid sid => do return some (← createSession pid sid)
  | .getSessionById id => getSessionById id
  | .getSessionByToken env token order => getSessionByToken env token (order s.ss)
  | .getSessionByPeerId pid order => getSessionByPeerId pid (order s.ss)
  | .getSessionByRequest value order => getSessionByRequest (some value) (order s.ss)

def Calls (s : State) (a : Request × Reply) (t : State) : Prop :=
  (call s a.1).Ensures s (fun r u => a.2 = .found r ∧ u = t) (fun u => a.2 = .panicked ∧ u = t)
    fun _ => False

structure Unlocked (s : State) : Prop where
  store : s.ssLock = .free
  sessions : SessionsReadable s

variable {s : State} {ss : Sessions} {w : World Sessions Reply Request}
  {tr : List (World Sessions Reply Request × Lib.Sections.Action Request)}

lemma Unlocked.with_ss (h : Unlocked s) (ss : Sessions) : Unlocked { s with ss := ss } :=
  ⟨h.store, h.sessions⟩

lemma Unlocked.readable (h : Unlocked s) : (ssMutex.get s).Readable := by
  change s.ssLock.Readable
  rw [h.store]
  exact ⟨rfl, rfl⟩

lemma scan_runs (test : Session → Option Bool) (order : List SessionId) (hs : SessionsReadable s) :
    (Server.scan test order).Ensures s
      (fun r t => t = s ∧ (scan test order).run s.ss = .found r)
      (fun t => t = s ∧ (scan test order).run s.ss = .panicked) (fun _ => False) := by
  induction order generalizing s with
  | nil => exact ⟨rfl, rfl⟩
  | cons sid rest ih =>
    rw [Server.scan, Go.ensures_bind, Go.ensures_get]
    simp only [scan, Lookup.run]
    cases hl : s.ss.lookup sid with
    | none => exact ih hs
    | some se =>
      refine (Mutex.ensures_readSection fun _ => ?_).mono (fun r t h => ⟨h.1, h.2.2⟩)
        (fun t h => ⟨h.1, h.2.2⟩) (fun t h => (h.2 (hs sid)).elim)
      cases ht : test se with
      | none =>
        simp only [ht]
        exact ⟨rfl, rfl⟩
      | some b =>
        cases b with
        | true =>
          simp only [ht]
          exact ⟨rfl, rfl⟩
        | false =>
          simp only [ht]
          exact ih (hs.acquired sid)

lemma findSession_runs (test : Session → Option Bool) (order : Sessions → List SessionId)
    (hu : Unlocked s) :
    (Server.findSession test (order s.ss)).Ensures s
      (fun r t => (findSession test order).run s.ss = .found r ∧ t = s)
      (fun t => (findSession test order).run s.ss = .panicked ∧ t = s) (fun _ => False) := by
  have hs : SessionsReadable (ssMutex.acquired s) := hu.sessions
  exact (Mutex.ensures_readSection fun _ => scan_runs test (order s.ss) hs).mono
    (fun r t h => ⟨h.2.2, h.1⟩) (fun t h => ⟨h.2.2, h.1⟩) fun t h => h.2 hu.readable

lemma perform_calls (hu : Unlocked s) (req : Request) :
    Calls s (req, (perform prog req s.ss).1) { s with ss := (perform prog req s.ss).2 } := by
  cases req with
  | createSession pid sid =>
    refine Go.ensures_bind.mpr ((createSession_ensures pid sid s).mono ?_ (fun _ h => h.elim)
      fun t h => h.1 ?_)
    · rintro r t ⟨rfl, -, rfl⟩
      exact ⟨rfl, rfl⟩
    · rw [hu.store]
      exact ⟨rfl, rfl⟩
  | getSessionById id =>
    have hrun : Go.Ensures (do pure (((← Go.get).ss.lookup id).map fun _ => id))
        (ssMutex.acquired s)
        (fun r t => t = ssMutex.acquired s ∧ r = (s.ss.lookup id).map fun _ => id)
        (fun t => t = ssMutex.acquired s ∧ False) (fun _ => False) := ⟨rfl, rfl⟩
    refine (Mutex.ensures_readSection fun _ => hrun).mono ?_ ?_ ?_
    · rintro r t ⟨rfl, -, rfl⟩
      exact ⟨rfl, rfl⟩
    · exact fun t h => h.2.2.elim
    · exact fun t h => h.2 hu.readable
  | getSessionByToken env token order => exact findSession_runs (ofToken env.users token) order hu
  | getSessionByPeerId pid order => exact findSession_runs (ofPeerId pid) order hu
  | getSessionByRequest value order => exact findSession_runs (ofCookie value) order hu

lemma calls_run {tr : List (Sessions × (Request × Reply))} (hu : Unlocked s)
    (h : Run (Atomic prog) s.ss tr ss) :
    ∃ tr', tr'.map Prod.snd = tr.map Prod.snd ∧ Run Calls s tr' { s with ss := ss } := by
  have hstep : ∀ ss a ss', Atomic prog ss a ss' →
      Calls { s with ss := ss } a { s with ss := ss' } := by
    rintro ss ⟨req, r⟩ ss' ha
    have hc := perform_calls (hu.with_ss ss) req
    rw [show perform prog req ss = (r, ss') from ha] at hc
    exact hc
  refine ⟨_, ?_, h.map (fun ss => { s with ss := ss }) hstep⟩
  rw [List.map_map]
  rfl

theorem one_by_one (hu : Unlocked s) (h : Run (Steps (Lib.Sections.step prog)) (start s.ss) tr w) :
    (∃ tr', tr'.map Prod.snd = history tr ∧ Run Calls s tr' { s with ss := w.seen }) ∧
      total Phase.answer w.calls = history tr ∧
      (w.mutex.writer = false → w.seen = w.object) := by
  obtain ⟨tr', ha, hr⟩ := run_atomic h
  obtain ⟨tr'', ha', hr'⟩ := calls_run hu hr
  exact ⟨⟨tr'', ha'.trans ha, hr'⟩, (run_answers h).trans (zero_add _), (inv_run h).settled⟩

theorem all_return (h : Run (Steps (Lib.Sections.step prog)) (start ss) tr w) :
    CanReach (Quiet prog) AllReturned w :=
  (inv_run h).can_return

section Samples

lemma unlocked_init : Unlocked Server.init := ⟨rfl, fun _ => ⟨rfl, rfl⟩⟩

def bobArrives : List (Lib.Sections.Action Request) :=
  [.call (.getSessionByPeerId alice.id fun _ => [aliceSession]),
    .call (.createSession bob.id bobSession),
    .call (.getSessionByRequest bobSession.toString fun _ => [aliceSession, bobSession]),
    .rLock 0, .announce 1, .access 0, .access 0, .unlock 0, .lock 1, .access 1]

def bobIsFound : List (Lib.Sections.Action Request) :=
  bobArrives ++ [.unlock 1, .rLock 2, .access 2, .access 2, .access 2, .unlock 2]

def replies (w : World Sessions Reply Request) : List Reply :=
  w.calls.filterMap fun
    | .returned _ r => some r
    | _ => none

theorem bobIsFound_one_by_one : ∃ tr w, tr.map Prod.snd = bobIsFound ∧
    Run (Steps (Lib.Sections.step prog)) (start Server.init.ss) tr w ∧
    replies w = [.found none, .found (some bobSession), .found (some bobSession)] ∧
    (∃ tr', tr'.map Prod.snd = history tr ∧
      Run Calls Server.init tr' { Server.init with ss := w.seen }) ∧
    total Phase.answer w.calls = history tr ∧ (w.mutex.writer = false → w.seen = w.object) := by
  have hend : (exec (Lib.Sections.step prog) (start Server.init.ss) bobIsFound).any (fun w =>
      decide (replies w = [.found none, .found (some bobSession), .found (some bobSession)]))
      = true := rfl
  obtain ⟨tr, w, ha, hr, hw⟩ := exec_any _ hend
  exact ⟨tr, w, ha, hr, of_decide_eq_true hw, one_by_one unlocked_init hr⟩

theorem bobArrives_all_return : ∃ tr w, tr.map Prod.snd = bobArrives ∧
    Run (Steps (Lib.Sections.step prog)) (start ∅) tr w ∧ w.mutex.writer = true ∧
    CanReach (Quiet prog) AllReturned w := by
  have hend : (exec (Lib.Sections.step prog) (start ∅) bobArrives).any (fun w =>
      w.mutex.writer) = true := rfl
  obtain ⟨tr, w, ha, hr, hw⟩ := exec_any _ hend
  exact ⟨tr, w, ha, hr, hw, all_return hr⟩

end Samples

end XbTunnel.Server.Interleaved
