import XbTunnel.Server.Membership

/-! The locks that the operations of the two stores hold when they return. -/

namespace XbTunnel.Server.Balance

open Common Lib.Effects Lib.Maps Lib.Runs

inductive Operation
  | createSession (pid : PeerId) (sid : SessionId)
  | getSessionById (id : SessionId)
  | getSessionByToken (token : Token) (order : List SessionId)
  | getSessionByPeerId (pid : PeerId) (order : List SessionId)
  | getSessionByRequest (sessionid : Option String) (order : List SessionId)
  | getSessionByUserId (id : PeerId) (order : List SessionId)
  | newRoom (name desc : String) (id : RoomId)
  | getRoom (id : RoomId)
  | changeUserRoom (pid : PeerId) (r : Option Room) (order₁ order₂ : List SessionId)
  | notifyRoom (id : RoomId) (order : List SessionId)

def Operation.orders : Operation → List (List SessionId)
  | .getSessionByToken _ order | .getSessionByPeerId _ order | .getSessionByRequest _ order
  | .getSessionByUserId _ order | .notifyRoom _ order => [order]
  | .changeUserRoom _ _ order₁ order₂ => [order₁, order₂]
  | .createSession _ _ | .getSessionById _ | .newRoom _ _ _ | .getRoom _ => []

def discard {α : Type} (m : Go State α) : Go State Unit := m >>= fun _ => pure ()

def Operation.call (env : Env) : Operation → Go State Unit
  | .createSession pid sid => discard (Server.createSession pid sid)
  | .getSessionById id => discard (Server.getSessionById id)
  | .getSessionByToken token order => discard (Server.getSessionByToken env token order)
  | .getSessionByPeerId pid order => discard (Server.getSessionByPeerId pid order)
  | .getSessionByRequest sessionid order => discard (Server.getSessionByRequest sessionid order)
  | .getSessionByUserId id order => discard (Server.getSessionByUserId id order)
  | .newRoom name desc id => discard (Server.newRoom name desc id)
  | .getRoom id => discard (Server.getRoom id)
  | .changeUserRoom pid r order₁ order₂ => Server.changeUserRoom env pid r order₁ order₂
  | .notifyRoom id order => Server.notifyRoom env id order

def step (env : Env) (s : State) (op : Operation) : Option State :=
  if ∀ order ∈ op.orders, Visits s.ss order then
    match op.call env s with
    | .ok _ t => some t
    | .panic _ | .hang _ => none
  else none

structure SameLocks (s t : State) : Prop where
  ssLock : t.ssLock = s.ssLock
  rmsLock : t.rmsLock = s.rmsLock
  sessionLock : t.sessionLock = s.sessionLock

def Balanced (env : Env) (s : State) (op : Operation) : Prop :=
  ∀ t, step env s op = some t → SameLocks s t

structure Unlocked (s : State) : Prop where
  ssLock : s.ssLock = .free
  rmsLock : s.rmsLock = .free
  sessionLock : ∀ sid, s.sessionLock sid = .free

structure WritersProceed (s : State) : Prop where
  ss : ∃ t, ssMutex.lock s = .ok () t
  rms : ∃ t, rmsMutex.lock s = .ok () t
  session : ∀ sid, ∃ t, (sessionMutex sid).lock s = .ok () t

def HasSession (s : State) (id : PeerId) : Prop :=
  ∃ sid se, s.ss.lookup sid = some se ∧ se.localState.userId = id

/-- Only `getSessionByUserId` keeps locks, and only when it finds something. -/
def Releases (s : State) : Operation → Prop
  | .getSessionByUserId id _ => ¬ HasSession s id
  | _ => True

variable {env : Env} {s t u : State} {op : Operation} {order : List SessionId}
  {tr : List (State × Operation)} {id : PeerId}

lemma SameLocks.refl (s : State) : SameLocks s s := ⟨rfl, rfl, rfl⟩

def Keeps {α : Type} (s : State) (m : Go State α) : Prop :=
  m.Ensures s (fun _ t => SameLocks s t) (fun _ => True) fun _ => True

lemma ensures_discard {α : Type} {m : Go State α} {Q E H : State → Prop}
    (h : m.Ensures s (fun _ => Q) E H) : (discard m).Ensures s (fun _ => Q) E H :=
  Go.ensures_bind.mpr h

lemma keeps_discard {α : Type} {m : Go State α} (h : Keeps s m) : Keeps s (discard m) :=
  ensures_discard h

lemma keeps_of_reads {α : Type} {m : Go State α} (h : m.Reads) : Keeps s m := by
  refine (h s).mono ?_ (fun _ _ => trivial) fun _ h => h
  rintro a _ rfl
  exact .refl _

section Lookups

lemma reads_scan (test : Session → Option Bool) (order : List SessionId) :
    (scan test order).Reads := by
  induction order with
  | nil => exact Go.reads_pure none
  | cons sid rest ih =>
    refine Go.reads_get.bind fun s => ?_
    cases s.ss.lookup sid with
    | none => exact ih
    | some se =>
      apply Mutex.reads_section
      cases test se with
      | none => exact Go.reads_panic
      | some b =>
        cases b with
        | true => exact Go.reads_pure (some sid)
        | false => exact ih

lemma reads_findSession (test : Session → Option Bool) (order : List SessionId) :
    (findSession test order).Reads :=
  Mutex.reads_section (reads_scan test order)

lemma reads_getSessionById (id : SessionId) : (getSessionById id).Reads :=
  Mutex.reads_section (Go.reads_get.bind fun s => Go.reads_pure ((s.ss.lookup id).map fun _ => id))

lemma reads_getRoom (id : RoomId) : (getRoom id).Reads :=
  Mutex.reads_section (Go.reads_get.bind fun s => Go.reads_pure (s.rooms.lookup id))

lemma reads_getSessionByRequest (sessionid : Option String) (order : List SessionId) :
    (getSessionByRequest sessionid order).Reads := by
  cases sessionid with
  | none => exact Go.reads_pure none
  | some value => exact reads_findSession (ofCookie value) order

def Matches (s : State) (id : PeerId) (sid : SessionId) : Prop :=
  ∃ se, s.ss.lookup sid = some se ∧ se.localState.userId = id

inductive Scanned (s : State) (id : PeerId) (order : List SessionId) :
    Option SessionId → State → Prop
  | missed : (∀ sid ∈ order, ¬ Matches s id sid) → Scanned s id order none (ssMutex.released s)
  | found {sid} : Matches s id sid → Scanned s id order (some sid) ((sessionMutex sid).acquired s)

lemma Scanned.cons {sid : SessionId} {r : Option SessionId} (h : Scanned s id order r t)
    (hm : ¬ Matches s id sid) : Scanned s id (sid :: order) r t := by
  cases h with
  | missed hn => exact .missed (List.forall_mem_cons.mpr ⟨hm, hn⟩)
  | found hf => exact .found hf

lemma userIdLoop_ensures (id : PeerId) (order : List SessionId) (s : State) :
    (userIdLoop id order).Ensures s (Scanned s id order) (fun _ => False) (fun _ => True) := by
  induction order with
  | nil => exact .missed nofun
  | cons sid rest ih =>
    have hrest : ¬ Matches s id sid → (userIdLoop id rest).Ensures s
        (Scanned s id (sid :: rest)) (fun _ => False) (fun _ => True) :=
      fun hm => ih.mono (fun _ _ h => h.cons hm) (fun _ h => h) fun _ h => h
    rw [userIdLoop, Go.ensures_bind, Go.ensures_get]
    cases hl : s.ss.lookup sid with
    | none =>
      apply hrest
      rintro ⟨se, h, -⟩
      cases hl.symm.trans h
    | some se =>
      simp only [Go.ensures_bind, Mutex.ensures_rLock]
      split
      · by_cases hu : se.localState.userId = id
        · rw [if_pos hu]
          exact .found ⟨se, hl, hu⟩
        · rw [if_neg hu, Go.ensures_bind, Mutex.ensures_rUnlock, Mutex.released_acquired]
          apply hrest
          rintro ⟨se', h, hu'⟩
          obtain rfl := Option.some.inj (hl.symm.trans h)
          exact hu hu'
      · trivial

lemma getSessionByUserId_ensures (id : PeerId) (hv : Visits s.ss order) :
    (getSessionByUserId id order).Ensures s
      (fun _ t => (t = s ∧ ¬ HasSession s id) ∨
        t.ssLock = leak s.ssLock ∧ HasSession s id)
      (fun _ => False) (fun _ => True) := by
  rw [getSessionByUserId, Go.ensures_bind, Mutex.ensures_rLock]
  split
  · refine (userIdLoop_ensures id order (ssMutex.acquired s)).mono ?_ (fun _ h => h) fun _ h => h
    intro r t h
    cases h with
    | missed hn =>
      refine .inl ⟨ssMutex.released_acquired s, ?_⟩
      rintro ⟨sid, se, hl, hu⟩
      exact hn sid (hv.mem_iff.mpr (Finmap.mem_of_lookup_eq_some hl)) ⟨se, hl, hu⟩
    | found hf => exact .inr ⟨rfl, _, hf⟩
  · trivial

end Lookups

lemma leak_ne (l : RWMutex) : leak l ≠ l := by
  intro h
  exact Nat.succ_ne_self _ (congrArg RWMutex.readers h)

lemma step_eq (h : step env s op = some t) :
    (∀ order ∈ op.orders, Visits s.ss order) ∧ op.call env s = .ok () t := by
  obtain ⟨hv, ht⟩ := Option.ite_none_right_eq_some.mp h
  refine ⟨hv, ?_⟩
  cases ho : op.call env s with
  | ok a u =>
    rw [ho] at ht
    cases ht
    rfl
  | panic u | hang u =>
    rw [ho] at ht
    cases ht

lemma call_keeps (hv : ∀ order ∈ op.orders, Visits s.ss order) (hr : Releases s op) :
    Keeps s (op.call env) := by
  cases op with
  | createSession pid sid =>
    refine keeps_discard ((createSession_ensures pid sid s).mono ?_ ?_ ?_)
    · rintro _ t ⟨-, -, rfl⟩
      exact ⟨rfl, rfl, rfl⟩
    · exact fun _ _ => trivial
    · exact fun _ _ => trivial
  | getSessionById id => exact keeps_discard (keeps_of_reads (reads_getSessionById id))
  | getSessionByToken token order =>
    exact keeps_discard (keeps_of_reads (reads_findSession (ofToken env.users token) order))
  | getSessionByPeerId pid order =>
    exact keeps_discard (keeps_of_reads (reads_findSession (ofPeerId pid) order))
  | getSessionByRequest sessionid order =>
    exact keeps_discard (keeps_of_reads (reads_getSessionByRequest sessionid order))
  | getSessionByUserId id order =>
    have hv' := hv order (List.mem_singleton_self order)
    refine keeps_discard ((getSessionByUserId_ensures id hv').mono ?_ ?_ fun _ h => h)
    · rintro r t (⟨rfl, -⟩ | ⟨-, h⟩)
      · exact .refl _
      · exact absurd h hr
    · exact fun _ _ => trivial
  | newRoom name desc id =>
    refine keeps_discard ((newRoom_ensures name desc id s).mono ?_ ?_ ?_)
    · rintro _ t ⟨-, -, -, rfl⟩
      exact ⟨rfl, rfl, rfl⟩
    · exact fun _ _ => trivial
    · exact fun _ _ => trivial
  | getRoom id => exact keeps_discard (keeps_of_reads (reads_getRoom id))
  | changeUserRoom pid r order₁ order₂ =>
    have hw := Membership.call_writes env (s := s) (c := ⟨pid, r, order₁, order₂⟩)
      (hv order₁ List.mem_cons_self) (hv order₂ (List.mem_cons_of_mem _ List.mem_cons_self))
    refine hw.mono ?_ (fun _ _ => trivial) fun _ _ => trivial
    rintro _ t ⟨-, ⟨sent, rfl⟩, -⟩
    exact ⟨rfl, rfl, rfl⟩
  | notifyRoom id order =>
    have hn := notifyRoom_ensures env id fun sid =>
      (hv order (List.mem_singleton_self order)).mem_iff.mpr
    refine hn.mono ?_ (fun _ _ => trivial) fun _ _ => trivial
    rintro _ t ⟨⟨sent, rfl⟩, -⟩
    exact ⟨rfl, rfl, rfl⟩

lemma balanced_iff (h : step env s op = some t) : Balanced env s op ↔ Releases s op := by
  obtain ⟨hv, ht⟩ := step_eq h
  constructor
  · intro hb
    have hlock := (hb t h).ssLock
    cases op with
    | getSessionByUserId id order =>
      intro hs
      have hv' := hv order (List.mem_singleton_self order)
      rcases (ensures_discard (getSessionByUserId_ensures id hv')).of_ok ht with ⟨-, hn⟩ | ⟨hl, -⟩
      · exact hn hs
      · exact leak_ne _ (hl.symm.trans hlock)
    | _ => trivial
  · intro hr v hv'
    obtain rfl := Option.some.inj (h.symm.trans hv')
    exact (call_keeps hv hr).of_ok ht

lemma lock_free {l : Mutex State} (h : l.get s = .free) : ∃ t, l.lock s = .ok () t := by
  rw [Mutex.lock, if_pos]
  · exact ⟨_, rfl⟩
  · rw [h]
    exact ⟨rfl, rfl⟩

lemma Unlocked.writersProceed (h : Unlocked s) : WritersProceed s :=
  ⟨lock_free h.ssLock, lock_free h.rmsLock, fun sid => lock_free (h.sessionLock sid)⟩

lemma Unlocked.step (hu : Unlocked s) (h : step env s op = some t) (hb : Balanced env s op) :
    Unlocked t := by
  have hs := hb t h
  exact ⟨hs.ssLock.trans hu.ssLock, hs.rmsLock.trans hu.rmsLock,
    fun sid => (congrFun hs.sessionLock sid).trans (hu.sessionLock sid)⟩

theorem lock_balance_iff (h : Run (Steps (step env)) s tr u) :
    AllSteps (Balanced env) tr ∧
      (Unlocked s → AllStates (fun t => Unlocked t ∧ WritersProceed t) tr u) ↔
    AllSteps Releases tr := by
  have hsteps : AllSteps (Balanced env) tr ↔ AllSteps Releases tr :=
    h.all_steps_iff (fun _ => True) (fun _ _ _ _ _ => trivial)
      (fun _ _ _ _ hs => balanced_iff hs) trivial
  have hstep : ∀ s op t, Unlocked s ∧ WritersProceed s → Steps (step env) s op t →
      Balanced env s op → Unlocked t ∧ WritersProceed t := by
    intro s op t hu hs hb
    have ht := hu.1.step hs hb
    exact ⟨ht, ht.writersProceed⟩
  rw [and_iff_left_of_imp, hsteps]
  intro hb hu
  exact h.invariant_along hstep hb ⟨hu, hu.writersProceed⟩

theorem notifyRoom_panic {id : RoomId} (hv : Visits s.ss order)
    (h : notifyRoom env id order s = .panic t) : t.ssLock = leak s.ssLock := by
  obtain ⟨⟨sent, rfl⟩, -⟩ := (notifyRoom_ensures env id fun sid => hv.mem_iff.mpr).of_panic h
  rfl

section Samples

def misses (s : State) : Operation → Bool
  | .getSessionByUserId id order =>
    decide (Visits s.ss order ∧ ∀ sid ∈ order, (s.ss.lookup sid).all fun se =>
      decide (se.localState.userId ≠ id))
  | _ => true

lemma releases_of_misses (h : misses s op = true) : Releases s op := by
  cases op with
  | getSessionByUserId id order =>
    obtain ⟨hv, hn⟩ := of_decide_eq_true h
    rintro ⟨sid, se, hl, hu⟩
    have hse := hn sid (hv.mem_iff.mpr (Finmap.mem_of_lookup_eq_some hl))
    rw [hl] at hse
    exact of_decide_eq_true hse hu
  | _ => trivial

def aliceOnly : List Operation :=
  [.createSession alice.id aliceSession, .getSessionByPeerId alice.id [aliceSession],
    .getSessionByUserId bob.id [aliceSession], .newRoom "halo" "2v2" gameRoom,
    .changeUserRoom alice.id (some ⟨gameRoom, "halo", "2v2"⟩) [aliceSession] [aliceSession]]

theorem aliceOnly_balanced : ∃ tr u, tr.map Prod.snd = aliceOnly ∧
    Run (Steps (step sampleEnv)) init tr u ∧ AllSteps (Balanced sampleEnv) tr ∧
    (Unlocked init → AllStates (fun t => Unlocked t ∧ WritersProceed t) tr u) := by
  obtain ⟨tr, u, ha, hr, hs⟩ := follow_run (step sampleEnv) misses (fun _ _ => releases_of_misses)
    init aliceOnly rfl
  exact ⟨tr, u, ha, hr, (lock_balance_iff hr).mpr hs⟩

def findsAlice : List Operation :=
  [.createSession alice.id aliceSession, .getSessionByUserId alice.id [aliceSession]]

theorem findsAlice_keeps_locks : ∃ tr u, tr.map Prod.snd = findsAlice ∧
    Run (Steps (step sampleEnv)) init tr u ∧ Unlocked init ∧ ¬ Unlocked u ∧
    ¬ WritersProceed u := by
  have hend : (exec (step sampleEnv) init findsAlice).any (fun u =>
      decide (u.ssLock = ⟨1, false, false⟩)) = true := rfl
  obtain ⟨tr, u, ha, hr, hd⟩ := exec_any _ hend
  have hl : u.ssLock = ⟨1, false, false⟩ := of_decide_eq_true hd
  refine ⟨tr, u, ha, hr, ⟨rfl, rfl, fun _ => rfl⟩, fun h => ?_, fun h => ?_⟩
  · cases hl.symm.trans h.ssLock
  · obtain ⟨t, ht⟩ := h.ss
    have hget : ssMutex.get u = ⟨1, false, false⟩ := hl
    rw [Mutex.lock, hget] at ht
    cases ht

end Samples

end XbTunnel.Server.Balance
