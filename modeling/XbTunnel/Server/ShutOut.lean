import XbTunnel.Server.Entry

/-! The site under the collection names of the source. -/

namespace XbTunnel.Server.Api

open Common Lib.Effects Lib.Maps Lib.Runs Accounts Cookies Logins

variable {B : Bcrypt} {C : String → String} {makeLocalState : State → LocalState}
  {db : Db} {w w' : Web} {s t : State} {a : Server.Action}

structure ShutOut (w : Web) : Prop where
  users : w.db.users "xbtusers" = []
  ss : w.server.ss = ∅
  ssLock : w.server.ssLock = .free
  rooms : w.server.rooms = ∅
  admitted : ∀ l kind n p pid, w.calls l ≠ .admitted kind n p pid
  login : ∀ l r, w.calls l = .answered .login r → r = failed .login "err: not found"
  register : ∀ l r, w.calls l = .answered .register r → r = denied ∨ r = {}

variable (makeLocalState) in
def Denies (w : Web) : Op → Prop
  | .visit page cookies ch =>
    (visit id (w.env id makeLocalState) w.db page cookies ch).Ensures w.server
      (fun r t => r = denied ∧ t = w.server) (fun _ => False) fun _ => False
  | _ => True

lemma shutOut_start (db : Db) : ShutOut (start id db) where
  users := initMgo_xbtusers db
  ss := rfl
  ssLock := rfl
  rooms := rfl
  admitted l kind n p pid h := by cases h
  login l r h := by cases h
  register l r h := by cases h

lemma ShutOut.logins (h : ShutOut w) (hi : Inv B C makeLocalState w) (l : LoginId) :
    w.server.logins l = .idle :=
  (hi.fits l).eq_idle (h.admitted l)

lemma ShutOut.setCall (h : ShutOut w) {l : LoginId} {call : Call}
    (ha : ∀ kind n p pid, call ≠ .admitted kind n p pid)
    (hl : ∀ r, call = .answered .login r → r = failed .login "err: not found")
    (hr : ∀ r, call = .answered .register r → r = denied ∨ r = {}) : ShutOut (setCall l call w) := by
  have hcalls : ∀ P : Call → Prop, (∀ l', P (w.calls l')) → P call →
      ∀ l', P ((Api.setCall l call w).calls l') := by
    intro P hold hnew l'
    by_cases he : l' = l
    · rw [he, setCall_calls_self]
      exact hnew
    · rw [setCall_calls_of_ne he]
      exact hold l'
  exact ⟨h.users, h.ss, h.ssLock, h.rooms,
    hcalls (fun c => ∀ kind n p pid, c ≠ .admitted kind n p pid) h.admitted ha,
    hcalls (fun c => ∀ r, c = .answered .login r → r = failed .login "err: not found") h.login hl,
    hcalls (fun c => ∀ r, c = .answered .register r → r = denied ∨ r = {}) h.register hr⟩

lemma ShutOut.sends (h : ShutOut w) (l : LoginId) (kind : Kind) (n p : Bytes) :
    ShutOut (Api.setCall l (.sent kind n p) w) :=
  h.setCall (fun _ _ _ _ hc => by cases hc) (fun _ hc => by cases hc) fun _ hc => by cases hc

lemma ShutOut.aborts (h : ShutOut w) (l : LoginId) : ShutOut (Api.setCall l .aborted w) :=
  h.setCall (fun _ _ _ _ hc => by cases hc) (fun _ hc => by cases hc) fun _ hc => by cases hc

lemma ShutOut.quiet (h : ShutOut w) (hi : Inv B id makeLocalState w) (ha : isLogin a = false)
    (he : Effect (w.env id makeLocalState) w.server a t) : ShutOut { w with server := t } := by
  have hno : ∀ sid, sid ∉ w.server.ss := fun sid => by
    rw [h.ss]
    exact Finmap.notMem_empty
  suffices hk : t.ss = w.server.ss ∧ t.ssLock = w.server.ssLock ∧ t.rooms = w.server.rooms by
    obtain ⟨hss, hlock, hrooms⟩ := hk
    exact ⟨h.users, hss.trans h.ss, hlock.trans h.ssLock, hrooms.trans h.rooms, h.admitted, h.login,
      h.register⟩
  cases he with
  | found | missed | checkWaits | created | createWaits => cases ha
  | made hm => exact absurd hm.2.2.2.1 (hno _)
  | moved hm =>
    rw [h.rooms] at hm
    exact absurd hm Finmap.notMem_empty
  | selected _ _ _ hf =>
    obtain ⟨se, hl, -⟩ := passes_iff.mp (List.find?_some hf)
    exact absurd (Finmap.mem_of_lookup_eq_some hl) (hno _)
  | @finished c =>
    have hd : detach c w.server = w.server := by
      rw [detach]
      cases hc : (w.server.conns c).s with
      | none => rfl
      | some sid => exact absurd (hi.sound.bound c sid hc) (hno sid)
    rw [hd]
    exact ⟨rfl, rfl, rfl⟩
  | _ => exact ⟨rfl, rfl, rfl⟩

lemma ShutOut.registers (h : ShutOut w) (n p salt : Bytes) (inserted : Except String PeerId)
    (l : LoginId) : ShutOut (registerUser B id l n p salt inserted w) := by
  have hdb : ShutOut { w with
      db := (Server.register B id n p salt inserted w.db).1
      registered := w.registered ++
        record n p inserted (Server.register B id n p salt inserted w.db).2 } := by
    refine ⟨?_, h.ss, h.ssLock, h.rooms, h.admitted, h.login, h.register⟩
    obtain ⟨_, hash, -, -, he⟩ | ⟨-, err, he⟩ :=
      register_cases (B := B) (C := id) n p salt inserted w.db <;> rw [he]
    · exact (insertUser_users_of_ne (by decide) _ _).trans h.users
    · exact h.users
  rcases afterRegister_cases n p (Server.register B id n p salt inserted w.db).2 with he | he
  · refine hdb.setCall (fun _ _ _ _ hc => ?_) (fun _ hc => ?_) fun _ hc => ?_ <;>
      cases he.symm.trans hc
  · refine hdb.setCall (fun _ _ _ _ hc => ?_) (fun _ hc => ?_) fun _ hc => ?_ <;>
      cases he.symm.trans hc
    exact .inl rfl

lemma findUser_shutOut (hu : db.users "xbtusers" = []) (kind : Kind) (n p : Bytes) (pick : ℕ) :
    findUser B id db kind n p pick = .answered kind (failed kind "err: not found") := by
  simp only [findUser, id_eq, hu, List.filter_nil, one_nil]
  rfl

lemma ShutOut.step {op : Op} (h : ShutOut w) (hi : Inv B id makeLocalState w)
    (hs : step B id makeLocalState w op = some w') : ShutOut w' := by
  cases op with
  | tcp a =>
    obtain ⟨ha, hs⟩ := Option.ite_none_right_eq_some.mp hs
    obtain ⟨t, ht, rfl⟩ := Option.map_eq_some_iff.mp hs
    exact h.quiet hi (isLogin_eq_false ha) (step_effect hi.sound ht)
  | register l n p salt inserted =>
    obtain ⟨-, hs⟩ := Option.ite_none_right_eq_some.mp hs
    split at hs <;> obtain rfl := Option.some.inj hs
    · exact h.registers _ _ salt inserted l
    · exact h.aborts l
  | login l n p =>
    obtain ⟨-, hs⟩ := Option.ite_none_right_eq_some.mp hs
    split at hs <;> obtain rfl := Option.some.inj hs
    · exact h.sends l _ _ _
    · exact h.aborts l
  | find l pick =>
    simp only [Api.step] at hs
    split at hs
    · rename_i kind n p _
      obtain rfl := Option.some.inj hs
      rw [findUser_shutOut h.users]
      refine h.setCall (fun _ _ _ _ hc => by cases hc) (fun r hr => ?_) fun r hr => ?_
      · obtain ⟨rfl, rfl⟩ := Call.answered.inj hr
        rfl
      · obtain ⟨rfl, rfl⟩ := Call.answered.inj hr
        exact .inr rfl
    · cases hs
  | check l order =>
    simp only [Api.step] at hs
    split at hs
    · rename_i hc
      exact absurd hc (h.admitted l _ _ _ _)
    · cases hs
  | create l sid =>
    obtain ⟨t, ht, rfl⟩ := Option.map_eq_some_iff.mp hs
    simp only [Server.step, h.logins hi l] at ht
    cases ht
  | visit page cookies ch =>
    obtain ⟨⟨hf, hv₁, hv₂, hv₃⟩, hs⟩ := Option.ite_none_right_eq_some.mp hs
    obtain rfl := Option.some.inj hs
    rcases visit_step id w.db cookies page hi.sound hf hv₁ hv₂ hv₃ with he | ⟨a, ha, ht⟩
    · rw [he]
      exact h
    · exact h.quiet hi ha (step_effect hi.sound ht)

lemma ShutOut.denies {op : Op} (h : ShutOut w) (hi : Inv B id makeLocalState w)
    (hs : Api.step B id makeLocalState w op = some w') : Denies makeLocalState w op := by
  cases op with
  | visit page cookies ch =>
    obtain ⟨⟨-, hv₁, -, -⟩, -⟩ := Option.ite_none_right_eq_some.mp hs
    refine withSession_ensures hi.sound hv₁ (fun _ => ⟨rfl, rfl⟩) (fun sid _ hm _ => ?_) fun hn => ?_
    · rw [h.ss] at hm
      exact absurd hm Finmap.notMem_empty
    · rw [h.ssLock] at hn
      exact hn RWMutex.free_readable
  | _ => trivial

theorem nobody_gets_in (db : Db) {tr : List (Web × Op)} {u : Web}
    (h : Run (Steps (step B id makeLocalState)) (start id db) tr u) :
    AllStates ShutOut tr u ∧ AllSteps (Denies makeLocalState) tr := by
  have hstep : ∀ w op w', Inv B id makeLocalState w ∧ ShutOut w →
      Steps (step B id makeLocalState) w op w' → Inv B id makeLocalState w' ∧ ShutOut w' :=
    fun _ _ _ hw hs => ⟨hw.1.step hs, hw.2.step hw.1 hs⟩
  have hstart : Inv B id makeLocalState (start id db) ∧ ShutOut (start id db) :=
    ⟨inv_start db, shutOut_start db⟩
  obtain ⟨htr, hu⟩ := h.invariant hstep hstart
  exact ⟨⟨fun x hx => (htr x hx).2, hu.2⟩,
    h.all_steps _ hstep (fun _ _ _ hw hs => hw.2.denies hw.1 hs) hstart⟩

section Samples

def aliceTries : List Op :=
  [aliceRegisters, .login 1 (some alice.nickname) (some [0x70]), .find 1 0, .find 0 0,
    opensStatus [Cookies.setSessionCookie aliceSession] []]

theorem aliceTries_in_vain : ∃ tr u, tr.map Prod.snd = aliceTries ∧
    Run (Steps (sampleSite id)) (start id emptyDb) tr u ∧
    AllStates ShutOut tr u ∧ AllSteps (Denies fun _ => LocalState.zero) tr := by
  have hend : (exec (sampleSite id) (start id emptyDb) aliceTries).any (fun _ => true) = true := rfl
  obtain ⟨tr, u, ha, hr, -⟩ := exec_any _ hend
  exact ⟨tr, u, ha, hr, nobody_gets_in emptyDb hr⟩

end Samples

end XbTunnel.Server.Api
