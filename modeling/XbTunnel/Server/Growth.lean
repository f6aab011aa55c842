import XbTunnel.Server.Emissions

/-! What the server never forgets. -/

namespace XbTunnel.Server.Growth

open Common Lib.Effects Lib.Maps Lib.Runs

structure Remains (se se' : Session) : Prop where
  id : se'.id = se.id
  owner : se'.localState.userId = se.localState.userId
  curRoom : se.localState.curRoom.isSome → se'.localState.curRoom.isSome

structure Grown (s t : State) : Prop where
  sessions : ∀ sid se, s.ss.lookup sid = some se → ∃ se', t.ss.lookup sid = some se' ∧ Remains se se'
  rooms : ∀ id r, s.rooms.lookup id = some r → t.rooms.lookup id = some r
  sent : s.sent <+: t.sent

variable {env : Env} {s t u : State} {a : Action} {se se' se'' : Session}

lemma Remains.refl (se : Session) : Remains se se := ⟨rfl, rfl, fun h => h⟩

lemma Remains.trans (h : Remains se se') (h' : Remains se' se'') : Remains se se'' :=
  ⟨h'.id.trans h.id, h'.owner.trans h.owner, h'.curRoom ∘ h.curRoom⟩

lemma Grown.refl (s : State) : Grown s s :=
  ⟨fun _ se hl => ⟨se, hl, .refl se⟩, fun _ _ hl => hl, List.prefix_rfl⟩

lemma Grown.trans (h : Grown s t) (h' : Grown t u) : Grown s u where
  sessions sid se hl := by
    obtain ⟨se', hl', hr⟩ := h.sessions sid se hl
    obtain ⟨se'', hl'', hr'⟩ := h'.sessions sid se' hl'
    exact ⟨se'', hl'', hr.trans hr'⟩
  rooms id r hl := h'.rooms id r (h.rooms id r hl)
  sent := h.sent.trans h'.sent

lemma remains_of_update {sid : SessionId} {f : Session → Session} (hf : ∀ se, Remains se (f se))
    (h : t.ss.lookup sid = (s.ss.lookup sid).map f ∨ t.ss.lookup sid = s.ss.lookup sid)
    (hl : s.ss.lookup sid = some se) : ∃ se', t.ss.lookup sid = some se' ∧ Remains se se' := by
  rcases h with h | h
  · refine ⟨f se, ?_, hf se⟩
    rw [h, hl]
    rfl
  · exact ⟨se, h.trans hl, .refl se⟩

lemma step_sessions (hs : Sound env s) (h : step env s a = some t) {sid : SessionId}
    (hl : s.ss.lookup sid = some se) : ∃ se', t.ss.lookup sid = some se' ∧ Remains se se' := by
  cases step_effect hs h with
  | @created l pid sid₀ _ hf _ =>
    have hne : sid ≠ sid₀ := by
      rintro rfl
      exact hf.1 (Finmap.mem_of_lookup_eq_some hl)
    exact ⟨se, (Finmap.lookup_insert_of_ne _ hne).trans hl, .refl se⟩
  | @made _ _ _ _ _ _ sid₀ _ _ hm =>
    obtain ⟨r, -, hss, -⟩ := hm.ss
    refine remains_of_update (f := fun se =>
      { se with localState := { se.localState with curRoom := some r } })
      (fun _ => ⟨rfl, rfl, fun _ => rfl⟩) ?_ hl
    rw [hss, lookup_setCurRoom]
    split_ifs with he
    · subst he
      exact .inl rfl
    · exact .inr rfl
  | moved _ hm => exact ⟨se, hm.ss ▸ hl, .refl se⟩
  | @selected c _ _ _ _ sid₀ =>
    refine remains_of_update (f := fun se => { se with encoder := some c })
      (fun _ => ⟨rfl, rfl, fun h => h⟩) ?_ hl
    change (attach c sid₀ s).ss.lookup sid = _ ∨ (attach c sid₀ s).ss.lookup sid = _
    rw [lookup_attach]
    split_ifs with he
    · subst he
      exact .inl rfl
    · exact .inr rfl
  | @finished c =>
    refine remains_of_update (f := fun se => { se with encoder := none })
      (fun _ => ⟨rfl, rfl, fun h => h⟩) ?_ hl
    change (detach c s).ss.lookup sid = _ ∨ (detach c s).ss.lookup sid = _
    rw [lookup_detach]
    split_ifs
    · exact .inl rfl
    · exact .inr rfl
  | _ => exact ⟨se, hl, .refl se⟩

lemma step_rooms (hs : Sound env s) (h : step env s a = some t) {id : RoomId} {r : Room}
    (hl : s.rooms.lookup id = some r) : t.rooms.lookup id = some r := by
  cases step_effect hs h with
  | @made _ _ _ id₀ _ _ _ _ _ hm =>
    obtain ⟨⟨⟨-, hf, -⟩, -⟩, -⟩ := Option.ite_none_right_eq_some.mp h
    obtain ⟨r', -, -, hrooms⟩ := hm.ss
    have hne : id ≠ id₀ := by
      rintro rfl
      exact hf (Finmap.mem_of_lookup_eq_some hl)
    rw [hrooms, Finmap.lookup_insert_of_ne _ hne]
    exact hl
  | moved _ hm => exact hm.rooms ▸ hl
  | finished =>
    rw [detach_eq]
    exact hl
  | @selected c _ _ _ _ sid =>
    change (attach c sid s).rooms.lookup id = some r
    rw [attach_eq]
    exact hl
  | _ => exact hl

lemma step_grown (hs : Sound env s) (h : step env s a = some t) : Grown s t where
  sessions _ _ hl := step_sessions hs h hl
  rooms _ _ hl := step_rooms hs h hl
  sent := by
    obtain ⟨new, ht, -⟩ := Emissions.step_writes hs h
    exact ⟨new, ht.symm⟩

lemma run_grown {tr : List (State × Action)} (h : Run (Steps (step env)) s tr t)
    (hs : Sound env s) : Grown s t := by
  induction h with
  | nil => exact .refl _
  | cons he _ ih => exact (step_grown hs he).trans (ih (hs.step he))

theorem nothing_is_forgotten {tr tr' : List (State × Action)}
    (h : Run (Steps (step env)) init tr s) (h' : Run (Steps (step env)) s tr' t) : Grown s t :=
  run_grown h' (sound_run h)

section Samples

def aliceMakesRoom : List Action :=
  [.loginCheck 0 alice.id [], .loginCreate 0 aliceSession, .connect 0,
    .request 0 (tokenReq alice) [aliceSession], .postRooms (some aliceSession.toString)
      (some "halo") (some "2v2") gameRoom [aliceSession] [aliceSession]]

def aliceLeaves : List Action :=
  [.decodeError 0, .finish 0, .loginCheck 1 bob.id [aliceSession], .loginCreate 1 bobSession]

theorem aliceLeaves_forgets_nothing : ∃ tr s tr' t, tr.map Prod.snd = aliceMakesRoom ∧
    Run (Steps (step sampleEnv)) init tr s ∧ tr'.map Prod.snd = aliceLeaves ∧
    Run (Steps (step sampleEnv)) s tr' t ∧ Grown s t := by
  have hend : (exec (step sampleEnv) init aliceMakesRoom).any (fun s =>
      (exec (step sampleEnv) s aliceLeaves).any fun _ => true) = true := rfl
  obtain ⟨tr, s, ha, hr, hs⟩ := exec_any _ hend
  obtain ⟨tr', t, ha', hr', -⟩ := exec_any _ hs
  exact ⟨tr, s, tr', t, ha, hr, ha', hr', nothing_is_forgotten hr hr'⟩

end Samples

end XbTunnel.Server.Growth
