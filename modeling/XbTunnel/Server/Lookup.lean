import XbTunnel.Server.Step

/-! What the lookups of the session store find. They change nothing. -/

namespace XbTunnel.Server

open Common Lib.Effects Lib.Maps

def SessionsReadable (s : State) : Prop := ∀ sid, (s.sessionLock sid).Readable

def passes (test : Session → Option Bool) (s : State) (sid : SessionId) : Bool :=
  (s.ss.lookup sid).any fun se => decide (test se = some true)

def Fails (test : Session → Option Bool) (s : State) : Prop :=
  ∃ sid se, s.ss.lookup sid = some se ∧ test se = none

lemma SessionsReadable.acquired {s : State} (hs : SessionsReadable s) (sid : SessionId) :
    SessionsReadable ((sessionMutex sid).acquired s) := by
  intro sid'
  by_cases h : sid' = sid
  · subst h
    simpa [Mutex.acquired, sessionMutex, RWMutex.Readable] using hs sid'
  · simpa [Mutex.acquired, sessionMutex, Function.update_of_ne h] using hs sid'

variable {test : Session → Option Bool} {order : List SessionId} {s : State} {sid : SessionId}

lemma passes_iff : passes test s sid = true ↔
    ∃ se, s.ss.lookup sid = some se ∧ test se = some true := by
  simp [passes, Option.any_eq_true]

lemma scan_ensures (test : Session → Option Bool) (order : List SessionId)
    (hs : SessionsReadable s) :
    (scan test order).Ensures s (fun r t => t = s ∧ r = order.find? (passes test s))
      (fun t => t = s ∧ Fails test s) (fun _ => False) := by
  induction order generalizing s with
  | nil => simp [scan]
  | cons sid rest ih =>
    rw [scan, Go.ensures_bind, Go.ensures_get]
    cases hl : s.ss.lookup sid with
    | none =>
      have hp : passes test s sid = false := by simp [passes, hl]
      simpa only [List.find?_cons, hp] using ih hs
    | some se =>
      refine (Mutex.ensures_readSection
        (R := fun r => r = (sid :: rest).find? (passes test s)) (P := Fails test s)
        fun _ => ?_).mono (fun r t h => ⟨h.1, h.2.2⟩) (fun t h => ⟨h.1, h.2.2⟩)
        (fun t h => (h.2 (hs sid)).elim)
      have hp : passes test s sid = decide (test se = some true) := by simp [passes, hl]
      rw [List.find?_cons, hp]
      cases ht : test se with
      | none => exact ⟨rfl, sid, se, hl, ht⟩
      | some b =>
        cases b with
        | true => exact ⟨rfl, rfl⟩
        | false => exact ih (hs.acquired sid)

lemma findSession_ensures (test : Session → Option Bool) (order : List SessionId)
    (hs : SessionsReadable s) :
    (findSession test order).Ensures s
      (fun r t => t = s ∧ s.ssLock.Readable ∧ r = order.find? (passes test s))
      (fun t => t = s ∧ s.ssLock.Readable ∧ Fails test s)
      (fun t => t = s ∧ ¬ s.ssLock.Readable) :=
  Mutex.ensures_readSection fun _ => scan_ensures test order hs

lemma find_passes_eq_none (hv : Visits s.ss order) :
    order.find? (passes test s) = none ↔ ∀ sid, passes test s sid = false := by
  rw [List.find?_eq_none]
  constructor
  · intro h sid
    by_cases hm : sid ∈ s.ss
    · exact Bool.eq_false_of_not_eq_true (h sid (hv.mem_iff.mpr hm))
    · simp [passes, Finmap.lookup_eq_none.mpr hm]
  · intro h sid _
    simp [h sid]

lemma ofPeerId_not_fails (pid : PeerId) (s : State) : ¬ Fails (ofPeerId pid) s := by
  rintro ⟨sid, se, -, h⟩
  simp [ofPeerId] at h

lemma ofCookie_not_fails (value : String) (s : State) : ¬ Fails (ofCookie value) s := by
  rintro ⟨sid, se, -, h⟩
  simp [ofCookie] at h

lemma passes_ofPeerId {pid : PeerId} : passes (ofPeerId pid) s sid = true ↔
    ∃ se, s.ss.lookup sid = some se ∧ se.localState.userId = pid := by
  simp [passes_iff, ofPeerId]

lemma hexDigit_injective {m n : ℕ} (hm : m < 16) (hn : n < 16) (h : hexDigit m = hexDigit n) :
    m = n := by
  have hd : ∀ i j : Fin 16, hexDigit i = hexDigit j → i = j := by decide
  exact congrArg Fin.val (hd ⟨m, hm⟩ ⟨n, hn⟩ h)

lemma hex_injective : Function.Injective hex := by
  intro a b h
  have hl := String.ofList_injective h
  induction a generalizing b with
  | nil => cases b <;> simp_all
  | cons x a ih =>
    cases b with
    | nil => simp at hl
    | cons y b =>
      simp only [List.flatMap_cons, List.cons_append, List.nil_append, List.cons.injEq] at hl
      obtain ⟨h₁, h₂, h₃⟩ := hl
      have hx := x.toNat_lt
      have hy := y.toNat_lt
      have hq := hexDigit_injective (by omega) (by omega) h₁
      have hr := hexDigit_injective (by omega) (by omega) h₂
      have hxy : x = y := UInt8.toNat_inj.mp (by omega)
      rw [hxy, ih (congrArg String.ofList h₃) h₃]

lemma SessionId.toString_injective : Function.Injective SessionId.toString := by
  rintro ⟨a⟩ ⟨b⟩ h
  exact congrArg SessionId.mk (hex_injective h)

end XbTunnel.Server
