import Mathlib.Data.List.Basic
import Mathlib.Order.Defs.Unbundled

/-! Go functions over a shared state. A call returns, panics or waits forever; deferred calls run
unless it waits. -/

namespace XbTunnel.Lib.Effects

variable {σ α β : Type}

inductive Outcome (σ α : Type)
  | ok (a : α) (s : σ)
  | panic (s : σ)
  | hang (s : σ)

def Outcome.state : Outcome σ α → σ
  | .ok _ s | .panic s | .hang s => s

def Go (σ α : Type) := σ → Outcome σ α

namespace Go

def get : Go σ σ := fun s => .ok s s

def modify (f : σ → σ) : Go σ Unit := fun s => .ok () (f s)

def panic : Go σ α := fun s => .panic s

def hang : Go σ α := fun s => .hang s

protected def pure (a : α) : Go σ α := fun s => .ok a s

protected def bind (m : Go σ α) (f : α → Go σ β) : Go σ β := fun s =>
  match m s with
  | .ok a t => f a t
  | .panic t => .panic t
  | .hang t => .hang t

instance : Monad (Go σ) where
  pure := Go.pure
  bind := Go.bind

def deferred (cleanup : Go σ Unit) (m : Go σ α) : Go σ α := fun s =>
  match m s with
  | .ok a t => (cleanup >>= fun _ => Go.pure a) t
  | .panic t => (cleanup >>= fun _ => panic) t
  | .hang t => .hang t

/-- What holds after a call, for each way it can end. -/
def Ensures (m : Go σ α) (s : σ) (Q : α → σ → Prop) (E H : σ → Prop) : Prop :=
  match m s with
  | .ok a t => Q a t
  | .panic t => E t
  | .hang t => H t

variable {m : Go σ α} {f : α → Go σ β} {c : Go σ Unit} {s : σ} {Q Q' : α → σ → Prop}
  {R : β → σ → Prop} {E E' H H' : σ → Prop}

@[simp] lemma ensures_pure (a : α) : Ensures (pure a : Go σ α) s Q E H ↔ Q a s := Iff.rfl

@[simp] lemma ensures_get {Q : σ → σ → Prop} : Ensures get s Q E H ↔ Q s s := Iff.rfl

@[simp] lemma ensures_modify {Q : Unit → σ → Prop} (g : σ → σ) :
    Ensures (modify g) s Q E H ↔ Q () (g s) := Iff.rfl

@[simp] lemma ensures_panic : Ensures (panic : Go σ α) s Q E H ↔ E s := Iff.rfl

@[simp] lemma ensures_bind :
    Ensures (m >>= f) s R E H ↔ Ensures m s (fun a t => Ensures (f a) t R E H) E H := by
  change Ensures (Go.bind m f) s R E H ↔ _
  rw [Ensures, Ensures, Go.bind]
  cases m s <;> rfl

lemma ensures_deferred :
    Ensures (deferred c m) s Q E H ↔
      Ensures m s (fun a t => Ensures c t (fun _ => Q a) E H)
        (fun t => Ensures c t (fun _ => E) E H) H := by
  have hb : ∀ (k : Go σ α) (t : σ), Ensures (c >>= fun _ => k) t Q E H ↔
      Ensures c t (fun _ u => Ensures k u Q E H) E H := fun _ _ => ensures_bind
  rw [Ensures, Ensures, deferred]
  cases m s with
  | ok a t => exact hb (Go.pure a) t
  | panic t => exact hb panic t
  | hang t => rfl

lemma Ensures.of_ok {a : α} {t : σ} (h : Ensures m s Q E H) (hm : m s = .ok a t) : Q a t := by
  simpa only [Ensures, hm] using h

lemma Ensures.of_panic {t : σ} (h : Ensures m s Q E H) (hm : m s = .panic t) : E t := by
  simpa only [Ensures, hm] using h

lemma Ensures.of_hang {t : σ} (h : Ensures m s Q E H) (hm : m s = .hang t) : H t := by
  simpa only [Ensures, hm] using h

lemma Ensures.mono (h : Ensures m s Q E H) (hQ : ∀ a t, Q a t → Q' a t) (hE : ∀ t, E t → E' t)
    (hH : ∀ t, H t → H' t) : Ensures m s Q' E' H' := by
  rw [Ensures]
  cases hm : m s with
  | ok a t => exact hQ a t (h.of_ok hm)
  | panic t => exact hE t (h.of_panic hm)
  | hang t => exact hH t (h.of_hang hm)

lemma Ensures.and (h : Ensures m s Q E H) (h' : Ensures m s Q' E' H') :
    Ensures m s (fun a t => Q a t ∧ Q' a t) (fun t => E t ∧ E' t) fun t => H t ∧ H' t := by
  rw [Ensures]
  cases hm : m s with
  | ok a t => exact ⟨h.of_ok hm, h'.of_ok hm⟩
  | panic t => exact ⟨h.of_panic hm, h'.of_panic hm⟩
  | hang t => exact ⟨h.of_hang hm, h'.of_hang hm⟩

lemma Ensures.not_returns (h : Ensures m s (fun _ _ => False) E H) :
    ¬ Ensures m s Q (fun _ => False) fun _ => False := by
  rw [Ensures] at h ⊢
  cases hm : m s with
  | ok a t =>
    rw [hm] at h
    exact h.elim
  | panic t | hang t => exact id

lemma Ensures.state (h : Ensures m s (fun _ => E) E E) : E (m s).state := by
  rw [Outcome.state.eq_def]
  cases hm : m s with
  | ok a t => exact h.of_ok hm
  | panic t => exact h.of_panic hm
  | hang t => exact h.of_hang hm

lemma ensures_of_forall (hQ : ∀ a t, Q a t) (hE : ∀ t, E t) (hH : ∀ t, H t) :
    Ensures m s Q E H := by
  rw [Ensures]
  cases m s with
  | ok a t => exact hQ a t
  | panic t => exact hE t
  | hang t => exact hH t

lemma state_bind_congr {γ : Type} {g : α → Go σ γ} (h : ∀ a t, (f a t).state = (g a t).state)
    (s : σ) : ((m >>= f) s).state = ((m >>= g) s).state := by
  change (Go.bind m f s).state = (Go.bind m g s).state
  rw [Go.bind, Go.bind]
  cases m s with
  | ok a t => exact h a t
  | panic t | hang t => rfl

lemma state_bind_pure (g : α → β) (s : σ) :
    ((m >>= fun a => pure (g a)) s).state = (m s).state := by
  change (Go.bind m _ s).state = _
  rw [Go.bind]
  cases m s <;> rfl

def Relates (R : σ → σ → Prop) (m : Go σ α) : Prop := ∀ s, R s (m s).state

section Relates

variable {T : σ → σ → Prop}

lemma Relates.ensures (h : Relates T m) (s : σ) : m.Ensures s (fun _ => T s) (T s) (T s) := by
  have hs := h s
  rw [Ensures]
  cases hm : m s <;> rw [hm] at hs <;> exact hs

lemma relates_modify {g : σ → σ} (h : ∀ s, T s (g s)) : Relates T (modify g) := h

variable [IsPreorder σ T]

lemma relates_pure (a : α) : Relates T (pure a : Go σ α) := refl_of T

lemma relates_get : Relates T (get : Go σ σ) := refl_of T

lemma relates_panic : Relates T (panic : Go σ α) := refl_of T

lemma relates_hang : Relates T (hang : Go σ α) := refl_of T

lemma Relates.bind (hm : Relates T m) (hf : ∀ a, Relates T (f a)) : Relates T (m >>= f) := by
  intro s
  have hs := hm s
  change T s (Go.bind m f s).state
  rw [Go.bind]
  cases ho : m s with
  | ok a t =>
    rw [ho] at hs
    exact trans_of T hs (hf a t)
  | panic t =>
    rw [ho] at hs
    exact hs
  | hang t =>
    rw [ho] at hs
    exact hs

lemma Relates.deferred (hc : Relates T c) (hm : Relates T m) : Relates T (deferred c m) := by
  intro s
  have hs := hm s
  rw [Go.deferred]
  cases ho : m s with
  | ok a t =>
    rw [ho] at hs
    exact trans_of T hs (hc.bind (fun _ => relates_pure a) t)
  | panic t =>
    rw [ho] at hs
    exact trans_of T hs (hc.bind (fun _ => relates_panic (α := α)) t)
  | hang t =>
    rw [ho] at hs
    exact hs

end Relates

def Approximates (m m' : Go σ α) : Prop := ∀ s, (∃ t, m s = .panic t) ∨ m' s = m s

section Approximates

variable {m' : Go σ α} {f' : α → Go σ β}

lemma approximates_refl (m : Go σ α) : Approximates m m := fun _ => .inr rfl

lemma approximates_panic (m : Go σ α) : Approximates panic m := fun s => .inl ⟨s, rfl⟩

lemma Approximates.bind (hm : Approximates m m') (hf : ∀ a, Approximates (f a) (f' a)) :
    Approximates (m >>= f) (m' >>= f') := by
  intro s
  change (∃ t, Go.bind m f s = .panic t) ∨ Go.bind m' f' s = Go.bind m f s
  rw [Go.bind, Go.bind]
  rcases hm s with ⟨t, ht⟩ | he
  · rw [ht]
    exact .inl ⟨t, rfl⟩
  · rw [he]
    cases m s with
    | ok a t => exact hf a t
    | panic t | hang t => exact .inr rfl

lemma Approximates.deferred (hc : ∀ s, ∃ t, c s = .ok () t) (hm : Approximates m m') :
    Approximates (deferred c m) (deferred c m') := by
  intro s
  rw [Go.deferred, Go.deferred]
  rcases hm s with ⟨t, ht⟩ | he
  · obtain ⟨u, hu⟩ := hc t
    rw [ht]
    refine .inl ⟨u, ?_⟩
    change Go.bind c (fun _ => panic) t = _
    rw [Go.bind, hu]
    rfl
  · rw [he]
    exact .inr rfl

end Approximates

def Reads (m : Go σ α) : Prop := ∀ s, m.Ensures s (fun _ t => t = s) (fun t => t = s) fun _ => True

lemma reads_pure (a : α) : Reads (pure a : Go σ α) := fun _ => rfl

lemma reads_get : Reads (get : Go σ σ) := fun _ => rfl

lemma reads_panic : Reads (panic : Go σ α) := fun _ => rfl

lemma Reads.bind (hm : Reads m) (hf : ∀ a, Reads (f a)) : Reads (m >>= f) := by
  intro s
  rw [ensures_bind]
  refine (hm s).mono ?_ (fun _ h => h) fun _ h => h
  rintro a _ rfl
  exact hf a _

end Go

structure RWMutex where
  readers : ℕ
  writer : Bool
  waiting : Bool
deriving DecidableEq

namespace RWMutex

def free : RWMutex := ⟨0, false, false⟩

def Readable (l : RWMutex) : Prop := l.writer = false ∧ l.waiting = false

instance (l : RWMutex) : Decidable l.Readable := inferInstanceAs (Decidable (_ ∧ _))

@[simp] lemma free_readable : free.Readable := ⟨rfl, rfl⟩

end RWMutex

structure Mutex (σ : Type) where
  get : σ → RWMutex
  set : RWMutex → σ → σ
  get_set : ∀ l s, get (set l s) = l
  set_get : ∀ s, set (get s) s = s
  set_set : ∀ l l' s, set l (set l' s) = set l s

namespace Mutex

variable (l : Mutex σ)

def acquired (s : σ) : σ := l.set { l.get s with readers := (l.get s).readers + 1 } s

def released (s : σ) : σ := l.set { l.get s with readers := (l.get s).readers - 1 } s

def rLock : Go σ Unit := fun s => if (l.get s).Readable then .ok () (l.acquired s) else .hang s

def rUnlock : Go σ Unit := fun s => .ok () (l.released s)

def lock : Go σ Unit := fun s =>
  if (l.get s).writer = false ∧ (l.get s).readers = 0 then
    .ok () (l.set { l.get s with writer := true } s)
  else .hang (l.set { l.get s with waiting := true } s)

def unlock : Go σ Unit := fun s => .ok () (l.set { l.get s with writer := false } s)

@[simp] lemma released_acquired (s : σ) : l.released (l.acquired s) = s := by
  simp only [released, acquired, l.get_set, l.set_set, Nat.add_sub_cancel]
  exact l.set_get s

section Relates

variable {l} {T : σ → σ → Prop}

lemma relates_lock (h : ∀ k s, T s (l.set k s)) : Go.Relates T l.lock := by
  intro s
  rw [lock]
  split
  · exact h _ s
  · exact h _ s

lemma relates_rUnlock (h : ∀ k s, T s (l.set k s)) : Go.Relates T l.rUnlock := fun s => h _ s

lemma relates_unlock (h : ∀ k s, T s (l.set k s)) : Go.Relates T l.unlock := fun s => h _ s

lemma relates_rLock [IsPreorder σ T] (h : ∀ k s, T s (l.set k s)) : Go.Relates T l.rLock := by
  intro s
  rw [rLock]
  split
  · exact h _ s
  · exact refl_of T s

end Relates

variable {l} {s : σ} {α : Type} {Q : Unit → σ → Prop} {E H : σ → Prop}

lemma ensures_rLock :
    Go.Ensures l.rLock s Q E H ↔ if (l.get s).Readable then Q () (l.acquired s) else H s := by
  rw [Go.Ensures, rLock]
  split <;> rename_i h <;> split at h <;> simp_all

lemma ensures_lock :
    Go.Ensures l.lock s Q E H ↔
      if (l.get s).writer = false ∧ (l.get s).readers = 0 then
        Q () (l.set { l.get s with writer := true } s)
      else H (l.set { l.get s with waiting := true } s) := by
  rw [Go.Ensures, lock]
  split <;> rename_i h <;> split at h <;> simp_all

@[simp] lemma ensures_rUnlock : Go.Ensures l.rUnlock s Q E H ↔ Q () (l.released s) := Iff.rfl

lemma reads_section {m : Go σ α} (hm : m.Reads) :
    Go.Reads (do l.rLock; .deferred l.rUnlock m) := by
  intro s
  rw [Go.ensures_bind, ensures_rLock]
  split
  · rw [Go.ensures_deferred]
    refine (hm (l.acquired s)).mono ?_ ?_ fun _ h => h
    · rintro a _ rfl
      exact ensures_rUnlock.mpr (l.released_acquired s)
    · rintro _ rfl
      exact ensures_rUnlock.mpr (l.released_acquired s)
  · trivial

lemma ensures_readSection {m : Go σ α} {R : α → Prop} {P : Prop}
    (hm : (l.get s).Readable → m.Ensures (l.acquired s) (fun a t => t = l.acquired s ∧ R a)
      (fun t => t = l.acquired s ∧ P) fun _ => False) :
    Go.Ensures (do l.rLock; .deferred l.rUnlock m) s
      (fun a t => t = s ∧ (l.get s).Readable ∧ R a) (fun t => t = s ∧ (l.get s).Readable ∧ P)
      (fun t => t = s ∧ ¬ (l.get s).Readable) := by
  rw [Go.ensures_bind, ensures_rLock]
  split
  · rename_i hr
    rw [Go.ensures_deferred]
    refine (hm hr).mono ?_ ?_ fun _ h => h.elim
    · rintro a t ⟨rfl, h⟩
      exact ensures_rUnlock.mpr ⟨l.released_acquired s, hr, h⟩
    · rintro t ⟨rfl, h⟩
      exact ensures_rUnlock.mpr ⟨l.released_acquired s, hr, h⟩
  · rename_i hr
    exact ⟨rfl, hr⟩

end Mutex

end XbTunnel.Lib.Effects
