import Mathlib.Algebra.Order.Group.Multiset
import XbTunnel.Lib.Effects
import XbTunnel.Lib.Runs
import XbTunnel.Lib.Tallies

/-! Calls that use an object under a `sync.RWMutex`, one access after the other, while other calls
run. They are as good as calls that take one step. -/

namespace XbTunnel.Lib.Sections

open Effects Runs Tallies

inductive Lookup (σ ρ : Type)
  | done (r : ρ)
  | read (next : σ → Lookup σ ρ)

inductive Update (σ ρ : Type)
  | done (r : ρ)
  | read (next : σ → Update σ ρ)
  | write (f : σ → σ) (next : Update σ ρ)

variable {σ ρ κ : Type}

def Lookup.run : Lookup σ ρ → σ → ρ
  | .done r, _ => r
  | .read next, s => (next s).run s

def Update.run : Update σ ρ → σ → ρ × σ
  | .done r, s => (r, s)
  | .read next, s => (next s).run s
  | .write f next, s => next.run (f s)

inductive Phase (σ ρ κ : Type)
  | called (c : κ)
  -- a writer that keeps new readers out and waits for those inside
  | announced (c : κ) (u : Update σ ρ)
  | reading (c : κ) (rest : Lookup σ ρ)
  | writing (c : κ) (rest : Update σ ρ)
  | returned (c : κ) (r : ρ)

structure World (σ ρ κ : Type) where
  object : σ
  mutex : RWMutex
  before : Option σ
  calls : List (Phase σ ρ κ)

def start (s : σ) : World σ ρ κ := ⟨s, .free, none, []⟩

inductive Action (κ : Type)
  | call (c : κ)
  | rLock (k : ℕ)
  | announce (k : ℕ)
  | lock (k : ℕ)
  | access (k : ℕ)
  | unlock (k : ℕ)

variable (prog : κ → Lookup σ ρ ⊕ Update σ ρ)

def setCall (k : ℕ) (p : Phase σ ρ κ) (w : World σ ρ κ) : World σ ρ κ :=
  { w with calls := w.calls.set k p }

def step (w : World σ ρ κ) : Action κ → Option (World σ ρ κ)
  | .call c => some { w with calls := w.calls ++ [.called c] }
  | .rLock k =>
    match w.calls[k]? with
    | some (.called c) =>
      match prog c with
      | .inl l =>
        if w.mutex.Readable then some (setCall k (.reading c l)
          { w with mutex := { w.mutex with readers := w.mutex.readers + 1 } })
        else none
      | .inr _ => none
    | _ => none
  | .announce k =>
    match w.calls[k]? with
    | some (.called c) =>
      match prog c with
      | .inl _ => none
      | .inr u =>
        if w.mutex.Readable then some (setCall k (.announced c u)
          { w with mutex := { w.mutex with waiting := true } })
        else none
    | _ => none
  | .lock k =>
    match w.calls[k]? with
    | some (.announced c u) =>
      if w.mutex.readers = 0 then some (setCall k (.writing c u)
        { w with
          mutex := { w.mutex with writer := true, waiting := false }
          before := some w.object })
      else none
    | _ => none
  | .access k =>
    match w.calls[k]? with
    | some (.reading c (.read next)) => some (setCall k (.reading c (next w.object)) w)
    | some (.writing c (.read next)) => some (setCall k (.writing c (next w.object)) w)
    | some (.writing c (.write f next)) =>
      some (setCall k (.writing c next) { w with object := f w.object })
    | _ => none
  | .unlock k =>
    match w.calls[k]? with
    | some (.reading c (.done r)) => some (setCall k (.returned c r)
        { w with mutex := { w.mutex with readers := w.mutex.readers - 1 } })
    | some (.writing c (.done r)) => some (setCall k (.returned c r)
        { w with mutex := { w.mutex with writer := false }, before := none })
    | _ => none

inductive Effect (w : World σ ρ κ) : Action κ → World σ ρ κ → Prop
  | call {c} : Effect w (.call c) { w with calls := w.calls ++ [.called c] }
  | rLock {k c l} : w.calls[k]? = some (.called c) → prog c = .inl l → w.mutex.Readable →
      Effect w (.rLock k) (setCall k (.reading c l)
        { w with mutex := { w.mutex with readers := w.mutex.readers + 1 } })
  | announce {k c u} : w.calls[k]? = some (.called c) → prog c = .inr u → w.mutex.Readable →
      Effect w (.announce k) (setCall k (.announced c u)
        { w with mutex := { w.mutex with waiting := true } })
  | lock {k c u} : w.calls[k]? = some (.announced c u) → w.mutex.readers = 0 →
      Effect w (.lock k) (setCall k (.writing c u)
        { w with
          mutex := { w.mutex with writer := true, waiting := false }
          before := some w.object })
  | lookup {k c next} : w.calls[k]? = some (.reading c (.read next)) →
      Effect w (.access k) (setCall k (.reading c (next w.object)) w)
  | read {k c next} : w.calls[k]? = some (.writing c (.read next)) →
      Effect w (.access k) (setCall k (.writing c (next w.object)) w)
  | write {k c f next} : w.calls[k]? = some (.writing c (.write f next)) →
      Effect w (.access k) (setCall k (.writing c next) { w with object := f w.object })
  | rUnlock {k c r} : w.calls[k]? = some (.reading c (.done r)) →
      Effect w (.unlock k) (setCall k (.returned c r)
        { w with mutex := { w.mutex with readers := w.mutex.readers - 1 } })
  | unlock {k c r} : w.calls[k]? = some (.writing c (.done r)) →
      Effect w (.unlock k) (setCall k (.returned c r)
        { w with mutex := { w.mutex with writer := false }, before := none })

variable {prog} {w v : World σ ρ κ} {a : Action κ}

lemma step_effect (h : step prog w a = some v) : Effect prog w a v := by
  cases a with
  | call c =>
    obtain rfl := Option.some.inj h
    exact .call
  | rLock k =>
    simp only [step] at h
    split at h
    · rename_i hk
      split at h
      · rename_i hc
        obtain ⟨hr, h⟩ := Option.ite_none_right_eq_some.mp h
        obtain rfl := Option.some.inj h
        exact .rLock hk hc hr
      · cases h
    · cases h
  | announce k =>
    simp only [step] at h
    split at h
    · rename_i hk
      split at h
      · cases h
      · rename_i hc
        obtain ⟨hr, h⟩ := Option.ite_none_right_eq_some.mp h
        obtain rfl := Option.some.inj h
        exact .announce hk hc hr
    · cases h
  | lock k =>
    simp only [step] at h
    split at h
    · rename_i hk
      obtain ⟨hr, h⟩ := Option.ite_none_right_eq_some.mp h
      obtain rfl := Option.some.inj h
      exact .lock hk hr
    · cases h
  | access k =>
    simp only [step] at h
    split at h
    · rename_i hk
      obtain rfl := Option.some.inj h
      exact .lookup hk
    · rename_i hk
      obtain rfl := Option.some.inj h
      exact .read hk
    · rename_i hk
      obtain rfl := Option.some.inj h
      exact .write hk
    · cases h
  | unlock k =>
    simp only [step] at h
    split at h
    · rename_i hk
      obtain rfl := Option.some.inj h
      exact .rUnlock hk
    · rename_i hk
      obtain rfl := Option.some.inj h
      exact .unlock hk
    · cases h

section Atomic

def perform (prog : κ → Lookup σ ρ ⊕ Update σ ρ) (c : κ) (s : σ) : ρ × σ :=
  match prog c with
  | .inl l => (l.run s, s)
  | .inr u => u.run s

def Atomic (prog : κ → Lookup σ ρ ⊕ Update σ ρ) (s : σ) (a : κ × ρ) (t : σ) : Prop :=
  perform prog a.1 s = (a.2, t)

def performed (w : World σ ρ κ) : Action κ → Option (κ × ρ)
  | .unlock k =>
    match w.calls[k]? with
    | some (.reading c (.done r)) => some (c, r)
    | some (.writing c (.done r)) => some (c, r)
    | _ => none
  | _ => none

def World.seen (w : World σ ρ κ) : σ := w.before.getD w.object

def Phase.reads : Phase σ ρ κ → ℕ
  | .reading _ _ => 1
  | .called _ | .announced _ _ | .writing _ _ | .returned _ _ => 0

def Phase.writes : Phase σ ρ κ → ℕ
  | .writing _ _ => 1
  | .called _ | .announced _ _ | .reading _ _ | .returned _ _ => 0

def Phase.waits : Phase σ ρ κ → ℕ
  | .announced _ _ => 1
  | .called _ | .reading _ _ | .writing _ _ | .returned _ _ => 0

structure Locked (m : RWMutex) (calls : List (Phase σ ρ κ)) : Prop where
  readers : total Phase.reads calls = m.readers
  writer : total Phase.writes calls = m.writer.toNat
  waiting : total Phase.waits calls = m.waiting.toNat
  alone : m.writer = true → m.readers = 0 ∧ m.waiting = false

/-- What a call has left to do gives what it gives as a whole: to a reader, from the object as it
is, and to the writer, from the object as it was found. -/
def OnTrack (prog : κ → Lookup σ ρ ⊕ Update σ ρ) (object : σ) (before : Option σ) :
    Phase σ ρ κ → Prop
  | .announced c u => prog c = .inr u
  | .reading c l => perform prog c object = (l.run object, object)
  | .writing c u => ∀ s ∈ before, perform prog c s = u.run object
  | .called _ | .returned _ _ => True

structure Inv (prog : κ → Lookup σ ρ ⊕ Update σ ρ) (w : World σ ρ κ) : Prop where
  locked : Locked w.mutex w.calls
  before : w.before.isSome = w.mutex.writer
  onTrack : ∀ p ∈ w.calls, OnTrack prog w.object w.before p

variable {m m' : RWMutex} {calls : List (Phase σ ρ κ)} {k : ℕ} {c : κ} {p q : Phase σ ρ κ}
  {l : Lookup σ ρ} {u : Update σ ρ} {object : σ} {before : Option σ}

lemma Locked.append (h : Locked m calls) (c : κ) : Locked m (calls ++ [.called c]) := by
  refine ⟨?_, ?_, ?_, h.alone⟩ <;> rw [total_append]
  · exact h.readers
  · exact h.writer
  · exact h.waiting

lemma Locked.set (h : Locked m calls) (hk : calls[k]? = some p)
    (hr : m'.readers + p.reads = m.readers + q.reads)
    (hw : m'.writer.toNat + p.writes = m.writer.toNat + q.writes)
    (hq : m'.waiting.toNat + p.waits = m.waiting.toNat + q.waits)
    (ha : m'.writer = true → m'.readers = 0 ∧ m'.waiting = false) : Locked m' (calls.set k q) := by
  have hreads := total_set Phase.reads hk q
  have hwrites := total_set Phase.writes hk q
  have hwaits := total_set Phase.waits hk q
  rw [h.readers] at hreads
  rw [h.writer] at hwrites
  rw [h.waiting] at hwaits
  exact ⟨by omega, by omega, by omega, ha⟩

lemma Locked.reader (h : Locked m calls) (hm : .reading c l ∈ calls) :
    m.readers ≠ 0 ∧ m.writer = false := by
  have hle := single_le_total Phase.reads hm
  rw [h.readers] at hle
  have h0 : m.readers ≠ 0 := Nat.one_le_iff_ne_zero.mp hle
  exact ⟨h0, Bool.eq_false_iff.mpr fun hw => h0 (h.alone hw).1⟩

lemma Locked.waiter (h : Locked m calls) (hm : .announced c u ∈ calls) :
    m.waiting = true ∧ m.writer = false := by
  have hle := single_le_total Phase.waits hm
  rw [h.waiting] at hle
  have hw : m.waiting = true := Bool.toNat_eq_one.mp (le_antisymm (Bool.toNat_le _) hle)
  refine ⟨hw, Bool.eq_false_iff.mpr fun ht => ?_⟩
  rw [(h.alone ht).2] at hw
  cases hw

lemma Locked.inside (h : Locked m calls) (hm : .writing c u ∈ calls) : m.writer = true := by
  have hle := single_le_total Phase.writes hm
  rw [h.writer] at hle
  exact Bool.toNat_eq_one.mp (le_antisymm (Bool.toNat_le _) hle)

lemma onTrack_set (h : ∀ p ∈ calls, OnTrack prog object before p) (k : ℕ)
    (hq : OnTrack prog object before q) :
    ∀ p ∈ calls.set k q, OnTrack prog object before p := by
  intro p hm
  rcases List.mem_or_eq_of_mem_set hm with hm | rfl
  · exact h p hm
  · exact hq

lemma inv_start (s : σ) : Inv prog (start s : World σ ρ κ) :=
  ⟨⟨rfl, rfl, rfl, fun h => by cases h⟩, rfl, fun p h => by cases h⟩

lemma Inv.step (hi : Inv prog w) (h : step prog w a = some v) : Inv prog v := by
  cases step_effect h with
  | call =>
    exact ⟨hi.locked.append _, hi.before,
      List.forall_mem_append.mpr ⟨hi.onTrack, List.forall_mem_singleton.mpr trivial⟩⟩
  | rLock hk hc hr =>
    refine ⟨hi.locked.set hk rfl rfl rfl fun hw => ?_, hi.before, onTrack_set hi.onTrack _ ?_⟩
    · cases hr.1.symm.trans hw
    · simp only [OnTrack, perform, hc]
  | announce hk hc hr =>
    refine ⟨hi.locked.set hk rfl rfl ?_ fun hw => ?_, hi.before, onTrack_set hi.onTrack _ hc⟩
    · rw [hr.2]
      rfl
    · cases hr.1.symm.trans hw
  | @lock k c u hk h0 =>
    have hm := List.mem_of_getElem? hk
    obtain ⟨hwait, hw⟩ := hi.locked.waiter hm
    refine ⟨hi.locked.set hk rfl ?_ ?_ fun _ => ⟨h0, rfl⟩, rfl, fun p hp => ?_⟩
    · rw [hw]
      rfl
    · rw [hwait]
      rfl
    · rcases List.mem_or_eq_of_mem_set hp with hp | rfl
      · have ht := hi.onTrack p hp
        cases p with
        | writing => cases hw.symm.trans (hi.locked.inside hp)
        | _ => exact ht
      · rintro s hs
        obtain rfl := Option.some.inj hs
        simp only [perform, show prog c = .inr u from hi.onTrack _ hm]
        rfl
  | lookup hk =>
    have ht := hi.onTrack _ (List.mem_of_getElem? hk)
    exact ⟨hi.locked.set hk rfl rfl rfl hi.locked.alone, hi.before, onTrack_set hi.onTrack _ ht⟩
  | read hk =>
    have ht := hi.onTrack _ (List.mem_of_getElem? hk)
    exact ⟨hi.locked.set hk rfl rfl rfl hi.locked.alone, hi.before, onTrack_set hi.onTrack _ ht⟩
  | @write k c f next hk =>
    have hm := List.mem_of_getElem? hk
    have ht := hi.onTrack _ hm
    have hw := hi.locked.inside hm
    have hl := hi.locked.set (q := .writing c next) hk rfl rfl rfl hi.locked.alone
    refine ⟨hl, hi.before, fun p hp => ?_⟩
    cases p with
    | reading => cases (hl.reader hp).2.symm.trans hw
    | writing c' u' =>
      have hone : total Phase.writes (w.calls.set k (.writing c next)) ≤ 1 := by
        rw [hl.writer]
        exact Bool.toNat_le _
      obtain ⟨hlt, -⟩ := List.getElem?_eq_some_iff.mp hk
      cases eq_of_total_le_one hone (List.mem_set hlt _) hp rfl rfl
      exact ht
    | announced =>
      rcases List.mem_or_eq_of_mem_set hp with hp | he
      · exact hi.onTrack _ hp
      · cases he
    | _ => trivial
  | @rUnlock k c r hk =>
    have hm := List.mem_of_getElem? hk
    obtain ⟨h0, hw⟩ := hi.locked.reader hm
    refine ⟨hi.locked.set hk ?_ rfl rfl fun ht => ?_, hi.before,
      onTrack_set hi.onTrack _ trivial⟩
    · exact Nat.sub_add_cancel (Nat.one_le_iff_ne_zero.mpr h0)
    · cases hw.symm.trans ht
  | unlock hk =>
    have hw := hi.locked.inside (List.mem_of_getElem? hk)
    refine ⟨hi.locked.set hk rfl ?_ rfl (fun ht => by cases ht), rfl, fun p hp => ?_⟩
    · rw [hw]
      rfl
    · rcases List.mem_or_eq_of_mem_set hp with hp | rfl
      · have ht := hi.onTrack p hp
        cases p with
        | writing => rintro s hs; cases hs
        | _ => exact ht
      · trivial

lemma Inv.performs {b : κ × ρ} (hi : Inv prog w) (h : Sections.step prog w a = some v)
    (ha : performed w a = some b) : Atomic prog w.seen b v.seen := by
  cases step_effect h with
  | rUnlock hk =>
    have hm := List.mem_of_getElem? hk
    simp only [performed, hk, Option.some.injEq] at ha
    obtain rfl := ha
    have hb : w.before = none := by
      rw [← Option.not_isSome_iff_eq_none, hi.before, (hi.locked.reader hm).2]
      exact Bool.false_ne_true
    have ht := hi.onTrack _ hm
    rw [World.seen, World.seen, hb]
    simp only [setCall]
    exact ht
  | unlock hk =>
    have hm := List.mem_of_getElem? hk
    simp only [performed, hk, Option.some.injEq] at ha
    obtain rfl := ha
    have hb := hi.before.trans (hi.locked.inside hm)
    obtain ⟨s, hs⟩ := Option.isSome_iff_exists.mp hb
    have ht := hi.onTrack _ hm s hs
    rw [World.seen, hs]
    exact ht
  | lookup hk | read hk | write hk => simp only [performed] at ha; cases ha
  | _ => cases ha

lemma Inv.quiet (hi : Inv prog w) (h : Sections.step prog w a = some v)
    (ha : performed w a = none) : v.seen = w.seen := by
  cases step_effect h with
  | @lock k c u hk h0 =>
    have hw := (hi.locked.waiter (List.mem_of_getElem? hk)).2
    have hb : w.before = none := by
      rw [← Option.not_isSome_iff_eq_none, hi.before, hw]
      exact Bool.false_ne_true
    rw [World.seen, World.seen, hb]
    rfl
  | write hk =>
    have hb := hi.before.trans (hi.locked.inside (List.mem_of_getElem? hk))
    obtain ⟨s, hs⟩ := Option.isSome_iff_exists.mp hb
    simp only [World.seen, setCall, hs]
    rfl
  | rUnlock hk | unlock hk => simp [performed, hk] at ha
  | _ => rfl

def history (tr : List (World σ ρ κ × Action κ)) : List (κ × ρ) :=
  tr.filterMap fun p => performed p.1 p.2

def Phase.answer : Phase σ ρ κ → Multiset (κ × ρ)
  | .returned c r => {(c, r)}
  | .called _ | .announced _ _ | .reading _ _ | .writing _ _ => 0

lemma answers_set (hk : calls[k]? = some p) (hp : p.answer = 0) (q : Phase σ ρ κ) :
    total Phase.answer (calls.set k q) = total Phase.answer calls + q.answer := by
  rw [← total_set Phase.answer hk q, hp, add_zero]

lemma step_answers (h : Sections.step prog w a = some v) :
    total Phase.answer v.calls =
      total Phase.answer w.calls + ((performed w a).toList : Multiset (κ × ρ)) := by
  cases step_effect h with
  | call => exact total_append ..
  | rLock hk | announce hk | lock hk => exact answers_set hk rfl _
  | lookup hk | read hk | write hk | rUnlock hk | unlock hk =>
    simp only [performed, hk]
    exact answers_set hk rfl _

variable {s : σ} {tr : List (World σ ρ κ × Action κ)}

lemma run_answers (h : Run (Steps (Sections.step prog)) w tr v) :
    total Phase.answer v.calls = total Phase.answer w.calls + (history tr : Multiset (κ × ρ)) := by
  induction h with
  | nil => exact (add_zero _).symm
  | @cons w u v a tr he _ ih =>
    rw [ih, step_answers he, add_assoc, Multiset.coe_add, history, history, List.filterMap_cons]
    cases performed w a <;> rfl

lemma Inv.settled (hi : Inv prog w) (hw : w.mutex.writer = false) : w.seen = w.object := by
  have hb := hi.before
  rw [hw, Option.isSome_eq_false_iff, Option.isNone_iff_eq_none] at hb
  rw [World.seen, hb]
  rfl

lemma inv_run (h : Run (Steps (Sections.step prog)) (start s) tr w) : Inv prog w :=
  h.invariant_last (fun _ _ _ hi he => Inv.step hi he) (inv_start s)

lemma run_atomic (h : Run (Steps (Sections.step prog)) (start s) tr w) :
    ∃ tr', tr'.map Prod.snd = history tr ∧ Run (Atomic prog) s tr' w.seen := by
  have hstep : ∀ w a v, Inv prog w → Steps (Sections.step prog) w a v → Inv prog v :=
    fun _ _ _ hi he => hi.step he
  have hact : ∀ w a v b, Inv prog w → Steps (Sections.step prog) w a v →
      performed w a = some b → Atomic prog w.seen b v.seen := fun _ _ _ _ hi he => hi.performs he
  have hquiet : ∀ w a v, Inv prog w → Steps (Sections.step prog) w a v →
      performed w a = none → v.seen = w.seen := fun _ _ _ hi he => hi.quiet he
  refine ⟨_, ?_, h.seen _ hstep hact hquiet (inv_start s)⟩
  rw [List.map_filterMap, history]
  simp only [Option.map_map]
  exact List.filterMap_congr fun p _ => Option.map_id'

end Atomic

section Progress

def Quiet (prog : κ → Lookup σ ρ ⊕ Update σ ρ) (w : World σ ρ κ) (a : Action κ)
    (v : World σ ρ κ) : Prop :=
  (∀ c, a ≠ .call c) ∧ step prog w a = some v

def AllReturned (w : World σ ρ κ) : Prop := ∀ p ∈ w.calls, ∃ c r, p = .returned c r

def Phase.left : Phase σ ρ κ → ℕ
  | .called _ | .announced _ _ | .reading _ _ | .writing _ _ => 1
  | .returned _ _ => 0

def Returns (prog : κ → Lookup σ ρ ⊕ Update σ ρ) (k : ℕ) (w : World σ ρ κ) : Prop :=
  ∃ tr v c r, Run (Quiet prog) w tr v ∧ v.calls = w.calls.set k (.returned c r)

variable {k : ℕ} {c : κ} {q : Phase σ ρ κ}

lemma Returns.last {r : ρ} (h : step prog w (.unlock k) = some v)
    (hv : v.calls = w.calls.set k (.returned c r)) : Returns prog k w :=
  ⟨_, v, c, r, .single ⟨(fun _ he => by cases he), h⟩, hv⟩

lemma Returns.after (ha : ∀ c, a ≠ .call c) (h : step prog w a = some v)
    (hv : v.calls = w.calls.set k q) (hr : Returns prog k v) : Returns prog k w := by
  obtain ⟨tr, u, c, r, hrun, hu⟩ := hr
  refine ⟨_, u, c, r, .cons ⟨ha, h⟩ hrun, ?_⟩
  rw [hu, hv, List.set_set]

lemma get_set (hk : w.calls[k]? = some q) (p : Phase σ ρ κ) :
    (w.calls.set k p)[k]? = some p := by
  obtain ⟨hlt, -⟩ := List.getElem?_eq_some_iff.mp hk
  exact List.getElem?_set_self hlt

lemma reading_returns (l : Lookup σ ρ) (hk : w.calls[k]? = some (.reading c l)) :
    Returns prog k w := by
  induction l generalizing w with
  | done r =>
    have hs : step prog w (.unlock k) = some (setCall k (.returned c r)
        { w with mutex := { w.mutex with readers := w.mutex.readers - 1 } }) := by
      simp only [step, hk]
    exact .last hs rfl
  | read next ih =>
    have hs : step prog w (.access k) = some (setCall k (.reading c (next w.object)) w) := by
      simp only [step, hk]
    exact .after (fun _ h => by cases h) hs rfl (ih w.object (get_set hk _))

lemma writing_returns (u : Update σ ρ) (hk : w.calls[k]? = some (.writing c u)) :
    Returns prog k w := by
  induction u generalizing w with
  | done r =>
    have hs : step prog w (.unlock k) = some (setCall k (.returned c r)
        { w with mutex := { w.mutex with writer := false }, before := none }) := by
      simp only [step, hk]
    exact .last hs rfl
  | read next ih =>
    have hs : step prog w (.access k) = some (setCall k (.writing c (next w.object)) w) := by
      simp only [step, hk]
    exact .after (fun _ h => by cases h) hs rfl (ih w.object (get_set hk _))
  | write f next ih =>
    have hs : step prog w (.access k) =
        some (setCall k (.writing c next) { w with object := f w.object }) := by
      simp only [step, hk]
    exact .after (fun _ h => by cases h) hs rfl (ih (get_set hk _))

lemma announced_returns {u : Update σ ρ} (hk : w.calls[k]? = some (.announced c u))
    (h0 : w.mutex.readers = 0) : Returns prog k w := by
  have hs : step prog w (.lock k) = some (setCall k (.writing c u)
      { w with
        mutex := { w.mutex with writer := true, waiting := false }
        before := some w.object }) := by
    simp only [step, hk, if_pos h0]
  exact .after (fun _ h => by cases h) hs rfl (writing_returns u (get_set hk _))

lemma called_returns (hk : w.calls[k]? = some (.called c)) (hr : w.mutex.Readable)
    (h0 : w.mutex.readers = 0) : Returns prog k w := by
  cases hc : prog c with
  | inl l =>
    have hs : step prog w (.rLock k) = some (setCall k (.reading c l)
        { w with mutex := { w.mutex with readers := w.mutex.readers + 1 } }) := by
      simp only [step, hk, hc, if_pos hr]
    exact .after (fun _ h => by cases h) hs rfl (reading_returns l (get_set hk _))
  | inr u =>
    have hs : step prog w (.announce k) = some (setCall k (.announced c u)
        { w with mutex := { w.mutex with waiting := true } }) := by
      simp only [step, hk, hc, if_pos hr]
    exact .after (fun _ h => by cases h) hs rfl (announced_returns (get_set hk _) h0)

lemma Inv.some_returns (hi : Inv prog w) (hn : ¬ AllReturned w) :
    ∃ k p, w.calls[k]? = some p ∧ p.left = 1 ∧ Returns prog k w := by
  -- a call that is inside, or else a writer that waits, or else any other
  by_cases hw : ∃ c u, .writing c u ∈ w.calls
  · obtain ⟨c, u, hm⟩ := hw
    obtain ⟨k, hk⟩ := List.mem_iff_getElem?.mp hm
    exact ⟨k, _, hk, rfl, writing_returns u hk⟩
  by_cases hr : ∃ c l, .reading c l ∈ w.calls
  · obtain ⟨c, l, hm⟩ := hr
    obtain ⟨k, hk⟩ := List.mem_iff_getElem?.mp hm
    exact ⟨k, _, hk, rfl, reading_returns l hk⟩
  have h0 : w.mutex.readers = 0 := by
    rw [← hi.locked.readers]
    refine total_eq_zero fun p hm => ?_
    cases p with
    | reading c l => exact absurd ⟨c, l, hm⟩ hr
    | _ => rfl
  have hfree : w.mutex.writer = false := by
    rw [← Bool.toNat_eq_zero, ← hi.locked.writer]
    refine total_eq_zero fun p hm => ?_
    cases p with
    | writing c u => exact absurd ⟨c, u, hm⟩ hw
    | _ => rfl
  by_cases ha : ∃ c u, .announced c u ∈ w.calls
  · obtain ⟨c, u, hm⟩ := ha
    obtain ⟨k, hk⟩ := List.mem_iff_getElem?.mp hm
    exact ⟨k, _, hk, rfl, announced_returns hk h0⟩
  have hopen : w.mutex.waiting = false := by
    rw [← Bool.toNat_eq_zero, ← hi.locked.waiting]
    refine total_eq_zero fun p hm => ?_
    cases p with
    | announced c u => exact absurd ⟨c, u, hm⟩ ha
    | _ => rfl
  obtain ⟨p, hp⟩ := not_forall.mp hn
  obtain ⟨hm, hp⟩ := Classical.not_imp.mp hp
  obtain ⟨k, hk⟩ := List.mem_iff_getElem?.mp hm
  cases p with
  | called c => exact ⟨k, _, hk, rfl, called_returns hk ⟨hfree, hopen⟩ h0⟩
  | announced c u => exact absurd ⟨c, u, hm⟩ ha
  | reading c l => exact absurd ⟨c, l, hm⟩ hr
  | writing c u => exact absurd ⟨c, u, hm⟩ hw
  | returned c r => exact absurd ⟨c, r, rfl⟩ hp

lemma Inv.can_return (hi : Inv prog w) : CanReach (Quiet prog) AllReturned w := by
  refine .of_runs (Inv prog) (fun w => total Phase.left w.calls) (fun w hi hn => ?_) hi
  obtain ⟨k, p, hk, hp, tr, v, c, r, hr, hv⟩ := hi.some_returns hn
  refine ⟨tr, v, hr, hr.invariant_last (fun _ _ _ hi hq => hi.step hq.2) hi, ?_⟩
  have ht := total_set Phase.left hk (.returned c r)
  rw [hv]
  rw [hp, Phase.left] at ht
  omega

end Progress

end XbTunnel.Lib.Sections
