import Mathlib.Logic.Relation
import Mathlib.Data.List.Basic

/-! Runs of a labelled transition relation, and properties that a run keeps exactly as long as its
steps meet a condition. -/

namespace XbTunnel.Lib.Runs

variable {σ α : Type*} (step : σ → α → σ → Prop)

inductive Run : σ → List (σ × α) → σ → Prop
  | nil {s} : Run s [] s
  | cons {s t u a tr} : step s a t → Run t tr u → Run s ((s, a) :: tr) u

def AllStates (P : σ → Prop) (tr : List (σ × α)) (u : σ) : Prop :=
  (∀ p ∈ tr, P p.1) ∧ P u

def AllSteps (Q : σ → α → Prop) (tr : List (σ × α)) : Prop :=
  ∀ p ∈ tr, Q p.1 p.2

@[simp] lemma allStates_nil (P : σ → Prop) (u : σ) :
    AllStates P ([] : List (σ × α)) u ↔ P u := by
  simp [AllStates]

@[simp] lemma allStates_cons (P : σ → Prop) (s u : σ) (a : α) (tr : List (σ × α)) :
    AllStates P ((s, a) :: tr) u ↔ P s ∧ AllStates P tr u := by
  simp only [AllStates, List.forall_mem_cons, and_assoc]

lemma allStates_and {P P' : σ → Prop} {tr : List (σ × α)} {u : σ} :
    AllStates (fun s => P s ∧ P' s) tr u ↔ AllStates P tr u ∧ AllStates P' tr u :=
  ⟨fun h => ⟨⟨fun p hp => (h.1 p hp).1, h.2.1⟩, fun p hp => (h.1 p hp).2, h.2.2⟩,
    fun h => ⟨fun p hp => ⟨h.1.1 p hp, h.2.1 p hp⟩, h.1.2, h.2.2⟩⟩

@[simp] lemma allSteps_nil (Q : σ → α → Prop) : AllSteps Q [] := by
  simp [AllSteps]

@[simp] lemma allSteps_cons (Q : σ → α → Prop) (s : σ) (a : α) (tr : List (σ × α)) :
    AllSteps Q ((s, a) :: tr) ↔ Q s a ∧ AllSteps Q tr := by
  simp only [AllSteps, List.forall_mem_cons]

variable {step} {P P' Inv : σ → Prop} {Q Ok : σ → α → Prop} {s t u : σ} {a : α}
  {tr tr' : List (σ × α)}

lemma allSteps_of_map {R : α → Prop} (h : ∀ a ∈ tr.map Prod.snd, R a) :
    AllSteps (fun _ a => R a) tr :=
  fun p hp => h p.2 (List.mem_map_of_mem hp)

namespace Run

lemma single (h : step s a t) : Run step s [(s, a)] t :=
  .cons h .nil

lemma trans (h : Run step s tr t) (h' : Run step t tr' u) : Run step s (tr ++ tr') u := by
  induction h with
  | nil => exact h'
  | cons he _ ih => exact .cons he (ih h')

lemma snoc (h : Run step s tr t) (he : step t a u) : Run step s (tr ++ [(t, a)]) u :=
  h.trans (single he)

lemma at_step (h : Run step s tr u) (hm : (t, a) ∈ tr) :
    ∃ tr₁ v tr₂, Run step s tr₁ t ∧ step t a v ∧ Run step v tr₂ u := by
  induction h with
  | nil => cases hm
  | cons he hr ih =>
    rcases List.mem_cons.mp hm with hm | hm
    · cases hm
      exact ⟨[], _, _, .nil, he, hr⟩
    · obtain ⟨tr₁, v, tr₂, h₁, hv, h₂⟩ := ih hm
      exact ⟨_, v, tr₂, .cons he h₁, hv, h₂⟩

lemma head_state (h : Run step s tr u) (hP : AllStates P tr u) : P s := by
  cases h with
  | nil => exact hP.2
  | cons _ _ => exact ((allStates_cons _ _ _ _ _).mp hP).1

lemma mono {step' : σ → α → σ → Prop} (hs : ∀ s a t, step s a t → step' s a t)
    (h : Run step s tr u) : Run step' s tr u := by
  induction h with
  | nil => exact .nil
  | cons he _ ih => exact .cons (hs _ _ _ he) ih

lemma invariant (hstep : ∀ s a t, Inv s → step s a t → Inv t) (h : Run step s tr u)
    (hs : Inv s) : AllStates Inv tr u := by
  induction h with
  | nil => exact (allStates_nil _ _).mpr hs
  | cons he _ ih => exact (allStates_cons _ _ _ _ _).mpr ⟨hs, ih (hstep _ _ _ hs he)⟩

lemma invariant_last (hstep : ∀ s a t, Inv s → step s a t → Inv t) (h : Run step s tr u)
    (hs : Inv s) : Inv u :=
  (h.invariant hstep hs).2

lemma invariant_along (hstep : ∀ s a t, Inv s → step s a t → Ok s a → Inv t)
    (h : Run step s tr u) (hok : AllSteps Ok tr) (hs : Inv s) : AllStates Inv tr u := by
  induction h with
  | nil => exact (allStates_nil _ _).mpr hs
  | cons he _ ih =>
    obtain ⟨ha, hrest⟩ := (allSteps_cons _ _ _ _).mp hok
    exact (allStates_cons _ _ _ _ _).mpr ⟨hs, ih hrest (hstep _ _ _ hs he ha)⟩

lemma all_steps_iff (Inv : σ → Prop) (hstep : ∀ s a t, Inv s → step s a t → Inv t)
    (hq : ∀ s a t, Inv s → step s a t → (Q s a ↔ Ok s a)) (h : Run step s tr u) (hs : Inv s) :
    AllSteps Q tr ↔ AllSteps Ok tr := by
  induction h with
  | nil => simp only [allSteps_nil]
  | cons he _ ih => rw [allSteps_cons, allSteps_cons, hq _ _ _ hs he, ih (hstep _ _ _ hs he)]

lemma all_steps (Inv : σ → Prop) (hstep : ∀ s a t, Inv s → step s a t → Inv t)
    (hq : ∀ s a t, Inv s → step s a t → Q s a) (h : Run step s tr u) (hs : Inv s) :
    AllSteps Q tr := by
  induction h with
  | nil => exact allSteps_nil _
  | cons he _ ih => exact (allSteps_cons _ _ _ _).mpr ⟨hq _ _ _ hs he, ih (hstep _ _ _ hs he)⟩

lemma countP_le {costs : α → Bool} (left : σ → ℕ) (hstep : ∀ s a t, Inv s → step s a t → Inv t)
    (hpay : ∀ s a t, Inv s → step s a t → left t + (if costs a then 1 else 0) ≤ left s)
    (h : Run step s tr u) (hs : Inv s) : tr.countP (fun p => costs p.2) ≤ left s := by
  induction h with
  | nil => exact Nat.zero_le _
  | cons he _ ih =>
    rw [List.countP_cons]
    exact Nat.le_trans (Nat.add_le_add_right (ih (hstep _ _ _ hs he)) _) (hpay _ _ _ hs he)

lemma all_states_congr (Inv : σ → Prop) (hstep : ∀ s a t, Inv s → step s a t → Inv t)
    (hpq : ∀ s, Inv s → (P s ↔ P' s)) (h : Run step s tr u) (hs : Inv s) :
    AllStates P tr u ↔ AllStates P' tr u := by
  obtain ⟨htr, hu⟩ := h.invariant hstep hs
  exact and_congr (forall₂_congr fun p hp => hpq p.1 (htr p hp)) (hpq u hu)

/-- If allowed steps keep an invariant that gives `P`, and a step that is not allowed breaks `P`
at once, then a run has `P` throughout exactly when all its steps are allowed. -/
lemma all_states_iff (Inv : σ → Prop) (hP : ∀ s, Inv s → P s)
    (hok : ∀ s a t, Inv s → step s a t → Ok s a → Inv t)
    (hbad : ∀ s a t, Inv s → step s a t → ¬ Ok s a → ¬ P t)
    (h : Run step s tr u) (hs : Inv s) : AllStates P tr u ↔ AllSteps Ok tr := by
  induction h with
  | nil => exact ⟨fun _ => allSteps_nil _, fun _ => (allStates_nil _ _).mpr (hP _ hs)⟩
  | @cons s t u a tr he hr ih =>
    rw [allStates_cons, allSteps_cons]
    by_cases ha : Ok s a
    · rw [ih (hok _ _ _ hs he ha)]
      exact ⟨fun h => ⟨ha, h.2⟩, fun h => ⟨hP _ hs, h.2⟩⟩
    · have hn := hbad _ _ _ hs he ha
      refine ⟨fun h => absurd ?_ hn, fun h => absurd h.1 ha⟩
      exact hr.head_state h.2

end Run

section Views

variable {τ β : Type*} {view : σ → τ} {tr'' : List (τ × β)}

/-- Seen through `view`, the first run passes through the states of the second and no others, in
their order, and may stay in each of them for some steps. -/
structure SeenAs (view : σ → τ) (tr : List (σ × α)) (u : σ) (tr' : List (τ × β)) : Prop where
  order : (tr'.map Prod.fst).Sublist (tr.map fun p => view p.1)
  states : ∀ p ∈ tr, view p.1 ∈ tr'.map Prod.fst ∨ view p.1 = view u

namespace SeenAs

lemma nil (view : σ → τ) (u : σ) : SeenAs view ([] : List (σ × α)) u ([] : List (τ × β)) :=
  ⟨List.nil_sublist _, fun _ hp => by cases hp⟩

lemma quiet (h : SeenAs view tr u tr'') (hr : Run step t tr u) (ht : view t = view s) :
    SeenAs view ((s, a) :: tr) u tr'' := by
  refine ⟨h.order.trans (List.sublist_cons_self _ _), List.forall_mem_cons.mpr ⟨?_, h.states⟩⟩
  rw [← ht]
  cases hr with
  | nil => exact .inr rfl
  | cons => exact h.states (t, _) List.mem_cons_self

lemma moves {b : β} (h : SeenAs view tr u tr'') :
    SeenAs view ((s, a) :: tr) u ((view s, b) :: tr'') := by
  refine ⟨h.order.cons_cons (view s), List.forall_mem_cons.mpr ⟨.inl ?_, fun p hp => ?_⟩⟩
  · exact List.mem_cons_self
  · exact (h.states p hp).imp_left (List.mem_cons_of_mem (view s))

lemma allStates {P : τ → Prop} (h : SeenAs view tr u tr'') (hP : AllStates P tr'' (view u)) :
    AllStates (fun s => P (view s)) tr u := by
  refine ⟨fun p hp => ?_, hP.2⟩
  rcases h.states p hp with hm | he
  · obtain ⟨q, hq, he⟩ := List.mem_map.mp hm
    exact he ▸ hP.1 q hq
  · exact he ▸ hP.2

end SeenAs

lemma Run.map {step' : τ → α → τ → Prop} (f : σ → τ)
    (hf : ∀ s a t, step s a t → step' (f s) a (f t)) (h : Run step s tr u) :
    Run step' (f s) (tr.map (Prod.map f id)) (f u) := by
  induction h with
  | nil => exact .nil
  | cons he _ ih => exact .cons (hf _ _ _ he) ih

lemma Run.seen {act : σ → α → Option β} {step' : τ → β → τ → Prop} (Inv : σ → Prop)
    (hstep : ∀ s a t, Inv s → step s a t → Inv t)
    (hact : ∀ s a t b, Inv s → step s a t → act s a = some b → step' (view s) b (view t))
    (hquiet : ∀ s a t, Inv s → step s a t → act s a = none → view t = view s)
    (h : Run step s tr u) (hs : Inv s) :
    Run step' (view s) (tr.filterMap fun p => (act p.1 p.2).map (view p.1, ·)) (view u) := by
  induction h with
  | nil => exact .nil
  | @cons s t u a tr he _ ih =>
    have hr := ih (hstep _ _ _ hs he)
    rw [List.filterMap_cons]
    cases ha : act s a with
    | none =>
      rw [hquiet _ _ _ hs he ha] at hr
      exact hr
    | some b => exact .cons (hact _ _ _ _ hs he ha) hr

end Views

def CanReach (step : σ → α → σ → Prop) (P : σ → Prop) (s : σ) : Prop :=
  ∃ tr t, Run step s tr t ∧ P t

namespace CanReach

lemma now (h : P s) : CanReach step P s := ⟨[], s, .nil, h⟩

lemma after_run (h : Run step s tr t) (ht : CanReach step P t) : CanReach step P s := by
  obtain ⟨tr', u, hr, hu⟩ := ht
  exact ⟨_, u, h.trans hr, hu⟩

lemma next (h : step s a t) (ht : CanReach step P t) : CanReach step P s :=
  ht.after_run (.single h)

lemma not_of_invariant (Inv : σ → Prop) (hstep : ∀ s a t, Inv s → step s a t → Inv t)
    (hs : Inv s) (hn : ∀ s, Inv s → ¬ P s) : ¬ CanReach step P s := by
  rintro ⟨tr, t, hr, ht⟩
  exact hn t (hr.invariant_last hstep hs) ht

lemma of_rank (Inv : σ → Prop) (rank : σ → ℕ)
    (hprog : ∀ s, Inv s → ¬ P s → ∃ a t, step s a t ∧ Inv t ∧ rank t < rank s) (hs : Inv s) :
    CanReach step P s := by
  induction hn : rank s using Nat.strongRecOn generalizing s with
  | _ n ih =>
    by_cases hP : P s
    · exact .now hP
    · obtain ⟨a, t, hstep, ht, hlt⟩ := hprog s hs hP
      exact .next hstep (ih _ (hn ▸ hlt) ht rfl)

lemma of_runs (Inv : σ → Prop) (rank : σ → ℕ)
    (hprog : ∀ s, Inv s → ¬ P s → ∃ tr t, Run step s tr t ∧ Inv t ∧ rank t < rank s)
    (hs : Inv s) : CanReach step P s := by
  induction hn : rank s using Nat.strongRecOn generalizing s with
  | _ n ih =>
    by_cases hP : P s
    · exact .now hP
    · obtain ⟨tr, t, hr, ht, hlt⟩ := hprog s hs hP
      exact .after_run hr (ih _ (hn ▸ hlt) ht rfl)

end CanReach

section Executable

variable (f : σ → α → Option σ)

def Steps (s : σ) (a : α) (t : σ) : Prop := f s a = some t

def exec : σ → List α → Option σ
  | s, [] => some s
  | s, a :: as => (f s a).bind fun t => exec t as

lemma exec_run {as : List α} (h : exec f s as = some u) :
    ∃ tr, tr.map Prod.snd = as ∧ Run (Steps f) s tr u := by
  induction as generalizing s with
  | nil =>
    obtain rfl := Option.some.inj h
    exact ⟨[], rfl, .nil⟩
  | cons a as ih =>
    obtain ⟨t, ht, hu⟩ := Option.bind_eq_some_iff.mp h
    obtain ⟨tr, rfl, hr⟩ := ih hu
    exact ⟨(s, a) :: tr, rfl, .cons ht hr⟩

lemma exec_any {p : σ → Bool} {as : List α} (h : (exec f s as).any p = true) :
    ∃ tr u, tr.map Prod.snd = as ∧ Run (Steps f) s tr u ∧ p u = true := by
  obtain ⟨u, hu, hp⟩ := (Option.any_eq_true _ _).mp h
  obtain ⟨tr, ha, hr⟩ := exec_run f hu
  exact ⟨tr, u, ha, hr, hp⟩

def follow (ok : σ → α → Bool) : σ → List α → Bool
  | _, [] => true
  | s, a :: as => ok s a && (f s a).any fun t => follow ok t as

lemma follow_run (ok : σ → α → Bool) (hok : ∀ s a, ok s a = true → Q s a) (s : σ)
    (as : List α) (h : follow f ok s as = true) :
    ∃ tr u, tr.map Prod.snd = as ∧ Run (Steps f) s tr u ∧ AllSteps Q tr := by
  induction as generalizing s with
  | nil => exact ⟨[], s, rfl, .nil, allSteps_nil _⟩
  | cons a as ih =>
    simp only [follow, Bool.and_eq_true] at h
    obtain ⟨t, ht, hf⟩ := (Option.any_eq_true _ _).mp h.2
    obtain ⟨tr, u, rfl, hr, hs⟩ := ih t hf
    exact ⟨(s, a) :: tr, u, rfl, .cons ht hr, (allSteps_cons _ _ _ _).mpr ⟨hok s a h.1, hs⟩⟩

lemma follow_decide (Q : σ → α → Prop) [∀ s a, Decidable (Q s a)] (s : σ) (as : List α)
    (h : follow f (fun s a => decide (Q s a)) s as = true) :
    ∃ tr u, tr.map Prod.snd = as ∧ Run (Steps f) s tr u ∧ AllSteps Q tr :=
  follow_run f _ (fun _ _ => of_decide_eq_true) s as h

def track (p : σ → Bool) : σ → List α → Bool
  | s, [] => p s
  | s, a :: as => p s && (f s a).any fun t => track p t as

lemma track_decide (P : σ → Prop) [DecidablePred P] (s : σ) (as : List α)
    (h : track f (fun s => decide (P s)) s as = true) :
    ∃ tr u, tr.map Prod.snd = as ∧ Run (Steps f) s tr u ∧ AllStates P tr u := by
  induction as generalizing s with
  | nil => exact ⟨[], s, rfl, .nil, (allStates_nil _ _).mpr (of_decide_eq_true h)⟩
  | cons a as ih =>
    simp only [track, Bool.and_eq_true, decide_eq_true_eq] at h
    obtain ⟨t, ht, hf⟩ := (Option.any_eq_true _ _).mp h.2
    obtain ⟨tr, u, rfl, hr, hs⟩ := ih t hf
    exact ⟨(s, a) :: tr, u, rfl, .cons ht hr, (allStates_cons _ _ _ _ _).mpr ⟨h.1, hs⟩⟩

end Executable

end XbTunnel.Lib.Runs
