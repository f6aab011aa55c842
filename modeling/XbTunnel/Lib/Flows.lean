import XbTunnel.Lib.Runs
import Mathlib.Data.List.Flatten
import Mathlib.Data.List.Forall2

/-! Values that pass through a part of a system in order: what has come out and what is still inside
is what has gone in, less what got lost. -/

namespace XbTunnel.Lib.Flows

open Lib.Runs

variable {σ α β γ : Type*}

def total (f : σ → α → List β) (tr : List (σ × α)) : List β := tr.flatMap fun p => f p.1 p.2

structure Stage (σ α β : Type*) where
  inflow : σ → α → List β
  store : σ → List β
  outflow : σ → α → List β

namespace Stage

def comp (S U : Stage σ α β) : Stage σ α β where
  inflow := S.inflow
  store s := U.store s ++ S.store s
  outflow := U.outflow

def map (f : β → γ) (S : Stage σ α β) : Stage σ α γ where
  inflow s a := (S.inflow s a).map f
  store s := (S.store s).map f
  outflow s a := (S.outflow s a).map f

def filter (p : β → Bool) (S : Stage σ α β) : Stage σ α β where
  inflow s a := (S.inflow s a).filter p
  store s := (S.store s).filter p
  outflow s a := (S.outflow s a).filter p

def within {σ' α' : Type*} (proj : σ' → σ) (act : α' → Option α) (S : Stage σ α β) :
    Stage σ' α' β where
  inflow s a := ((act a).map fun b => S.inflow (proj s) b).getD []
  store s := S.store (proj s)
  outflow s a := ((act a).map fun b => S.outflow (proj s) b).getD []

variable (step : σ → α → σ → Prop) (Inv : σ → Prop) (S U : Stage σ α β)

def Conserves : Prop :=
  ∀ s a t, Inv s → step s a t → S.store s ++ S.inflow s a = S.outflow s a ++ S.store t

def Keeps : Prop :=
  ∀ s a t, Inv s → step s a t → (S.outflow s a ++ S.store t).Sublist (S.store s ++ S.inflow s a)

end Stage

@[simp] lemma total_nil (f : σ → α → List β) : total f [] = [] := rfl

@[simp] lemma total_cons (f : σ → α → List β) (s : σ) (a : α) (tr : List (σ × α)) :
    total f ((s, a) :: tr) = f s a ++ total f tr :=
  List.flatMap_cons

lemma total_map (g : β → γ) (f : σ → α → List β) (tr : List (σ × α)) :
    total (fun s a => (f s a).map g) tr = (total f tr).map g := by
  rw [total, total, List.map_flatMap]

lemma countP_le_length_total {p : α → Bool} {f : σ → α → List β} {tr : List (σ × α)}
    (h : AllSteps (fun s a => p a = true → f s a ≠ []) tr) :
    tr.countP (fun x => p x.2) ≤ (total f tr).length := by
  induction tr with
  | nil => exact Nat.zero_le _
  | cons x tr ih =>
    obtain ⟨hx, htr⟩ := (allSteps_cons _ _ _ _).mp h
    rw [List.countP_cons, total_cons, List.length_append]
    have hle : (if p x.2 then 1 else 0) ≤ (f x.1 x.2).length := by
      split_ifs with hp
      · exact List.length_pos_iff.mpr (hx hp)
      · exact Nat.zero_le _
    have hrest := ih htr
    omega

lemma total_filter (p : β → Bool) (f : σ → α → List β) (tr : List (σ × α)) :
    total (fun s a => (f s a).filter p) tr = (total f tr).filter p := by
  rw [total, total, List.filter_flatMap]

lemma total_sublist {f g : σ → α → List β} {tr : List (σ × α)}
    (h : AllSteps (fun s a => (f s a).Sublist (g s a)) tr) : (total f tr).Sublist (total g tr) :=
  List.Sublist.flatMap_right tr h

variable {step : σ → α → σ → Prop} {Inv : σ → Prop} {S U : Stage σ α β} {s u : σ}
  {tr : List (σ × α)}

lemma total_forall₂ {R : β → γ → Prop} {f : σ → α → List β} {g : σ → α → List γ}
    (h : AllSteps (fun s a => List.Forall₂ R (f s a) (g s a)) tr) :
    List.Forall₂ R (total f tr) (total g tr) := by
  induction tr with
  | nil => exact .nil
  | cons p tr ih =>
    obtain ⟨hp, htr⟩ := (allSteps_cons _ _ _ _).mp h
    exact List.rel_append hp (ih htr)

lemma foldl_total (val : σ → γ) (g : γ → β → γ) {f : σ → α → List β}
    (hstep : ∀ s a t, Inv s → step s a t → Inv t)
    (hval : ∀ s a t, Inv s → step s a t → val t = (f s a).foldl g (val s))
    (hr : Run step s tr u) (hs : Inv s) : val u = (total f tr).foldl g (val s) := by
  induction hr with
  | nil => rfl
  | cons he _ ih =>
    rw [ih (hstep _ _ _ hs he), total_cons, List.foldl_append, hval _ _ _ hs he]

lemma getLast_total (val : σ → γ) (of : β → γ) {f : σ → α → List β}
    (hstep : ∀ s a t, step s a t → val t = ((f s a).getLast?.map of).getD (val s))
    (hr : Run step s tr u) : val u = ((total f tr).getLast?.map of).getD (val s) := by
  induction hr with
  | nil => rfl
  | @cons s t u a tr he _ ih =>
    rw [ih, total_cons, List.getLast?_append, hstep s a t he]
    cases (total f tr).getLast? <;> rfl

namespace Stage

lemma Conserves.run (h : S.Conserves step Inv) (hstep : ∀ s a t, Inv s → step s a t → Inv t)
    (hr : Run step s tr u) (hs : Inv s) :
    S.store s ++ total S.inflow tr = total S.outflow tr ++ S.store u := by
  induction hr with
  | nil => simp
  | @cons s t u a tr he _ ih =>
    calc S.store s ++ total S.inflow ((s, a) :: tr)
        = (S.store s ++ S.inflow s a) ++ total S.inflow tr := by
          rw [total_cons, List.append_assoc]
      _ = S.outflow s a ++ (S.store t ++ total S.inflow tr) := by
          rw [h s a t hs he, List.append_assoc]
      _ = total S.outflow ((s, a) :: tr) ++ S.store u := by
          rw [ih (hstep _ _ _ hs he), total_cons, List.append_assoc]

lemma Keeps.run (h : S.Keeps step Inv) (hstep : ∀ s a t, Inv s → step s a t → Inv t)
    (hr : Run step s tr u) (hs : Inv s) :
    (total S.outflow tr ++ S.store u).Sublist (S.store s ++ total S.inflow tr) := by
  induction hr with
  | nil => simp
  | @cons s t u a tr he _ ih =>
    rw [total_cons, total_cons, List.append_assoc, ← List.append_assoc (S.store s)]
    have hrest := (ih (hstep _ _ _ hs he)).append_left (S.outflow s a)
    rw [← List.append_assoc _ (S.store t)] at hrest
    exact hrest.trans ((h s a t hs he).append_right _)

lemma Conserves.keeps (h : S.Conserves step Inv) : S.Keeps step Inv :=
  fun s a t hs he => (h s a t hs he).symm ▸ .refl _

lemma Conserves.comp (hS : S.Conserves step Inv) (hU : U.Conserves step Inv)
    (h : ∀ s a, U.inflow s a = S.outflow s a) : (S.comp U).Conserves step Inv := by
  intro s a t hs he
  simp only [Stage.comp]
  rw [List.append_assoc, hS s a t hs he, ← h, ← List.append_assoc, hU s a t hs he,
    List.append_assoc]

lemma Keeps.comp (hS : S.Keeps step Inv) (hU : U.Keeps step Inv)
    (h : ∀ s a, U.inflow s a = S.outflow s a) : (S.comp U).Keeps step Inv := by
  intro s a t hs he
  have hu := (hU s a t hs he).append_right (S.store t)
  have hl := (hS s a t hs he).append_left (U.store s)
  rw [h] at hu
  simp only [List.append_assoc] at hu
  simp only [Stage.comp, List.append_assoc]
  exact hu.trans hl

lemma Keeps.map (h : S.Keeps step Inv) (f : β → γ) : (S.map f).Keeps step Inv := by
  intro s a t hs he
  simp only [Stage.map, ← List.map_append]
  exact (h s a t hs he).map f

lemma Keeps.filter (h : S.Keeps step Inv) (p : β → Bool) : (S.filter p).Keeps step Inv := by
  intro s a t hs he
  simp only [Stage.filter, ← List.filter_append]
  exact (h s a t hs he).filter p

lemma Keeps.within {σ' α' : Type*} {step' : σ' → α' → σ' → Prop} {Inv' : σ' → Prop}
    {proj : σ' → σ} {act : α' → Option α} (h : S.Keeps step Inv)
    (hinv : ∀ s, Inv' s → Inv (proj s))
    (hact : ∀ s a t b, step' s a t → act a = some b → step (proj s) b (proj t))
    (hother : ∀ s a t, step' s a t → act a = none → proj t = proj s) :
    (S.within proj act).Keeps step' Inv' := by
  intro s a t hs he
  simp only [Stage.within]
  cases ha : act a with
  | none => simp [hother s a t he ha]
  | some b => exact h _ b _ (hinv s hs) (hact s a t b he ha)

end Stage

end XbTunnel.Lib.Flows
