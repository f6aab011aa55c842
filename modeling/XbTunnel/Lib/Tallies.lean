import Mathlib.Algebra.BigOperators.Group.List.Basic
import Mathlib.Algebra.Order.BigOperators.Group.List
import Mathlib.Algebra.Order.Group.Nat

/-! Sums over the entries of a list, and what a change of one entry does to them. -/

namespace XbTunnel.Lib.Tallies

variable {α M : Type*}

def total [AddCommMonoid M] (f : α → M) (l : List α) : M := (l.map f).sum

lemma map_range_update {n i : ℕ} (f : ℕ → α) (y : α) :
    (List.range n).map (Function.update f i y) = ((List.range n).map f).set i y := by
  apply List.ext_getElem
  · simp
  · intro j hj _
    simp only [List.getElem_map, List.getElem_range, List.getElem_set, Function.update_apply,
      eq_comm]

section Monoid

variable [AddCommMonoid M] (f : α → M) {l : List α} {k : ℕ} {x y : α}

@[simp] lemma total_nil : total f [] = 0 := rfl

@[simp] lemma total_append (l l' : List α) : total f (l ++ l') = total f l + total f l' := by
  simp [total]

@[simp] lemma total_singleton (x : α) : total f [x] = f x := by
  simp [total]

lemma total_cons (x : α) (l : List α) : total f (x :: l) = f x + total f l := by
  simp [total]

lemma total_set (h : l[k]? = some x) (y : α) :
    total f (l.set k y) + f x = total f l + f y := by
  induction l generalizing k with
  | nil => cases h
  | cons z l ih =>
    cases k with
    | zero =>
      obtain rfl := Option.some.inj h
      rw [List.set_cons_zero, total_cons, total_cons]
      ac_rfl
    | succ k => rw [List.set_cons_succ, total_cons, total_cons, add_assoc, ih h, ← add_assoc]

lemma single_le_total [PartialOrder M] [CanonicallyOrderedAdd M] (h : x ∈ l) : f x ≤ total f l := by
  obtain ⟨l₁, l₂, rfl⟩ := List.append_of_mem h
  rw [total_append, total_cons]
  exact le_add_left le_self_add

end Monoid

variable {f : α → ℕ} {l : List α} {x : α}

lemma total_mono {g : α → ℕ} (h : ∀ x, f x ≤ g x) (l : List α) : total f l ≤ total g l :=
  List.sum_le_sum fun x _ => h x

lemma total_eq_zero (h : ∀ x ∈ l, f x = 0) : total f l = 0 := by
  rw [total, List.map_congr_left h]
  simp

lemma total_eq_length (h : ∀ x ∈ l, f x = 1) : total f l = l.length := by
  rw [total, List.map_congr_left h]
  simp

lemma total_lt_length (hf : ∀ x, f x ≤ 1) (hx : x ∈ l) (h0 : f x = 0) :
    total f l < l.length := by
  have hlt := List.sum_lt_sum f (fun _ => 1) (fun x _ => hf x) ⟨x, hx, by omega⟩
  simpa [total] using hlt

lemma eq_of_total_le_one {y : α} (h : total f l ≤ 1) (hx : x ∈ l) (hy : y ∈ l) (hfx : f x = 1)
    (hfy : f y = 1) : x = y := by
  obtain ⟨l₁, l₂, rfl⟩ := List.append_of_mem hx
  rw [total_append, total_cons, hfx] at h
  rcases List.mem_append.mp hy with hy | hy
  · have hle := single_le_total f hy
    omega
  · rcases List.mem_cons.mp hy with rfl | hy
    · rfl
    · have hle := single_le_total f hy
      omega

end XbTunnel.Lib.Tallies
