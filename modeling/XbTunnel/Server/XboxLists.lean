import XbTunnel.Common.Messages
import Mathlib.Data.List.Perm.Subperm
import Mathlib.Order.Nat

/-! `xbld`, the comparison of two lists of consoles. It looks for the entries of the first list in
the second one only. -/

namespace XbTunnel.Server.XboxLists

open Common

def found (v1 : Xbox) : List Xbox → Bool
  | [] => false
  | v2 :: s_two => if v2 = v1 then true else found v1 s_two

def lacks (s_two : List Xbox) : List Xbox → Bool
  | [] => false
  | v1 :: s_one => if found v1 s_two ≠ true then true else lacks s_two s_one

def xbld (s_one s_two : List Xbox) : Bool :=
  if s_one.length ≠ s_two.length then true else lacks s_two s_one

structure Decides (a b : List Xbox) : Prop where
  differ : xbld a b = false ↔ a.Perm b
  symm : xbld a b = xbld b a

/-- An entry of `a` that occurs in it too often takes the place of one that only `b` has. -/
structure Hides (a b : List Xbox) : Prop where
  length : a.length = b.length
  subset : a ⊆ b
  repeated : ∃ x, b.count x < a.count x

variable {a b : List Xbox}

lemma found_iff {v1 : Xbox} : found v1 b = true ↔ v1 ∈ b := by
  induction b with
  | nil => simp [found]
  | cons v2 b ih =>
    rw [found, List.mem_cons]
    by_cases hv : v2 = v1
    · simp [hv]
    · rw [if_neg hv, ih]
      simp [Ne.symm hv]

lemma lacks_eq_false : lacks b a = false ↔ a ⊆ b := by
  induction a with
  | nil => simp [lacks]
  | cons v1 a ih =>
    rw [lacks, List.cons_subset, ← ih, ← found_iff]
    by_cases hf : found v1 b = true <;> simp [hf]

lemma xbld_eq_false : xbld a b = false ↔ a.length = b.length ∧ a ⊆ b := by
  rw [xbld]
  by_cases hl : a.length = b.length
  · rw [if_neg (not_not.mpr hl), lacks_eq_false]
    simp [hl]
  · simp [hl]

lemma xbld_eq_false_of_perm (h : a.Perm b) : xbld a b = false :=
  xbld_eq_false.mpr ⟨h.length_eq, h.subset⟩

lemma perm_iff_count_le (hl : a.length = b.length) :
    a.Perm b ↔ ∀ x, a.count x ≤ b.count x := by
  constructor
  · intro h x
    exact (h.count_eq x).le
  · intro h
    have hs : a.Subperm b := List.subperm_ext_iff.mpr fun x _ => h x
    exact hs.perm_of_length_le hl.ge

lemma differ_iff : (xbld a b = false ↔ a.Perm b) ↔ ¬ Hides a b := by
  constructor
  · rintro h ⟨hl, hs, x, hx⟩
    have hp := h.mp (xbld_eq_false.mpr ⟨hl, hs⟩)
    exact absurd hx (hp.count_eq x).le.not_gt
  · intro hn
    refine ⟨fun h => ?_, xbld_eq_false_of_perm⟩
    obtain ⟨hl, hs⟩ := xbld_eq_false.mp h
    rw [perm_iff_count_le hl]
    intro x
    by_contra hx
    exact hn ⟨hl, hs, x, Nat.lt_of_not_ge hx⟩

lemma decides_of_not_hides (hab : ¬ Hides a b) (hba : ¬ Hides b a) : Decides a b := by
  have hd := differ_iff.mpr hab
  refine ⟨hd, ?_⟩
  rw [Bool.eq_iff_iff, ← not_iff_not, Bool.not_eq_true, Bool.not_eq_true, hd,
    differ_iff.mpr hba, List.perm_comm]

theorem xbld_decides_iff (a b : List Xbox) : Decides a b ↔ ¬ Hides a b ∧ ¬ Hides b a := by
  constructor
  · intro h
    have hba : xbld b a = false ↔ b.Perm a := by
      rw [← h.symm, h.differ, List.perm_comm]
    exact ⟨differ_iff.mp h.differ, differ_iff.mp hba⟩
  · rintro ⟨hab, hba⟩
    exact decides_of_not_hides hab hba

lemma not_hides_of_nodup (ha : a.Nodup) : ¬ Hides a b := by
  rintro ⟨-, hs, x, hx⟩
  have hm : x ∈ a := List.count_pos_iff.mp (Nat.zero_lt_of_lt hx)
  have hb := List.count_pos_iff.mpr (hs hm)
  have ha' := List.nodup_iff_count.mp ha x
  omega

theorem nodup_decides (ha : a.Nodup) (hb : b.Nodup) : Decides a b :=
  decides_of_not_hides (not_hides_of_nodup ha) (not_hides_of_nodup hb)

section Samples

def console : Xbox := newXbox [0x00, 0x1d]

def other : Xbox := newXbox [0x00, 0x22]

theorem repeated_console_unnoticed :
    xbld [console, console] [console, other] = false ∧
      xbld [console, other] [console, console] = true ∧
      ¬ Decides [console, console] [console, other] :=
  ⟨by decide, by decide, fun h => absurd h.symm (by decide)⟩

end Samples

end XbTunnel.Server.XboxLists
