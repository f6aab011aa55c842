import Mathlib.Algebra.BigOperators.Group.List.Basic
import Mathlib.Algebra.Order.Group.Nat
import Mathlib.Tactic.Ring

/-! The 16-bit ones' complement sum of a byte string: addition with end-around carry, its
description as a residue modulo 65535, and the folding of high bits into low ones. -/

namespace XbTunnel.Lib.OnesComplement

def word (hi lo : UInt8) : ℕ := hi.toNat * 256 + lo.toNat

/-- The big-endian 16-bit words of a byte string; an odd last byte is the high byte of a word
padded with zero. -/
def words : List UInt8 → List ℕ
  | [] => []
  | [hi] => [word hi 0]
  | hi :: lo :: rest => word hi lo :: words rest

def addCarry (a b : ℕ) : ℕ := if a + b < 65536 then a + b else a + b - 65535

def onesSum (ws : List ℕ) : ℕ := ws.foldl addCarry 0

def residue (s : ℕ) : ℕ := if s = 0 then 0 else (s - 1) % 65535 + 1

lemma word_lt (hi lo : UInt8) : word hi lo < 65536 := by
  have hh := hi.toNat_lt
  have hl := lo.toNat_lt
  simp only [word]
  omega

lemma words_lt (b : List UInt8) : ∀ w ∈ words b, w < 65536 := by
  induction b using words.induct with
  | case1 => simp [words]
  | case2 hi => simpa [words] using word_lt hi 0
  | case3 hi lo rest ih => simpa [words] using ⟨word_lt hi lo, ih⟩

lemma words_append {a : List UInt8} (b : List UInt8) (ha : a.length % 2 = 0) :
    words (a ++ b) = words a ++ words b := by
  induction a using words.induct with
  | case1 => rfl
  | case2 hi => simp at ha
  | case3 hi lo rest ih =>
    have hr : rest.length % 2 = 0 := by
      simp only [List.length_cons] at ha
      omega
    simp only [List.cons_append, words, ih hr]

lemma words_sum_le (b : List UInt8) : (words b).sum ≤ 65535 * b.length := by
  induction b using words.induct with
  | case1 => simp [words]
  | case2 hi =>
    have := word_lt hi 0
    simp only [words, List.sum_singleton, List.length_singleton]
    omega
  | case3 hi lo rest ih =>
    have := word_lt hi lo
    simp only [words, List.sum_cons, List.length_cons]
    omega

@[simp] lemma residue_zero : residue 0 = 0 := rfl

lemma residue_le (s : ℕ) : residue s ≤ 65535 := by
  rw [residue]
  split <;> omega

lemma residue_pos {s : ℕ} (h : 0 < s) : 0 < residue s := by
  rw [residue]
  split <;> omega

lemma residue_of_le {s : ℕ} (h : s ≤ 65535) : residue s = s := by
  rw [residue]
  split <;> omega

lemma residue_mod (s : ℕ) : residue s % 65535 = s % 65535 := by
  rw [residue]
  split <;> omega

lemma residue_congr {a b : ℕ} (ha : 0 < a) (hb : 0 < b) (h : a % 65535 = b % 65535) :
    residue a = residue b := by
  rw [residue, residue]
  split <;> split <;> omega

lemma residue_add (a b : ℕ) : residue (residue a + b) = residue (a + b) := by
  rcases Nat.eq_zero_or_pos a with rfl | ha
  · rfl
  · have hr := residue_pos ha
    have hm := residue_mod a
    exact residue_congr (by omega) (by omega) (by omega)

lemma addCarry_residue {a b : ℕ} (ha : a < 65536) (hb : b < 65536) :
    addCarry a b = residue (a + b) := by
  rw [addCarry, residue]
  split <;> split <;> omega

lemma foldl_addCarry {ws : List ℕ} (hw : ∀ w ∈ ws, w < 65536) (s : ℕ) :
    ws.foldl addCarry (residue s) = residue (s + ws.sum) := by
  induction ws generalizing s with
  | nil => rfl
  | cons w ws ih =>
    have hws : ∀ v ∈ ws, v < 65536 := fun v hv => hw v (List.mem_cons_of_mem w hv)
    have hs := residue_le s
    have hc : addCarry (residue s) w = residue (s + w) := by
      rw [addCarry_residue (by omega) (hw w List.mem_cons_self), residue_add]
    rw [List.foldl_cons, hc, ih hws, List.sum_cons, Nat.add_assoc]

lemma onesSum_residue {ws : List ℕ} (hw : ∀ w ∈ ws, w < 65536) : onesSum ws = residue ws.sum := by
  simpa [onesSum] using foldl_addCarry hw 0

lemma onesSum_words (b : List UInt8) : onesSum (words b) = residue (words b).sum :=
  onesSum_residue (words_lt b)

lemma residue_fold (s : ℕ) : residue (s % 65536 + s / 65536) = residue s := by
  rcases Nat.eq_zero_or_pos s with rfl | hs
  · rfl
  · exact residue_congr (by omega) hs (by omega)

lemma fold_lt {s : ℕ} (h : s / 65536 ≠ 0) : s % 65536 + s / 65536 < s := by
  omega

lemma residue_complement (s : ℕ) : residue (s + (65535 - residue s)) = 65535 := by
  have hl := residue_le s
  have hm := residue_mod s
  rcases Nat.eq_zero_or_pos s with rfl | hs
  · rfl
  · rw [residue_congr (b := 65535) (by omega) (by omega) (by omega)]
    rfl

section Checksum

variable {a : List UInt8} (b : List UInt8) (hi lo : UInt8)

lemma words_sum_filled (ha : a.length % 2 = 0) :
    (words (a ++ hi :: lo :: b)).sum = (words (a ++ 0 :: 0 :: b)).sum + word hi lo := by
  have hz : word 0 0 = 0 := rfl
  simp only [words_append _ ha, words, List.sum_append, List.sum_cons, hz]
  omega

lemma onesSum_filled (ha : a.length % 2 = 0)
    (hc : word hi lo = 65535 - residue (words (a ++ 0 :: 0 :: b)).sum) :
    onesSum (words (a ++ hi :: lo :: b)) = 65535 := by
  rw [onesSum_words, words_sum_filled b hi lo ha, hc, residue_complement]

end Checksum

end XbTunnel.Lib.OnesComplement
