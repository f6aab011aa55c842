import Mathlib.Data.List.Basic

/-! Slices that refer to a backing array, so that writing the array changes what they show. -/

namespace XbTunnel.Lib.Slices

variable {α : Type*}

structure Slice where
  off : ℕ
  len : ℕ
deriving DecidableEq

namespace Slice

def view (s : Slice) (mem : List α) : List α := (mem.drop s.off).take s.len

def nil : Slice := ⟨0, 0⟩

end Slice

def overwrite (mem d : List α) : List α := d ++ mem.drop d.length

lemma overwrite_length {mem d : List α} (h : d.length ≤ mem.length) :
    (overwrite mem d).length = mem.length := by
  simp only [overwrite, List.length_append, List.length_drop]
  omega

@[simp] lemma overwrite_take (mem d : List α) : (overwrite mem d).take d.length = d := by
  rw [overwrite, List.take_left]

end XbTunnel.Lib.Slices
