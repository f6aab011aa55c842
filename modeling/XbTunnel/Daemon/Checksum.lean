import XbTunnel.Daemon.Udp

/-! `oneAdd` computes the complement of the ones' complement sum. -/

namespace XbTunnel.Daemon.Udp

open Common Lib.OnesComplement

lemma toNat_highByte (b : UInt8) : (b.toUInt64 <<< 8).toNat = b.toNat * 256 := by
  have hb := b.toNat_lt
  have h8 : (8 : UInt64).toNat % 64 = 8 := rfl
  rw [UInt64.toNat_shiftLeft, UInt8.toNat_toUInt64, Nat.shiftLeft_eq, h8]
  omega

lemma toNat_word (hi lo : UInt8) : (hi.toUInt64 <<< 8 + lo.toUInt64).toNat = word hi lo := by
  have hh := hi.toNat_lt
  have hl := lo.toNat_lt
  rw [UInt64.toNat_add, toNat_highByte, UInt8.toNat_toUInt64, word]
  omega

lemma toNat_addSlice (b : Bytes) (sum : UInt64) (h : sum.toNat + (words b).sum < 2 ^ 64) :
    (addSlice sum b).toNat = sum.toNat + (words b).sum := by
  induction b using words.induct generalizing sum with
  | case1 => rfl
  | case2 hi =>
    have hw : word hi 0 = hi.toNat * 256 := by simp [word]
    simp only [words, List.sum_singleton, hw] at h ⊢
    rw [addSlice, UInt64.toNat_add, toNat_highByte, Nat.mod_eq_of_lt h]
  | case3 hi lo rest ih =>
    simp only [words, List.sum_cons] at h
    have hs : (sum + (hi.toUInt64 <<< 8 + lo.toUInt64)).toNat = sum.toNat + word hi lo := by
      rw [UInt64.toNat_add, toNat_word]
      omega
    rw [addSlice, ih _ (by omega), hs, words, List.sum_cons, Nat.add_assoc]

lemma toNat_addSlices (bs : List Bytes) (sum : UInt64)
    (h : sum.toNat + (bs.map fun b => (words b).sum).sum < 2 ^ 64) :
    (bs.foldl addSlice sum).toNat = sum.toNat + (bs.map fun b => (words b).sum).sum := by
  induction bs generalizing sum with
  | nil => rfl
  | cons b bs ih =>
    simp only [List.map_cons, List.sum_cons] at h ⊢
    have hb := toNat_addSlice b sum (by omega)
    rw [List.foldl_cons, ih _ (by omega), hb, Nat.add_assoc]

lemma toNat_foldCarry (sum : UInt64) : (foldCarry sum).toNat = residue sum.toNat := by
  induction sum using foldCarry.induct with
  | case1 sum h =>
    have hz : sum.toNat / 65536 = 0 := by rw [← toNat_shiftRight, h]; rfl
    rw [foldCarry, if_pos h, residue_of_le (by omega)]
  | case2 sum h ih => rw [foldCarry, if_neg h, ih, toNat_fold, residue_fold]

lemma toNat_complement {s : UInt64} (h : s.toNat ≤ 65535) :
    (~~~ s).toUInt16.toNat = 65535 - s.toNat := by
  rw [UInt64.toNat_toUInt16, UInt64.toNat_not]
  have : UInt64.size = 2 ^ 64 := rfl
  omega

lemma oneAdd_toNat (bs : List Bytes) (h : (bs.map fun b => (words b).sum).sum < 2 ^ 64) :
    (oneAdd bs).toNat = 65535 - residue (bs.map fun b => (words b).sum).sum := by
  have hs := toNat_addSlices bs 0 (by simpa using h)
  have hf := toNat_foldCarry (bs.foldl addSlice 0)
  have hz : (0 : UInt64).toNat = 0 := rfl
  rw [hs, hz, Nat.zero_add] at hf
  rw [oneAdd, toNat_complement (by rw [hf]; exact residue_le _), hf]

lemma oneAdd_single (b : Bytes) (h : b.length < 2 ^ 48) :
    (oneAdd [b]).toNat = 65535 - residue (words b).sum := by
  have hb := words_sum_le b
  simpa using oneAdd_toNat [b] (by simp; omega)

lemma word_putUint16 (v : UInt16) : word (v >>> 8).toUInt8 v.toUInt8 = v.toNat := by
  have hv := v.toNat_lt
  have h8 : (8 : UInt16).toNat % 16 = 8 := rfl
  rw [word, UInt16.toNat_toUInt8, UInt16.toNat_toUInt8, UInt16.toNat_shiftRight, h8,
    Nat.shiftRight_eq_div_pow]
  omega

def total (bs : List Bytes) : ℕ := (bs.map fun b => (words b).sum).sum

@[simp] lemma total_append (bs bs' : List Bytes) : total (bs ++ bs') = total bs + total bs' := by
  simp [total]

@[simp] lemma total_cons (b : Bytes) (bs : List Bytes) :
    total (b :: bs) = (words b).sum + total bs := by
  simp [total]

lemma total_le (bs : List Bytes) : total bs ≤ 65535 * (bs.map List.length).sum := by
  induction bs with
  | nil => exact Nat.zero_le _
  | cons b bs ih =>
    have hb := words_sum_le b
    rw [total_cons, List.map_cons, List.sum_cons]
    omega

lemma words_sum_take_le (c d : Bytes) : (words c).sum ≤ (words (c ++ d)).sum := by
  induction c using words.induct with
  | case1 => exact Nat.zero_le _
  | case2 hi =>
    cases d with
    | nil => exact le_rfl
    | cons lo rest =>
      simp only [words, List.cons_append, List.nil_append, List.sum_cons, List.sum_nil, word]
      have hz : (0 : UInt8).toNat = 0 := rfl
      omega
  | case3 hi lo rest ih =>
    simp only [List.cons_append, words, List.sum_cons]
    omega

def accumulator (bs : List Bytes) (c : Bytes) : UInt64 := addSlice (bs.foldl addSlice 0) c

structure NeverOverflows (bs : List Bytes) : Prop where
  added : ∀ before c d after, bs = before ++ (c ++ d) :: after →
    (accumulator before c).toNat = total before + (words c).sum
  folded : ∀ sum : UInt64, ((sum &&& (0xffff : UInt64)) + (sum >>> 16)).toNat =
    (sum &&& (0xffff : UInt64)).toNat + (sum >>> 16).toNat

def rfc1071 (s : ℕ) : ℕ := if s = 0 then 0xFFFF else 0xFFFF - ((s - 1) % 65535 + 1)

lemma rfc1071_residue (s : ℕ) : rfc1071 s = 65535 - residue s := by
  rw [rfc1071, residue]
  split <;> rfl

lemma oneAdd_total {bs : List Bytes} (h : total bs < 2 ^ 64) :
    (oneAdd bs).toNat = rfc1071 (total bs) := by
  rw [rfc1071_residue]
  exact oneAdd_toNat bs h

lemma neverOverflows_of_total {bs : List Bytes} (h : total bs < 2 ^ 64) : NeverOverflows bs := by
  refine ⟨?_, fun sum => by rw [toNat_fold, toNat_low, toNat_shiftRight]⟩
  rintro before c d after rfl
  have hc := words_sum_take_le c d
  rw [total_append, total_cons] at h
  have hz : (0 : UInt64).toNat = 0 := rfl
  have hb : (before.foldl addSlice 0).toNat = total before := by
    have hs := toNat_addSlices before 0 (by rw [hz]; exact (by omega : 0 + total before < 2 ^ 64))
    rw [hs, hz, Nat.zero_add, total]
  rw [accumulator, toNat_addSlice c _ (by omega), hb]

lemma oneAdd_congr {bs bs' : List Bytes} (h : total bs < 2 ^ 64) (he : total bs' = total bs) :
    oneAdd bs' = oneAdd bs := by
  rw [← UInt16.toNat_inj, oneAdd_total h, oneAdd_total (he ▸ h), he]

lemma total_permuted (before after : List Bytes) {b b' : Bytes}
    (hp : (words b').Perm (words b)) :
    total (before ++ b' :: after) = total (before ++ b :: after) := by
  simp only [total_append, total_cons, hp.sum_eq]

lemma total_split (before after : List Bytes) {a : Bytes} (b : Bytes) (ha : a.length % 2 = 0) :
    total (before ++ a :: b :: after) = total (before ++ (a ++ b) :: after) := by
  simp only [total_append, total_cons, words_append b ha, List.sum_append, Nat.add_assoc]

theorem oneAdd_rfc1071 (bs : List Bytes) (h : (bs.map List.length).sum < 2 ^ 48) :
    (oneAdd bs).toNat = rfc1071 (total bs) ∧ NeverOverflows bs ∧
      (∀ before b b' after, bs = before ++ b :: after → (words b').Perm (words b) →
        oneAdd (before ++ b' :: after) = oneAdd bs) ∧
      ∀ before a b after, bs = before ++ (a ++ b) :: after → a.length % 2 = 0 →
        oneAdd (before ++ a :: b :: after) = oneAdd bs := by
  have hle := total_le bs
  have hs : total bs < 2 ^ 64 := by omega
  refine ⟨oneAdd_total hs, neverOverflows_of_total hs, ?_, ?_⟩
  · rintro before b b' after rfl hp
    exact oneAdd_congr hs (total_permuted before after hp)
  · rintro before a b after rfl ha
    exact oneAdd_congr hs (total_split before after b ha)

theorem oneAdd_rfc1071_odd :
    (oneAdd [[0xFF, 0xFF, 0x01], [0x12]]).toNat = rfc1071 (total [[0xFF, 0xFF, 0x01], [0x12]]) ∧
      rfc1071 (total [[0xFF, 0xFF, 0x01], [0x12]]) = 0xECFF :=
  ⟨(oneAdd_rfc1071 [[0xFF, 0xFF, 0x01], [0x12]] (by decide)).1, by decide⟩

end XbTunnel.Daemon.Udp
