import Mathlib.Data.Finmap

/-! Go maps as finite maps, and the orders in which a loop may visit their entries. -/

namespace XbTunnel.Lib.Maps

variable {K V : Type*}

abbrev Map (K V : Type*) := Finmap fun _ : K => V

/-- One of the unspecified iteration orders of `range m`. -/
def Iterates (m : Map K V) (order : List (Σ _ : K, V)) : Prop :=
  (order : Multiset (Σ _ : K, V)) = m.entries

instance [DecidableEq K] [DecidableEq V] (m : Map K V) (order : List (Σ _ : K, V)) :
    Decidable (Iterates m order) := inferInstanceAs (Decidable (_ = _))

variable {m : Map K V} {order order' : List (Σ _ : K, V)}

lemma Iterates.nodup (h : Iterates m order) : order.Nodup := by
  have hn := m.nodup_entries
  rwa [← h, Multiset.coe_nodup] at hn

def Visits (m : Map K V) (keys : List K) : Prop := (keys : Multiset K) = m.keys.val

instance [DecidableEq K] (m : Map K V) (keys : List K) : Decidable (Visits m keys) :=
  inferInstanceAs (Decidable (_ = _))

lemma Visits.mem_iff {keys : List K} (h : Visits m keys) {k : K} : k ∈ keys ↔ k ∈ m := by
  rw [← Finmap.mem_keys, ← Finset.mem_val, ← h, Multiset.mem_coe]

lemma Visits.exists (m : Map K V) : ∃ keys, Visits m keys :=
  ⟨m.keys.val.toList, m.keys.val.coe_toList⟩

variable [DecidableEq K]

lemma Iterates.mem_iff (h : Iterates m order) {k : K} {v : V} :
    ⟨k, v⟩ ∈ order ↔ m.lookup k = some v := by
  rw [Finmap.lookup_eq_some_iff, ← h, Multiset.mem_coe]

lemma lookup_insert_eq_some {k k' : K} {v v' : V} (h : (m.insert k v).lookup k' = some v') :
    k' = k ∧ v' = v ∨ m.lookup k' = some v' := by
  by_cases hk : k' = k
  · subst hk
    exact .inl ⟨rfl, (Option.some.inj ((Finmap.lookup_insert _).symm.trans h)).symm⟩
  · exact .inr ((Finmap.lookup_insert_of_ne _ hk).symm.trans h)

lemma erase_of_notMem {k : K} (h : k ∉ m) : m.erase k = m := by
  apply Finmap.ext_lookup
  intro k'
  by_cases hk : k' = k
  · rw [hk, Finmap.lookup_erase, Finmap.lookup_eq_none.mpr h]
  · exact Finmap.lookup_erase_ne hk

lemma insert_erase_eq_insert_iff {k k' : K} {v : V} :
    (m.erase k').insert k v = m.insert k v ↔ k' = k ∨ k' ∉ m := by
  constructor
  · intro h
    by_contra! hn
    have hl := congrArg (fun m => m.lookup k') h
    simp only [Finmap.lookup_insert_of_ne _ hn.1, Finmap.lookup_erase] at hl
    exact Finmap.lookup_eq_none.mp hl.symm hn.2
  · intro h
    apply Finmap.ext_lookup
    intro k''
    by_cases hk : k'' = k
    · rw [hk, Finmap.lookup_insert, Finmap.lookup_insert]
    · rw [Finmap.lookup_insert_of_ne _ hk, Finmap.lookup_insert_of_ne _ hk]
      rcases h with rfl | h
      · exact Finmap.lookup_erase_ne hk
      · rw [erase_of_notMem h]

lemma erase_eq_erase_iff {k k' : K} (h : k ∈ m) : m.erase k' = m.erase k ↔ k' = k := by
  constructor
  · intro he
    by_contra hn
    have hl := congrArg (fun m => m.lookup k) he
    simp only [Finmap.lookup_erase, Finmap.lookup_erase_ne (Ne.symm hn)] at hl
    exact Finmap.lookup_eq_none.mp hl h
  · rintro rfl
    rfl

lemma keys_insert_val {k : K} (h : k ∉ m) (v : V) :
    (m.insert k v).keys.val = k ::ₘ m.keys.val := by
  have hkeys : (m.insert k v).keys = insert k m.keys := by
    ext k'
    rw [Finmap.mem_keys, Finmap.mem_insert, Finset.mem_insert, Finmap.mem_keys]
  rw [hkeys, Finset.insert_val_of_notMem (Finmap.mem_keys.not.mpr h)]

def insertAll (l : List (K × V)) (m : Map K V) : Map K V :=
  l.foldl (fun m e => m.insert e.1 e.2) m

lemma lookup_insertAll (l : List (K × V)) (m : Map K V) (k : K) :
    (insertAll l m).lookup k =
      (((l.filter fun e => e.1 = k).getLast?).map Prod.snd).or (m.lookup k) := by
  induction l generalizing m with
  | nil => rfl
  | cons e l ih =>
    have hstep := ih (m.insert e.1 e.2)
    rw [insertAll, List.foldl_cons, ← insertAll, hstep]
    by_cases he : e.1 = k
    · rw [List.filter_cons_of_pos (by simpa using he), List.getLast?_cons, ← he,
        Finmap.lookup_insert]
      cases (l.filter fun e' => e'.1 = e.1).getLast? <;> rfl
    · rw [List.filter_cons_of_neg (by simpa using he), Finmap.lookup_insert_of_ne _ (Ne.symm he)]

def Functional (l : List (K × V)) : Prop := ∀ e ∈ l, ∀ e' ∈ l, e.1 = e'.1 → e.2 = e'.2

lemma Functional.lookup_insertAll {l : List (K × V)} (h : Functional l) {k : K} {v : V} :
    (insertAll l (∅ : Map K V)).lookup k = some v ↔ (k, v) ∈ l := by
  have hk {e : K × V} (he : e ∈ l.filter fun e => e.1 = k) : e ∈ l ∧ e.1 = k := by
    simpa using he
  rw [Maps.lookup_insertAll, Finmap.lookup_empty, Option.or_none, Option.map_eq_some_iff]
  constructor
  · rintro ⟨e, he, rfl⟩
    obtain ⟨hm, rfl⟩ := hk (List.mem_of_getLast? he)
    exact hm
  · intro hm
    have hne : (l.filter fun e => e.1 = k) ≠ [] :=
      List.ne_nil_of_mem (List.mem_filter.mpr ⟨hm, decide_eq_true rfl⟩)
    obtain ⟨e, he⟩ := Option.isSome_iff_exists.mp (List.getLast?_isSome.mpr hne)
    obtain ⟨hm', hk'⟩ := hk (List.mem_of_getLast? he)
    exact ⟨e, he, h e hm' (k, v) hm hk'⟩

lemma Functional.insertAll_congr {l l' : List (K × V)} (h : Functional l)
    (hm : ∀ e, e ∈ l' ↔ e ∈ l) : insertAll l' (∅ : Map K V) = insertAll l ∅ := by
  have h' : Functional l' :=
    fun e he e' he' => h e ((hm e).mp he) e' ((hm e').mp he')
  apply Finmap.ext_lookup
  intro k
  ext v
  rw [h.lookup_insertAll, h'.lookup_insertAll, hm]

lemma Iterates.empty (h : Iterates (∅ : Map K V) order) : order = [] := by
  rw [List.eq_nil_iff_forall_not_mem]
  rintro ⟨k, v⟩ hm
  have hl := h.mem_iff.mp hm
  simp at hl

lemma Iterates.count_snd [DecidableEq V] (h : Iterates m order) (key : V → K)
    (hk : ∀ k v, m.lookup k = some v → key v = k) (v : V) :
    (order.map Sigma.snd).count v = if m.lookup (key v) = some v then 1 else 0 := by
  have hinj : ∀ x ∈ order, ∀ y ∈ order, x.2 = y.2 → x = y := by
    rintro ⟨k, v⟩ hx ⟨k', v'⟩ hy hv
    obtain rfl : v = v' := hv
    rw [← hk k v (h.mem_iff.mp hx), ← hk k' v (h.mem_iff.mp hy)]
  have hn : (order.map Sigma.snd).Nodup := h.nodup.map_on hinj
  rw [hn.count]
  congr 1
  rw [List.mem_map, eq_iff_iff]
  constructor
  · rintro ⟨⟨k, w⟩, hm, rfl⟩
    have hl := h.mem_iff.mp hm
    rwa [hk k w hl]
  · intro hl
    exact ⟨⟨key v, v⟩, h.mem_iff.mpr hl, rfl⟩

end XbTunnel.Lib.Maps
