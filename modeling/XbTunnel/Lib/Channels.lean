import Mathlib.Data.List.Basic

/-! Buffered Go channels. A blocked operation is `none`; a send on a closed channel, which panics,
is `none` as well and told apart by `closed`. -/

namespace XbTunnel.Lib.Channels

variable {α : Type*}

structure Chan (α : Type*) where
  cap : ℕ
  buf : List α
  closed : Bool
deriving DecidableEq

namespace Chan

def make (cap : ℕ) : Chan α := ⟨cap, [], false⟩

def send (c : Chan α) (x : α) : Option (Chan α) :=
  if c.closed = false ∧ c.buf.length < c.cap then some { c with buf := c.buf ++ [x] } else none

def recv (c : Chan α) : Option (α × Chan α) :=
  match c.buf with
  | [] => none
  | x :: rest => some (x, { c with buf := rest })

def drop (c : Chan α) : Option (Chan α) :=
  match c.buf with
  -- a closed channel delivers zero values
  | [] => if c.closed then some c else none
  | _ :: rest => some { c with buf := rest }

def close (c : Chan α) : Chan α := { c with closed := true }

def Full (c : Chan α) : Prop := c.closed = false ∧ c.cap ≤ c.buf.length

instance (c : Chan α) : Decidable c.Full := inferInstanceAs (Decidable (_ ∧ _))

lemma send_eq_some {c d : Chan α} {x : α} :
    c.send x = some d ↔
      (c.closed = false ∧ c.buf.length < c.cap) ∧ { c with buf := c.buf ++ [x] } = d := by
  rw [send, Option.ite_none_right_eq_some, Option.some.injEq]

lemma recv_eq_some {c d : Chan α} {x : α} :
    c.recv = some (x, d) ↔ ∃ rest, c.buf = x :: rest ∧ { c with buf := rest } = d := by
  rw [recv]
  split <;> simp_all

lemma send_isSome {c : Chan α} {x : α} :
    (c.send x).isSome ↔ c.closed = false ∧ c.buf.length < c.cap := by
  rw [send]
  split <;> simp_all

lemma send_full {c : Chan α} (h : c.Full) (x : α) : c.send x = none := by
  rw [send, if_neg]
  exact fun hs => Nat.not_lt.mpr h.2 hs.2

inductive Grows (c : Chan α) : Chan α → Prop
  | same : Grows c c
  | sent {d} (x : α) : c.send x = some d → Grows c d

lemma Grows.eq_of_full {c d : Chan α} (h : c.Grows d) (hc : c.Full) : d = c := by
  cases h with
  | same => rfl
  | sent x h => rw [send_full hc] at h; cases h

lemma send_closed {c d : Chan α} {x : α} (h : c.send x = some d) : d.closed = c.closed := by
  obtain ⟨-, rfl⟩ := send_eq_some.mp h
  rfl

lemma recv_closed {c d : Chan α} {x : α} (h : c.recv = some (x, d)) : d.closed = c.closed := by
  obtain ⟨rest, -, rfl⟩ := recv_eq_some.mp h
  rfl

lemma drop_closed {c d : Chan α} (h : c.drop = some d) : d.closed = c.closed := by
  rw [drop] at h
  split at h
  · obtain ⟨-, h⟩ := Option.ite_none_right_eq_some.mp h
    obtain rfl := Option.some.inj h
    rfl
  · obtain rfl := Option.some.inj h
    rfl

lemma drop_cap {c d : Chan α} (h : c.drop = some d) : d.cap = c.cap := by
  rw [drop] at h
  split at h
  · obtain ⟨-, h⟩ := Option.ite_none_right_eq_some.mp h
    obtain rfl := Option.some.inj h
    rfl
  · obtain rfl := Option.some.inj h
    rfl

lemma send_cap {c d : Chan α} {x : α} (h : c.send x = some d) : d.cap = c.cap := by
  obtain ⟨-, rfl⟩ := send_eq_some.mp h
  rfl

lemma recv_cap {c d : Chan α} {x : α} (h : c.recv = some (x, d)) : d.cap = c.cap := by
  obtain ⟨rest, -, rfl⟩ := recv_eq_some.mp h
  rfl

lemma recv_length {c d : Chan α} {x : α} (h : c.recv = some (x, d)) :
    d.buf.length ≤ c.buf.length := by
  obtain ⟨rest, hb, rfl⟩ := recv_eq_some.mp h
  rw [hb]
  exact Nat.le_succ _

lemma recv_history {β : Type*} {f : β → α} {ys : List β} {c d : Chan α} {x : α}
    (h : c.recv = some (x, d)) (hy : c.buf = ys.map f) :
    ∃ y rest, ys = y :: rest ∧ f y = x ∧ d.buf = rest.map f := by
  obtain ⟨rest, hb, rfl⟩ := recv_eq_some.mp h
  obtain ⟨y, ys', hys, hx, hrest⟩ := List.map_eq_cons_iff.mp (hy.symm.trans hb)
  exact ⟨y, ys', hys, hx, hrest.symm⟩

lemma send_buf {c d : Chan α} {x : α} (h : c.send x = some d) : d.buf = c.buf ++ [x] := by
  obtain ⟨-, rfl⟩ := send_eq_some.mp h
  rfl

lemma send_open {c d : Chan α} {x : α} (h : c.send x = some d) : d.closed = false := by
  obtain ⟨⟨ho, -⟩, rfl⟩ := send_eq_some.mp h
  exact ho

lemma send_length {c d : Chan α} {x : α} (h : c.send x = some d) : d.buf.length ≤ d.cap := by
  obtain ⟨⟨-, hl⟩, rfl⟩ := send_eq_some.mp h
  rw [List.length_append]
  exact hl

lemma send_buf_ne_nil {c d : Chan α} {x : α} (h : c.send x = some d) : d.buf ≠ [] := by
  rw [send_buf h]
  exact List.append_ne_nil_of_right_ne_nil _ (List.cons_ne_nil _ _)

lemma drop_buf {c d : Chan α} (h : c.drop = some d) : d.buf = c.buf.tail := by
  rw [drop] at h
  split at h
  · rename_i hb
    obtain ⟨-, h⟩ := Option.ite_none_right_eq_some.mp h
    obtain rfl := Option.some.inj h
    rw [hb, List.tail_nil]
  · rename_i hb
    obtain rfl := Option.some.inj h
    rw [hb, List.tail_cons]

lemma drop_length {c d : Chan α} (h : c.drop = some d) : d.buf.length ≤ c.buf.length := by
  rw [drop_buf h, List.length_tail]
  exact Nat.sub_le _ _

lemma drop_isSome {c : Chan α} (h : c.buf ≠ []) : ∃ d, c.drop = some d := by
  rw [drop]
  split
  · rename_i hb
    exact absurd hb h
  · exact ⟨_, rfl⟩

lemma ne_nil_of_drop {c d : Chan α} (ho : c.closed = false) (h : c.drop = some d) :
    c.buf ≠ [] := by
  intro hb
  simp only [drop, hb, ho] at h
  cases h

structure Mailbox (c : Chan α) : Prop where
  cap : c.cap = 1
  open_ : c.closed = false

namespace Mailbox

variable {c d : Chan α}

lemma of_send {x : α} (h : c.Mailbox) (hs : c.send x = some d) : d.Mailbox :=
  ⟨(send_cap hs).trans h.cap, (send_closed hs).trans h.open_⟩

lemma of_drop (h : c.Mailbox) (hd : c.drop = some d) : d.Mailbox :=
  ⟨(drop_cap hd).trans h.cap, (drop_closed hd).trans h.open_⟩

lemma send_of_empty (h : c.Mailbox) (hb : c.buf = []) (x : α) : ∃ d, c.send x = some d := by
  refine Option.isSome_iff_exists.mp (send_isSome.mpr ⟨h.open_, ?_⟩)
  rw [hb, h.cap]
  exact Nat.zero_lt_one

end Mailbox

end Chan

end XbTunnel.Lib.Channels
