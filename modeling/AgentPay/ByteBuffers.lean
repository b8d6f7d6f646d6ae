import Mathlib.Data.List.Basic

/-!
# Fixed buffers and the readers that take them apart

A fixed-width format is written by filling a fresh buffer from the front and read
by taking fields off the front. `splice_fresh` is the one step of the writer,
`take?_append` the one step of the reader. Where the reader has a table of offsets,
`field_behind` and `field_here` find a field among what was written. Nothing here
knows what the entries are.
-/
namespace AgentPay.ByteBuffers

variable {α : Type}

/-- The buffer with the source written over it from the offset on. -/
def splice (buf : List α) (o : ℕ) (src : List α) : List α :=
  buf.take o ++ src ++ buf.drop (o + src.length)

/-- Writing right behind what is already there uses up that much of the fresh part. -/
theorem splice_fresh {written src : List α} {o n : ℕ} {z : α} (ho : o = written.length) :
    splice (written ++ List.replicate n z) o src =
      written ++ src ++ List.replicate (n - src.length) z := by
  subst ho
  unfold splice
  rw [List.take_left, ← List.drop_drop, List.drop_left, List.drop_replicate]

/-- The first `n` entries and the rest, when there are that many. -/
def take? (n : ℕ) (data : List α) : Option (List α × List α) :=
  if n ≤ data.length then some (data.take n, data.drop n) else none

theorem take?_append {x rest : List α} {n : ℕ} (h : x.length = n) :
    take? n (x ++ rest) = some (x, rest) := by
  subst h
  unfold take?
  rw [if_pos (by simp), List.take_left, List.drop_left]

/-- The `n` entries from the offset on. -/
def field (o n : ℕ) (data : List α) : List α := (data.drop o).take n

section Fields
variable {x rest data : List α} {m o n : ℕ}

theorem length_field (h : o + n ≤ data.length) : (field o n data).length = n := by
  rw [field, List.length_take, List.length_drop]
  omega

theorem field_here (h : x.length = n) : field 0 n (x ++ rest) = x := by
  rw [field, List.drop_zero]
  exact List.take_left' h

theorem field_behind (h : x.length = m) (hm : m ≤ o) :
    field o n (x ++ rest) = field (o - m) n rest := by
  rw [field, field, List.drop_append, List.drop_eq_nil_of_le (by omega), List.nil_append, h]

theorem drop_eq_field {k : ℕ} (h : o + n = k) : data.drop o = field o n data ++ data.drop k := by
  subst h
  rw [field, ← List.drop_drop, List.take_append_drop]

end Fields

end AgentPay.ByteBuffers
