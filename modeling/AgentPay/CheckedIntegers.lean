import Mathlib.Data.UInt

/-!
# Checked arithmetic on 64-bit machine integers

The checked operations return `none` exactly when the mathematical result
leaves the range of the type, and otherwise the machine result. Each operation
has one characterization of success and one of failure, both stated over the
natural or integer values, so that a caller never unfolds the operation.
-/

namespace UInt64

/-- Addition which fails when the sum does not fit in 64 bits. -/
def checkedAdd (a b : UInt64) : Option UInt64 :=
  if a.toNat + b.toNat < 2 ^ 64 then some (a + b) else none

/-- Subtraction which fails when the difference would be negative. -/
def checkedSub (a b : UInt64) : Option UInt64 :=
  if b.toNat ≤ a.toNat then some (a - b) else none

theorem exists_toNat_eq {n : Nat} (h : n < 2 ^ 64) : ∃ x : UInt64, x.toNat = n :=
  ⟨UInt64.ofNat n, UInt64.toNat_ofNat_of_lt' h⟩

theorem checkedAdd_eq_some {a b c : UInt64} :
    a.checkedAdd b = some c ↔ c.toNat = a.toNat + b.toNat := by
  unfold checkedAdd
  have hc := c.toNat_lt
  split_ifs with h
  · have hs : (a + b).toNat = a.toNat + b.toNat := by
      rw [UInt64.toNat_add, Nat.mod_eq_of_lt h]
    rw [Option.some.injEq, ← UInt64.toNat_inj, hs]
    exact eq_comm
  · simp only [false_iff]
    omega

theorem checkedAdd_eq_none {a b : UInt64} :
    a.checkedAdd b = none ↔ 2 ^ 64 ≤ a.toNat + b.toNat := by
  unfold checkedAdd
  split_ifs with h
  · simp only [false_iff]
    omega
  · simp only [true_iff]
    omega

theorem checkedSub_eq_some {a b c : UInt64} :
    a.checkedSub b = some c ↔ c.toNat + b.toNat = a.toNat := by
  unfold checkedSub
  split_ifs with h
  · have hs : (a - b).toNat = a.toNat - b.toNat :=
      UInt64.toNat_sub_of_le a b (UInt64.le_iff_toNat_le.mpr h)
    rw [Option.some.injEq, ← UInt64.toNat_inj, hs]
    omega
  · simp only [false_iff]
    omega

theorem checkedSub_eq_none {a b : UInt64} :
    a.checkedSub b = none ↔ a.toNat < b.toNat := by
  unfold checkedSub
  split_ifs with h
  · simp only [false_iff]
    omega
  · simp only [true_iff]
    omega

/-- Reinterpreting a small value as signed keeps it. -/
theorem toInt_toInt64 {v : UInt64} (h : v.toNat < 2 ^ 63) : v.toInt64.toInt = v.toNat := by
  have hb : v.toInt64.toInt = v.toBitVec.toInt := rfl
  rw [← UInt64.toNat_toBitVec] at h ⊢
  rw [hb, BitVec.toInt_eq_toNat_of_lt (by omega)]

end UInt64

namespace Int64

/-- Signed addition which fails outside `[-2^63, 2^63)`. -/
def checkedAdd (a b : Int64) : Option Int64 :=
  if -2 ^ 63 ≤ a.toInt + b.toInt ∧ a.toInt + b.toInt < 2 ^ 63 then
    some (Int64.ofInt (a.toInt + b.toInt)) else none

/-- Signed subtraction which fails outside `[-2^63, 2^63)`. -/
def checkedSub (a b : Int64) : Option Int64 :=
  if -2 ^ 63 ≤ a.toInt - b.toInt ∧ a.toInt - b.toInt < 2 ^ 63 then
    some (Int64.ofInt (a.toInt - b.toInt)) else none

theorem checkedAdd_eq_some {a b c : Int64} :
    a.checkedAdd b = some c ↔ c.toInt = a.toInt + b.toInt := by
  unfold checkedAdd
  have hl := c.le_toInt
  have hu := c.toInt_lt
  split_ifs with h
  · rw [Option.some.injEq, ← Int64.toInt_inj, Int64.toInt_ofInt_of_le h.1 h.2]
    exact eq_comm
  · simp only [false_iff]
    omega

theorem checkedAdd_eq_none {a b : Int64} :
    a.checkedAdd b = none ↔
      a.toInt + b.toInt < -2 ^ 63 ∨ 2 ^ 63 ≤ a.toInt + b.toInt := by
  unfold checkedAdd
  split_ifs with h
  · simp only [false_iff]
    omega
  · simp only [true_iff]
    omega

theorem checkedSub_eq_some {a b c : Int64} :
    a.checkedSub b = some c ↔ c.toInt = a.toInt - b.toInt := by
  unfold checkedSub
  have hl := c.le_toInt
  have hu := c.toInt_lt
  split_ifs with h
  · rw [Option.some.injEq, ← Int64.toInt_inj, Int64.toInt_ofInt_of_le h.1 h.2]
    exact eq_comm
  · simp only [false_iff]
    omega

/-- Reinterpreting a nonnegative value as unsigned keeps it. -/
theorem toNat_toUInt64 {i : Int64} (h : 0 ≤ i.toInt) : (i.toUInt64.toNat : ℤ) = i.toInt := by
  have hb : i.toUInt64.toBitVec.toInt = i.toInt := rfl
  have hc := BitVec.toInt_eq_toNat_cond i.toUInt64.toBitVec
  have hu := i.toUInt64.toBitVec.isLt
  rw [← UInt64.toNat_toBitVec]
  rw [← hb] at h ⊢
  split_ifs at hc
  · exact hc.symm
  · omega

end Int64
