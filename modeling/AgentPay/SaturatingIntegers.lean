import Mathlib.Data.UInt

/-!
# Saturating arithmetic on machine integers

The operations stop at the largest value of the type. Each is given by its result as a
natural number, and agrees with the exact one as long as that fits.
-/

namespace UInt64

/-- Addition which stops at `u64::MAX`. -/
def saturatingAdd (a b : UInt64) : UInt64 := UInt64.ofNat (min (a.toNat + b.toNat) (2 ^ 64 - 1))

/-- Multiplication which stops at `u64::MAX`. -/
def saturatingMul (a b : UInt64) : UInt64 := UInt64.ofNat (min (a.toNat * b.toNat) (2 ^ 64 - 1))

@[simp] theorem toNat_saturatingAdd (a b : UInt64) :
    (a.saturatingAdd b).toNat = min (a.toNat + b.toNat) (2 ^ 64 - 1) :=
  UInt64.toNat_ofNat_of_lt' ((min_le_right _ _).trans_lt (by decide))

@[simp] theorem toNat_saturatingMul (a b : UInt64) :
    (a.saturatingMul b).toNat = min (a.toNat * b.toNat) (2 ^ 64 - 1) :=
  UInt64.toNat_ofNat_of_lt' ((min_le_right _ _).trans_lt (by decide))

end UInt64

namespace UInt32

/-- Addition which stops at `u32::MAX`. -/
def saturatingAdd (a b : UInt32) : UInt32 := UInt32.ofNat (min (a.toNat + b.toNat) (2 ^ 32 - 1))

@[simp] theorem toNat_saturatingAdd (a b : UInt32) :
    (a.saturatingAdd b).toNat = min (a.toNat + b.toNat) (2 ^ 32 - 1) :=
  UInt32.toNat_ofNat_of_lt' ((min_le_right _ _).trans_lt (by decide))

end UInt32
