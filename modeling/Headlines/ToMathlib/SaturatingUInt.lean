import Mathlib

/-! # Saturating arithmetic on 64-bit words

Lean's word operations wrap. These are the clamped variants, each characterised by its value as
a natural number, so that order facts about words are ordinary linear arithmetic.
-/

namespace UInt64

/-- Subtraction clamped at zero. -/
def saturatingSub (a b : UInt64) : UInt64 := if a < b then 0 else a - b

/-- Addition clamped at the largest word. -/
def saturatingAdd (a b : UInt64) : UInt64 :=
  if a.toNat + b.toNat < 2 ^ 64 then a + b else UInt64.ofNat (2 ^ 64 - 1)

/-- Multiplication clamped at the largest word. -/
def saturatingMul (a b : UInt64) : UInt64 :=
  if a.toNat * b.toNat < 2 ^ 64 then a * b else UInt64.ofNat (2 ^ 64 - 1)

theorem toNat_saturatingSub (a b : UInt64) :
    (a.saturatingSub b).toNat = a.toNat - b.toNat := by
  unfold saturatingSub
  split
  · next below =>
    have := UInt64.lt_iff_toNat_lt.mp below
    simp only [UInt64.toNat_zero]
    omega
  · next above =>
    have ordered : b ≤ a := UInt64.not_lt.mp above
    rw [UInt64.toNat_sub_of_le _ _ ordered]

theorem toNat_saturatingAdd (a b : UInt64) :
    (a.saturatingAdd b).toNat = min (a.toNat + b.toNat) (2 ^ 64 - 1) := by
  unfold saturatingAdd
  split
  · next fits =>
    rw [UInt64.toNat_add, Nat.mod_eq_of_lt fits]
    omega
  · rw [UInt64.toNat_ofNat_of_lt' (by decide)]
    omega

theorem toNat_saturatingMul (a b : UInt64) :
    (a.saturatingMul b).toNat = min (a.toNat * b.toNat) (2 ^ 64 - 1) := by
  unfold saturatingMul
  split
  · next fits =>
    rw [UInt64.toNat_mul, Nat.mod_eq_of_lt fits]
    omega
  · rw [UInt64.toNat_ofNat_of_lt' (by decide)]
    omega

end UInt64
