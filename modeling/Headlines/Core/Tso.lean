import Mathlib

/-! # The hybrid timestamp word

A `Tso` packs milliseconds since the epoch above an 18-bit logical counter in one 64-bit word.
`fromParts` masks silently: physical bits beyond the 46th are shifted out. Every law about the
parts is therefore stated on the natural numbers the words denote.
-/

namespace Headlines.Core

/-- Number of bits reserved for the logical counter. -/
def logicalBits : UInt64 := 18

/-- Bit-mask isolating the logical counter. -/
def logicalMask : UInt64 := (1 <<< logicalBits) - 1

/-- Hybrid-logical timestamp, an opaque word on the wire. -/
structure Tso where
  raw : UInt64
deriving DecidableEq, Repr

namespace Tso

def zero : Tso := ⟨0⟩

/-- Compose from `(physicalMs, logical)`; excess bits of either are dropped. -/
def fromParts (physicalMs : UInt64) (logical : UInt32) : Tso :=
  let p := physicalMs <<< logicalBits
  let l := logical.toUInt64 &&& logicalMask
  ⟨p ||| l⟩

def parts (ts : Tso) : UInt64 × UInt32 :=
  (ts.raw >>> logicalBits, (ts.raw &&& logicalMask).toUInt32)

def physicalMs (ts : Tso) : UInt64 := ts.parts.1

def logical (ts : Tso) : UInt32 := ts.parts.2

/-- The derived order of the source is the order of the words. -/
instance : LT Tso := ⟨fun a b => a.raw < b.raw⟩

instance (a b : Tso) : Decidable (a < b) := inferInstanceAs (Decidable (a.raw < b.raw))

theorem lt_iff {a b : Tso} : a < b ↔ a.raw.toNat < b.raw.toNat := UInt64.lt_iff_toNat_lt

theorem physicalMs_toNat (ts : Tso) : ts.physicalMs.toNat = ts.raw.toNat / 2 ^ 18 := by
  simp [physicalMs, parts, logicalBits, Nat.shiftRight_eq_div_pow]

private theorem logicalMask_toNat : logicalMask.toNat = 2 ^ 18 - 1 := by decide

theorem logical_toNat (ts : Tso) : ts.logical.toNat = ts.raw.toNat % 2 ^ 18 := by
  simp only [logical, parts, UInt64.toNat_toUInt32, UInt64.toNat_and, logicalMask_toNat,
    Nat.and_two_pow_sub_one_eq_mod]
  omega

/-- Physical milliseconds occupy 46 bits. -/
theorem physicalMs_lt (ts : Tso) : ts.physicalMs.toNat < 2 ^ 46 := by
  have := ts.raw.toNat_lt
  rw [physicalMs_toNat]
  omega

theorem logical_lt (ts : Tso) : ts.logical.toNat < 2 ^ 18 := by
  rw [logical_toNat]
  omega

theorem raw_eq_parts (ts : Tso) :
    ts.raw.toNat = ts.physicalMs.toNat * 2 ^ 18 + ts.logical.toNat := by
  rw [physicalMs_toNat, logical_toNat]
  omega

theorem fromParts_toNat (physicalMs : UInt64) (logical : UInt32) :
    (fromParts physicalMs logical).raw.toNat =
      physicalMs.toNat * 2 ^ 18 % 2 ^ 64 + logical.toNat % 2 ^ 18 := by
  have width : logicalBits.toNat % 64 = 18 := by decide
  have aligned : physicalMs.toNat * 2 ^ 18 % 2 ^ 64 = 2 ^ 18 * (physicalMs.toNat % 2 ^ 46) := by
    omega
  simp only [fromParts, UInt64.toNat_or, UInt64.toNat_and, logicalMask_toNat,
    Nat.and_two_pow_sub_one_eq_mod, UInt64.toNat_shiftLeft, UInt32.toNat_toUInt64]
  rw [width, Nat.shiftLeft_eq, aligned, Nat.two_pow_add_eq_or_of_lt (Nat.mod_lt _ (by decide))]

theorem physicalMs_fromParts (physicalMs : UInt64) (logical : UInt32) :
    (fromParts physicalMs logical).physicalMs.toNat = physicalMs.toNat % 2 ^ 46 := by
  rw [physicalMs_toNat, fromParts_toNat]
  omega

theorem logical_fromParts (physicalMs : UInt64) (logical : UInt32) :
    (fromParts physicalMs logical).logical.toNat = logical.toNat % 2 ^ 18 := by
  rw [logical_toNat, fromParts_toNat]
  omega

/-- Timestamps order by physical time first and by the counter within one millisecond. -/
theorem lt_iff_parts {a b : Tso} : a < b ↔ a.physicalMs.toNat < b.physicalMs.toNat ∨
    a.physicalMs.toNat = b.physicalMs.toNat ∧ a.logical.toNat < b.logical.toNat := by
  have left := a.logical_lt
  have right := b.logical_lt
  rw [lt_iff, a.raw_eq_parts, b.raw_eq_parts]
  omega

theorem physicalMs_mono {a b : Tso} (ordered : a.raw.toNat ≤ b.raw.toNat) :
    a.physicalMs.toNat ≤ b.physicalMs.toNat := by
  rw [physicalMs_toNat, physicalMs_toNat]
  omega

theorem lt_trans {a b c : Tso} (left : a < b) (right : b < c) : a < c := by
  rw [lt_iff] at *
  omega

end Tso

end Headlines.Core
