import Headlines.Core.Auth
import Headlines.ToMathlib.SaturatingUInt

/-! # The wall-clock time source

The development fallback: no state, no logical counter, and a validity window on both sides of the
clock.
-/

namespace Headlines.Auth

open Core

structure LocalClock where
  horizonMs : UInt64
deriving DecidableEq, Repr

namespace LocalClock

def default : LocalClock := ⟨30000⟩

def now (_ : LocalClock) (nowMs : UInt64) : Tso := Tso.fromParts nowMs 0

/-- A timestamp may be ahead of the clock by as much as it may be behind it. -/
def validate (clock : LocalClock) (nowMs : UInt64) (ts : Tso) : Except TimeError Unit :=
  let tsMs := ts.physicalMs
  if nowMs.saturatingAdd clock.horizonMs < tsMs then .error .nonMonotonic
  else if clock.horizonMs < nowMs.saturatingSub tsMs then .error .outsideHorizon
  else .ok ()

theorem validate_ok_iff {clock : LocalClock} {nowMs : UInt64} {ts : Tso} :
    clock.validate nowMs ts = .ok () ↔
      ts.physicalMs.toNat ≤ nowMs.toNat + clock.horizonMs.toNat ∧
      nowMs.toNat ≤ ts.physicalMs.toNat + clock.horizonMs.toNat := by
  have physical := ts.physicalMs_lt
  simp only [validate, UInt64.lt_iff_toNat_lt, UInt64.toNat_saturatingSub,
    UInt64.toNat_saturatingAdd]
  split
  · simp only [reduceCtorEq, false_iff]; omega
  · split
    · simp only [reduceCtorEq, false_iff]; omega
    · simp only [true_iff]; omega

end LocalClock

end Headlines.Auth
