import Mathlib
import Headlines.Core.Repo
import Headlines.Core.Tso

/-! # Calendar times

A `DateTime<Utc>` counts whole seconds since the Unix epoch and nanoseconds into the second; the last second of
a minute can be a leap second, which is two seconds long. Times compare by seconds first.
-/

namespace Headlines.Core

/-- The first second of the first year there is. -/
def DateTime.minSeconds : ℤ := -8334601228800

/-- The last second of the last year there is. -/
def DateTime.maxSeconds : ℤ := 8210266876799

structure DateTime where
  seconds : ℤ
  nanos : ℤ
  inRange : DateTime.minSeconds ≤ seconds ∧ seconds ≤ DateTime.maxSeconds
  fraction : 0 ≤ nanos ∧ (nanos < 1000000000 ∨ nanos < 2000000000 ∧ seconds % 60 = 59)
deriving DecidableEq, Repr

namespace DateTime

/-- What a `timestamptz` column is given. -/
def instant (time : DateTime) : Timestamp := time.seconds * 1000000000 + time.nanos

/-- How times compare: by their seconds, and within a second. -/
def key (time : DateTime) : ℤ ×ₗ ℤ := toLex (time.seconds, time.nanos)

/-- The key of a time this many seconds later. -/
def shifted (time : DateTime) (seconds : ℤ) : ℤ ×ₗ ℤ := toLex (time.seconds + seconds, time.nanos)

/-- A count of nanoseconds that is negative is one far out of range once it is unsigned. -/
def fromTimestamp (seconds nanos : ℤ) : Option DateTime :=
  if inRange : minSeconds ≤ seconds ∧ seconds ≤ maxSeconds then
    if fraction : 0 ≤ nanos ∧ (nanos < 1000000000 ∨ nanos < 2000000000 ∧ seconds % 60 = 59) then
      some ⟨seconds, nanos, inRange, fraction⟩
    else none
  else none

def fromTimestampMillis (millis : ℤ) : Option DateTime :=
  fromTimestamp (millis / 1000) (millis % 1000 * 1000000)

theorem fromTimestamp_self (time : DateTime) : fromTimestamp time.seconds time.nanos = some time := by
  rw [fromTimestamp, dif_pos time.inRange, dif_pos time.fraction]

theorem eq_of_fromTimestamp {seconds nanos : ℤ} {time : DateTime} (converted : fromTimestamp seconds nanos = some time) :
    time.seconds = seconds ∧ time.nanos = nanos := by
  simp only [fromTimestamp] at converted
  split at converted
  · split at converted
    · cases converted
      exact ⟨rfl, rfl⟩
    · contradiction
  · contradiction

/-- Every physical time is one a calendar has. -/
theorem fromTimestampMillis_physicalMs (now : Tso) : (fromTimestampMillis now.physicalMs.toNat).isSome := by
  have := now.physicalMs_lt
  have inRange : minSeconds ≤ (now.physicalMs.toNat : ℤ) / 1000 ∧ (now.physicalMs.toNat : ℤ) / 1000 ≤ maxSeconds := by
    simp only [minSeconds, maxSeconds]
    omega
  rw [fromTimestampMillis, fromTimestamp, dif_pos inRange, dif_pos (by omega)]
  rfl

end DateTime

end Headlines.Core
