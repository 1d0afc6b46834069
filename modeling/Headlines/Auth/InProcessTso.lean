import Mathlib
import Headlines.Core.Auth
import Headlines.ToMathlib.SaturatingUInt

/-! # The in-process timestamp oracle

One 64-bit word `last` holds the highest timestamp issued. Clock readings are arguments: every
function takes the reading its source makes. The high-water row is the only state that survives a
process; the boot reads it, pads it by one flush interval and waits for the wall clock to pass it.
-/

namespace Headlines.Auth

open Headlines.Core

structure InProcessTsoConfig where
  horizonMs : UInt64
  flushIntervalMs : UInt64
deriving DecidableEq, Repr

def InProcessTsoConfig.default : InProcessTsoConfig := ⟨30000, 100⟩

structure InProcessTso where
  last : Tso
  horizonMs : UInt64
deriving DecidableEq, Repr

/-- The singleton high-water row, a signed 64-bit column. -/
abbrev HighWaterRow := Option ℤ

namespace PostgresTsoStore

/-- Seed the row when it is missing, then read it. -/
def read (row : HighWaterRow) : HighWaterRow × UInt64 :=
  let seeded := row.getD 0
  (some seeded, UInt64.ofNat (max seeded 0).toNat)

/-- Upsert: the comment asks for the greater value, the statement stores the new one. -/
def write (_row : HighWaterRow) (lastPhysicalMs : UInt64) : HighWaterRow :=
  some (min lastPhysicalMs.toNat (2 ^ 63 - 1))

/-- A mark that was written is read back whenever it fits the column. -/
theorem read_write (row : HighWaterRow) (mark : UInt64) (fits : mark.toNat < 2 ^ 63) :
    (read (write row mark)).2 = mark := by
  have positive : (max (min (mark.toNat : ℤ) (2 ^ 63 - 1)) 0).toNat = mark.toNat := by omega
  simp only [read, write, Option.getD_some, positive, UInt64.ofNat_toNat]

end PostgresTsoStore

namespace InProcessTso

/-- The boot waits until a reading exceeds the floor; what is left are the later readings. -/
def waitPast (crashFloor : UInt64) : List UInt64 → Option (List UInt64)
  | [] => none
  | now :: rest => if crashFloor < now then some rest else waitPast crashFloor rest

def crashFloor (config : InProcessTsoConfig) (stored : UInt64) : UInt64 :=
  stored.saturatingAdd config.flushIntervalMs

/-- Boot from the stored mark with the clock readings the boot makes, none of them to spare. -/
def newWithClock (config : InProcessTsoConfig) (stored : UInt64) (readings : List UInt64) :
    Option InProcessTso :=
  let crashFloor := crashFloor config stored
  let afterWait := if 0 < crashFloor then waitPast crashFloor readings else some readings
  match afterWait with
  | some [now] => some ⟨Tso.fromParts (max crashFloor now) 0, config.horizonMs⟩
  | _ => none

theorem waitPast_some {crashFloor : UInt64} {readings rest : List UInt64}
    (waited : waitPast crashFloor readings = some rest) :
    ∃ before now, readings = before ++ now :: rest ∧ crashFloor < now := by
  induction readings with
  | nil => contradiction
  | cons now later ih =>
    simp only [waitPast] at waited
    split at waited
    · next past =>
      cases waited
      exact ⟨[], now, rfl, past⟩
    · obtain ⟨before, reached, rfl, past⟩ := ih waited
      exact ⟨now :: before, reached, rfl, past⟩

/-- A boot seeds the word at its last reading or its floor, and some reading was past the floor. -/
theorem newWithClock_some {config : InProcessTsoConfig} {stored : UInt64} {readings : List UInt64}
    {tso : InProcessTso} (booted : newWithClock config stored readings = some tso) :
    tso.horizonMs = config.horizonMs ∧ ∃ now, readings.getLast? = some now ∧
      tso.last = Tso.fromParts (max (crashFloor config stored) now) 0 ∧
      (0 < crashFloor config stored → ∃ reading ∈ readings, crashFloor config stored < reading) := by
  simp only [newWithClock] at booted
  split at booted
  · next now waited =>
    cases booted
    refine ⟨rfl, now, ?_⟩
    split at waited
    · obtain ⟨before, past, rfl, beyond⟩ := waitPast_some waited
      refine ⟨?_, rfl, fun _ => ⟨past, ?_, beyond⟩⟩
      · rw [List.getLast?_append]
        rfl
      · exact List.mem_append_right _ List.mem_cons_self
    · next zero =>
      cases waited
      exact ⟨rfl, rfl, fun positive => absurd positive zero⟩
  · contradiction

/-- One iteration of the loop in `issue`: the word to store over `prev`. -/
def nextTso (wallNowMs : UInt64) (prev : Tso) : Except TimeError Tso :=
  if prev.physicalMs < wallNowMs then .ok (Tso.fromParts wallNowMs 0)
  else if prev.logical = ((1 : UInt32) <<< 18) - 1 then
    .error (.internal "logical counter exhausted within the same physical_ms")
  else .ok (Tso.fromParts prev.physicalMs (prev.logical + 1))

/-- `issue` when no other thread moves the word meanwhile. -/
def issue (tso : InProcessTso) (wallNowMs : UInt64) : Except TimeError Tso × InProcessTso :=
  match nextTso wallNowMs tso.last with
  | .ok next => (.ok next, { tso with last := next })
  | .error e => (.error e, tso)

/-- What `validateSync` takes for the current time. -/
def nowMs (last : Tso) (wallMs : UInt64) : UInt64 := max wallMs last.physicalMs

/-- Validation never stores, so the current time is only as durable as `last`. -/
def validateSync (tso : InProcessTso) (wallMs : UInt64) (ts : Tso) : Except TimeError Unit :=
  let nowMs := nowMs tso.last wallMs
  let tsMs := ts.physicalMs
  if nowMs < tsMs then .error .nonMonotonic
  else if tso.horizonMs < nowMs.saturatingSub tsMs then .error .outsideHorizon
  else .ok ()

theorem nowMs_toNat (last : Tso) (wallMs : UInt64) :
    (nowMs last wallMs).toNat = max wallMs.toNat last.physicalMs.toNat := UInt64.toNat_max _ _

theorem validateSync_ok_iff {tso : InProcessTso} {wallMs : UInt64} {ts : Tso} :
    tso.validateSync wallMs ts = .ok () ↔
      ts.physicalMs.toNat ≤ (nowMs tso.last wallMs).toNat ∧
      (nowMs tso.last wallMs).toNat ≤ ts.physicalMs.toNat + tso.horizonMs.toNat := by
  simp only [validateSync, UInt64.lt_iff_toNat_lt, UInt64.toNat_saturatingSub]
  split
  · simp only [reduceCtorEq, false_iff]; omega
  · split
    · simp only [reduceCtorEq, false_iff]; omega
    · simp only [true_iff]; omega

theorem validateSync_outsideHorizon_iff {tso : InProcessTso} {wallMs : UInt64} {ts : Tso} :
    tso.validateSync wallMs ts = .error .outsideHorizon ↔
      ts.physicalMs.toNat + tso.horizonMs.toNat < (nowMs tso.last wallMs).toNat := by
  simp only [validateSync, UInt64.lt_iff_toNat_lt, UInt64.toNat_saturatingSub]
  split
  · simp only [reduceCtorEq, Except.error.injEq, false_iff]; omega
  · split
    · simp only [true_iff]; omega
    · simp only [reduceCtorEq, false_iff]; omega

theorem validateSync_nonMonotonic_iff {tso : InProcessTso} {wallMs : UInt64} {ts : Tso} :
    tso.validateSync wallMs ts = .error .nonMonotonic ↔
      (nowMs tso.last wallMs).toNat < ts.physicalMs.toNat := by
  simp only [validateSync, UInt64.lt_iff_toNat_lt]
  split
  · simpa only [true_iff] using ‹_›
  · split <;> simp only [reduceCtorEq, Except.error.injEq, false_iff] <;> omega

/-- The step of the oracle inside one millisecond or into a later one. -/
inductive Advances (wallNowMs : UInt64) (prev next : Tso) : Prop
  | clock (ahead : prev.physicalMs.toNat < wallNowMs.toNat)
      (physical : next.physicalMs.toNat = wallNowMs.toNat % 2 ^ 46) (logical : next.logical.toNat = 0)
  | logical (behind : wallNowMs.toNat ≤ prev.physicalMs.toNat)
      (physical : next.physicalMs.toNat = prev.physicalMs.toNat)
      (logical : next.logical.toNat = prev.logical.toNat + 1)

/-- The counter is checked before it is incremented, so it never carries into the physical part. -/
theorem nextTso_advances {wallNowMs : UInt64} {prev next : Tso}
    (issued : nextTso wallNowMs prev = .ok next) : Advances wallNowMs prev next := by
  unfold nextTso at issued
  split at issued
  · next ahead =>
    cases issued
    refine .clock (UInt64.lt_iff_toNat_lt.mp ahead) (Tso.physicalMs_fromParts _ _) ?_
    rw [Tso.logical_fromParts]
    rfl
  · next behind =>
    split at issued
    · contradiction
    · next room =>
      cases issued
      have counter := prev.logical_lt
      have below : prev.logical.toNat ≠ 2 ^ 18 - 1 := fun full =>
        room (UInt32.toNat_inj.mp (by rw [full]; decide))
      refine .logical (UInt64.le_iff_toNat_le.mp (UInt64.not_lt.mp behind)) ?_ ?_
      · rw [Tso.physicalMs_fromParts, Nat.mod_eq_of_lt prev.physicalMs_lt]
      · rw [Tso.logical_fromParts, UInt32.toNat_add]
        change (prev.logical.toNat + 1) % 2 ^ 32 % 2 ^ 18 = _
        omega

/-- Readings that fit the physical part make every step strictly increasing. -/
theorem Advances.lt {wallNowMs : UInt64} {prev next : Tso} (advances : Advances wallNowMs prev next)
    (fits : wallNowMs.toNat < 2 ^ 46) : prev < next := by
  rw [Tso.lt_iff_parts]
  cases advances with
  | clock ahead physical _ => left; omega
  | logical _ physical logical => right; omega

/-- Issuing moves no reading's current time, whatever the width of the reading. -/
theorem Advances.nowMs {wallNowMs : UInt64} {prev next : Tso}
    (advances : Advances wallNowMs prev next) :
    (nowMs next wallNowMs).toNat = (nowMs prev wallNowMs).toNat := by
  rw [nowMs_toNat, nowMs_toNat]
  cases advances with
  | clock ahead physical _ => omega
  | logical behind physical _ => omega

end InProcessTso

end Headlines.Auth
