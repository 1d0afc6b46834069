import Headlines.Auth.InProcessTso
import Headlines.Machine.Run

/-! # Whether a rejected timestamp stays rejected

One process answers issue and validate calls in any order, under clock readings that may jump either
way. Validation measures age against the greater of its reading and `last`, but only issuing stores:
an observed later time is forgotten unless an issue kept it.
-/

namespace Headlines.Soundness.Expiry

open Core Auth

/-- One answered validation. -/
structure Verdict where
  ts : Tso
  wallMs : UInt64
  result : Except TimeError Unit

/-- Verdicts stand newest first. -/
structure State where
  tso : InProcessTso
  verdicts : List Verdict

inductive Label where
  | issue (wallMs : UInt64)
  | validate (wallMs : UInt64) (ts : Tso)

def next (s : State) : Label → Option State
  | .issue wallMs => some { s with tso := (s.tso.issue wallMs).2 }
  | .validate wallMs ts =>
      some { s with verdicts := ⟨ts, wallMs, s.tso.validateSync wallMs ts⟩ :: s.verdicts }

/-- Any initial word and horizon. -/
def machine : Machine State Label where
  Start s := s.verdicts = []
  next := next

/-- No timestamp that was rejected as expired is accepted by a later call. -/
def Permanent (s : State) : Prop :=
  s.verdicts.Pairwise fun later earlier => later.ts = earlier.ts →
    earlier.result = .error .outsideHorizon → later.result ≠ .ok ()

/-- A reading puts `ts` beyond the horizon. -/
def Beyond (horizonMs : UInt64) (ts : Tso) (nowMs : UInt64) : Prop :=
  ts.physicalMs.toNat + horizonMs.toNat < nowMs.toNat

instance (horizonMs : UInt64) (ts : Tso) (nowMs : UInt64) : Decidable (Beyond horizonMs ts nowMs) :=
  inferInstanceAs (Decidable (_ < _))

/-- The clock does not come back inside the horizon of a timestamp that a validation read it beyond,
unless `last` is beyond that horizon too; readings that are issued fit the physical part. -/
def ClockKept (s : State) : Label → Prop
  | .issue wallMs => wallMs.toNat < 2 ^ 46
  | .validate wallMs ts => ∀ verdict ∈ s.verdicts, verdict.ts = ts →
      Beyond s.tso.horizonMs ts verdict.wallMs →
      Beyond s.tso.horizonMs ts wallMs ∨ Beyond s.tso.horizonMs ts s.tso.last.physicalMs

instance (s : State) : (label : Label) → Decidable (ClockKept s label)
  | .issue _ => inferInstanceAs (Decidable (_ < _))
  | .validate _ _ => inferInstanceAs (Decidable (∀ _ ∈ _, _))

/-- An expiry was read off the clock by its validation, or `last` vouches for it ever after. -/
structure Inv (s : State) : Prop where
  permanent : Permanent s
  witnessed : ∀ verdict ∈ s.verdicts, verdict.result = .error .outsideHorizon →
    Beyond s.tso.horizonMs verdict.ts verdict.wallMs ∨
    Beyond s.tso.horizonMs verdict.ts s.tso.last.physicalMs

theorem beyond_nowMs {horizonMs wallMs : UInt64} {ts last : Tso} :
    Beyond horizonMs ts (InProcessTso.nowMs last wallMs) ↔
      Beyond horizonMs ts wallMs ∨ Beyond horizonMs ts last.physicalMs := by
  simp only [Beyond, InProcessTso.nowMs_toNat]
  omega

/-- Issuing keeps the horizon and moves `last` forwards only. -/
theorem issue_keeps (tso : InProcessTso) {wallMs : UInt64} (fits : wallMs.toNat < 2 ^ 46) :
    (tso.issue wallMs).2.horizonMs = tso.horizonMs ∧
    tso.last.physicalMs.toNat ≤ (tso.issue wallMs).2.last.physicalMs.toNat := by
  unfold InProcessTso.issue
  split
  · next next issued =>
    refine ⟨rfl, ?_⟩
    cases InProcessTso.nextTso_advances issued with
    | clock ahead physical _ => dsimp only; omega
    | logical _ physical _ => exact Nat.le_of_eq physical.symm
  · exact ⟨rfl, Nat.le_refl _⟩

theorem inv_start {s : State} (start : machine.Start s) : Inv s where
  permanent := by
    rw [Permanent, start]
    exact .nil
  witnessed := by
    rw [start]
    exact fun _ member => (List.not_mem_nil member).elim

theorem inv_step {s after : State} {label : Label} (inv : Inv s) (kept : ClockKept s label)
    (step : next s label = some after) : Inv after := by
  cases label with
  | issue wallMs =>
    cases step
    obtain ⟨horizon, forwards⟩ := issue_keeps s.tso kept
    refine ⟨inv.permanent, fun verdict member expired => ?_⟩
    have earlier := inv.witnessed verdict member expired
    simp only [Beyond, horizon] at earlier ⊢
    omega
  | validate wallMs ts =>
    cases step
    refine ⟨.cons (fun verdict member same expired accepted => ?_) inv.permanent, ?_⟩
    · -- Whatever made the earlier verdict expire is still visible to this validation.
      obtain rfl : ts = verdict.ts := same
      have beyond : Beyond s.tso.horizonMs verdict.ts (InProcessTso.nowMs s.tso.last wallMs) := by
        rw [beyond_nowMs]
        rcases inv.witnessed verdict member expired with read | stored
        · exact kept verdict member rfl read
        · exact .inr stored
      have inside := (InProcessTso.validateSync_ok_iff.mp accepted).2
      exact absurd beyond (Nat.not_lt.mpr inside)
    · intro verdict member expired
      rcases List.mem_cons.mp member with rfl | member
      · exact beyond_nowMs.mp (InProcessTso.validateSync_outsideHorizon_iff.mp expired)
      · exact inv.witnessed verdict member expired

private def origin : State := ⟨⟨Tso.fromParts 1000 0, 30000⟩, []⟩

end Headlines.Soundness.Expiry
