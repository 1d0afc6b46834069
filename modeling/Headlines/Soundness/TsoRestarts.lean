import Headlines.Soundness.Deployment

/-! # Timestamps of one process and of the next

A boot pads the stored mark by one flush interval. That covers what the previous process issued
only while its flushes kept up; a mark that lags further, or that a late flush moved back, leaves
the boot to the wall clock, which may have jumped as well.
-/

namespace Headlines.Soundness.TsoRestarts

open Core Auth Server Deployment

/-- Every timestamp of a process is greater than every timestamp of an earlier one. -/
def Increasing (s : State) : Prop :=
  s.lifetimes.Pairwise fun later earlier => ∀ ts ∈ later.issued, ∀ old ∈ earlier.issued, old < ts

/-- The timestamp is not past the first one of a millisecond. -/
def Covers (physicalMs : UInt64) (ts : Tso) : Prop := ts.raw.toNat ≤ physicalMs.toNat * 2 ^ 18

instance (physicalMs : UInt64) (ts : Tso) : Decidable (Covers physicalMs ts) :=
  inferInstanceAs (Decidable (_ ≤ _))

/-- Clock readings fit the physical part, and at a boot the padded mark or the last reading covers
every timestamp that was ever issued. -/
def BootsCovered (config : InProcessTsoConfig) (s : State) : Label → Prop
  | .tick wallMs => wallMs.toNat < 2 ^ 46
  | .boot readings => (∀ reading ∈ readings, reading.toNat < 2 ^ 46) ∧
      ∀ lifetime ∈ s.ended, ∀ ts ∈ lifetime.issued,
        Covers (InProcessTso.crashFloor config (PostgresTsoStore.read s.row).2) ts ∨
        Covers (readings.getLastD 0) ts
  | _ => True

instance (config : InProcessTsoConfig) (s : State) :
    (label : Label) → Decidable (BootsCovered config s label)
  | .tick _ => inferInstanceAs (Decidable (_ < _))
  | .boot _ => @instDecidableAnd _ _ (List.decidableBAll _ _)
      (@List.decidableBAll _ _ (fun _ => List.decidableBAll _ _) _)
  | .crash | .getTime | .flush | .land _ | .lose _ | .authenticate .. => isTrue trivial

/-- The word of a running oracle bounds everything that any process issued. -/
structure Bounds (s : State) (p : Process) : Prop where
  fits : s.wallMs.toNat < 2 ^ 46
  bounded : ∃ tso, p.source = .inProcessTso tso ∧
    (∀ ts ∈ p.lifetime.issued, ts.raw.toNat ≤ tso.last.raw.toNat) ∧
    ∀ lifetime ∈ s.ended, ∀ ts ∈ lifetime.issued, ts.raw.toNat ≤ tso.last.raw.toNat

structure Inv (s : State) : Prop where
  increasing : Increasing s
  running : ∀ p, s.process = some p → Bounds s p

/-- The seed of a boot whose readings fit is neither below its floor nor below its last reading. -/
theorem covers_seed {config : InProcessTsoConfig} {stored : UInt64} {readings : List UInt64}
    {tso : InProcessTso} (booted : InProcessTso.newWithClock config stored readings = some tso)
    (fits : ∀ reading ∈ readings, reading.toNat < 2 ^ 46) {ts : Tso}
    (covered : Covers (InProcessTso.crashFloor config stored) ts ∨ Covers (readings.getLastD 0) ts) :
    ts.raw.toNat ≤ tso.last.raw.toNat := by
  obtain ⟨_, now, last, seed, past⟩ := InProcessTso.newWithClock_some booted
  have nowFits := fits now (List.mem_of_getLast? last)
  have floorFits : (InProcessTso.crashFloor config stored).toNat < 2 ^ 46 := by
    by_contra large
    obtain ⟨reading, member, beyond⟩ := past (UInt64.lt_iff_toNat_lt.mpr (by
      rw [UInt64.toNat_zero]; omega))
    have := fits reading member
    have := UInt64.lt_iff_toNat_lt.mp beyond
    omega
  rw [List.getLastD_eq_getLast?, last, Option.getD_some] at covered
  rw [seed, Tso.fromParts_toNat, UInt64.toNat_max]
  simp only [Covers] at covered
  omega

theorem inv_start {config : TimeSourceConfig} {algos : AlgorithmRegistry} {s : State}
    (start : (machine config algos).Start s) : Inv s := by
  obtain ⟨down, ended, _⟩ := start
  constructor
  · rw [Increasing, lifetimes_down down, ended]
    exact .nil
  · intro p up
    rw [down] at up
    contradiction

theorem inv_boot {config : InProcessTsoConfig} {s : State} {readings : List UInt64}
    {source : TimeSource} {row : HighWaterRow} (inv : Inv s) (down : s.process = none)
    (booted : (TimeSourceConfig.inProcessTso config).boot s.row readings = some (source, row))
    (covered : BootsCovered config s (.boot readings)) :
    Inv { s with
      wallMs := readings.getLastD s.wallMs
      row := row
      process := some ⟨source, .new, ⟨readings.getLastD s.wallMs, [], []⟩⟩ } := by
  obtain ⟨tso, built, same⟩ := Option.map_eq_some_iff.mp booted
  cases same
  obtain ⟨_, now, last, _⟩ := InProcessTso.newWithClock_some built
  constructor
  · have earlier := inv.increasing
    rw [Increasing, lifetimes_down down] at earlier
    refine .cons ?_ earlier
    rintro lifetime _ ts ⟨⟩
  · rintro p ⟨⟩
    constructor
    · change (readings.getLastD s.wallMs).toNat < 2 ^ 46
      rw [List.getLastD_eq_getLast?, last, Option.getD_some]
      exact covered.1 now (List.mem_of_getLast? last)
    · refine ⟨tso, rfl, ?_, fun lifetime member ts issued => ?_⟩
      · rintro ts ⟨⟩
      · exact covers_seed built covered.1 (covered.2 lifetime member ts issued)

/-- Issuing within the width puts the new timestamp above the word and above all it bounds. -/
theorem inv_getTime {s : State} {p : Process} (inv : Inv s) (up : s.process = some p) :
    Inv { s with process := some (p.getTime s.wallMs) } := by
  obtain ⟨fits, tso, source, own, past⟩ := inv.running p up
  have earlier := inv.increasing
  rw [Increasing, lifetimes_up up] at earlier
  obtain ⟨ordered, rest⟩ := List.pairwise_cons.mp earlier
  have answer : p.source.now s.wallMs = ((tso.issue s.wallMs).1, .inProcessTso (tso.issue s.wallMs).2) := by
    rw [source]
    rfl
  unfold Process.getTime
  rw [answer, InProcessTso.issue]
  cases issued : InProcessTso.nextTso s.wallMs tso.last with
  | error e =>
    dsimp only
    constructor
    · exact .cons ordered rest
    · rintro q ⟨⟩
      exact ⟨fits, tso, rfl, own, past⟩
  | ok next =>
    have ahead := Tso.lt_iff.mp ((InProcessTso.nextTso_advances issued).lt fits)
    dsimp only
    constructor
    · refine .cons (fun lifetime member ts fresh old issuedOld => ?_) rest
      rcases List.mem_cons.mp fresh with rfl | known
      · rw [Tso.lt_iff]
        have := past lifetime member old issuedOld
        omega
      · exact ordered lifetime member ts known old issuedOld
    · rintro q ⟨⟩
      refine ⟨fits, _, rfl, fun ts fresh => ?_, fun lifetime member ts old => ?_⟩
      · rcases List.mem_cons.mp fresh with rfl | known
        · exact Nat.le_refl _
        · have := own ts known
          dsimp only
          omega
      · have := past lifetime member ts old
        dsimp only
        omega

theorem inv_step {config : InProcessTsoConfig} {algos : AlgorithmRegistry} {s after : State}
    {label : Label} (inv : Inv s) (covered : BootsCovered config s label)
    (step : next (.inProcessTso config) algos s label = some after) : Inv after := by
  cases step_effect step with
  | stored wallMs process ended =>
    have lifetimes : after.lifetimes = s.lifetimes := by
      rw [State.lifetimes, State.lifetimes, process, ended]
    refine ⟨?_, fun p up => ?_⟩
    · rw [Increasing, lifetimes]
      exact inv.increasing
    · obtain ⟨fits, bounded⟩ := inv.running p (process ▸ up)
      rw [← wallMs] at fits
      rw [← ended] at bounded
      exact ⟨fits, bounded⟩
  | tick wallMs result =>
    subst result
    exact ⟨inv.increasing, fun p up => ⟨covered, (inv.running p up).bounded⟩⟩
  | boot readings source row down booted result =>
    subst result
    exact inv_boot inv down booted covered
  | crash p up result =>
    subst result
    have earlier := inv.increasing
    rw [Increasing, lifetimes_up up] at earlier
    exact ⟨earlier, fun _ stopped => by contradiction⟩
  | getTime p up result =>
    subst result
    exact inv_getTime inv up
  | authenticate p parts resolved up result =>
    subst result
    have earlier := inv.increasing
    rw [Increasing, lifetimes_up up] at earlier
    obtain ⟨ordered, rest⟩ := List.pairwise_cons.mp earlier
    refine ⟨.cons ordered rest, ?_⟩
    rintro q ⟨⟩
    obtain ⟨fits, bounded⟩ := inv.running p up
    exact ⟨fits, bounded⟩

private def origin : State := ⟨1000, none, [], none, []⟩

end Headlines.Soundness.TsoRestarts
