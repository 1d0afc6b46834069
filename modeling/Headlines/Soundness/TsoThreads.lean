import Mathlib
import Headlines.Auth.InProcessTso
import Headlines.Machine.Run

/-! # Threads racing on the oracle's word

Every thread reads the clock once, then loads the word and compare-exchanges it until it wins. Loads
and exchanges of different threads interleave freely, and validations load the same word. The
history `issued` grows with each successful exchange, so its order is the exchange order.
-/

namespace Headlines.Soundness.TsoThreads

open Core Auth

/-- Where a thread stands; the clock reading of `issue` is kept across retries. -/
inductive Thread where
  | idle
  | looping (wallNowMs : UInt64)
  | loaded (wallNowMs : UInt64) (prev next : Tso)
  | issued (result : Except TimeError Tso)
  | validating (wallMs : UInt64) (ts : Tso)
  | validated (ts : Tso) (result : Except TimeError Unit)

/-- The thread is between calls. -/
def Thread.ready : Thread → Bool
  | .idle | .issued _ | .validated .. => true
  | _ => false

structure State where
  tso : InProcessTso
  threads : ℕ → Thread
  issued : List Tso

inductive Label where
  | issue (thread : ℕ) (wallNowMs : UInt64)
  | load (thread : ℕ)
  | compareExchange (thread : ℕ)
  | validate (thread : ℕ) (wallMs : UInt64) (ts : Tso)
  | check (thread : ℕ)

def State.set (s : State) (thread : ℕ) (at' : Thread) : State :=
  { s with threads := Function.update s.threads thread at' }

def next (s : State) : Label → Option State
  | .issue thread wallNowMs =>
      if (s.threads thread).ready then some (s.set thread (.looping wallNowMs)) else none
  | .load thread =>
      match s.threads thread with
      | .looping wallNowMs =>
          match InProcessTso.nextTso wallNowMs s.tso.last with
          | .ok next => some (s.set thread (.loaded wallNowMs s.tso.last next))
          | .error e => some (s.set thread (.issued (.error e)))
      | _ => none
  | .compareExchange thread =>
      match s.threads thread with
      | .loaded wallNowMs prev next =>
          if s.tso.last = prev then
            some { (s.set thread (.issued (.ok next))) with
              tso := { s.tso with last := next }, issued := next :: s.issued }
          -- Another thread won the race; the loop retries with the same reading.
          else some (s.set thread (.looping wallNowMs))
      | _ => none
  | .validate thread wallMs ts =>
      if (s.threads thread).ready then some (s.set thread (.validating wallMs ts)) else none
  | .check thread =>
      match s.threads thread with
      | .validating wallMs ts => some (s.set thread (.validated ts (s.tso.validateSync wallMs ts)))
      | _ => none

/-- Any number of threads, any initial word. -/
def machine : Machine State Label where
  Start s := (∀ thread, s.threads thread = .idle) ∧ s.issued = []
  next := next

/-- The clock readings fit the physical part; they may jump in either direction. -/
def ClockFits (_ : State) : Label → Prop
  | .issue _ wallNowMs => wallNowMs.toNat < 2 ^ 46
  | .validate _ wallMs _ => wallMs.toNat < 2 ^ 46
  | _ => True

instance (s : State) : (label : Label) → Decidable (ClockFits s label)
  | .issue .. | .validate .. => inferInstanceAs (Decidable (_ < _))
  | .load _ | .compareExchange _ | .check _ => isTrue trivial

/-- What a thread between its load and its exchange holds was computed from the word it loaded. -/
def Thread.Sound : Thread → Prop
  | .looping wallNowMs => wallNowMs.toNat < 2 ^ 46
  | .loaded wallNowMs prev next =>
      wallNowMs.toNat < 2 ^ 46 ∧ InProcessTso.nextTso wallNowMs prev = .ok next
  | _ => True

structure Inv (s : State) : Prop where
  threads : ∀ thread, (s.threads thread).Sound
  increasing : s.issued.Pairwise fun later earlier => earlier < later
  bounded : ∀ ts ∈ s.issued, ts.raw.toNat ≤ s.tso.last.raw.toNat

theorem Inv.set {s : State} (inv : Inv s) (thread : ℕ) {at' : Thread} (sound : at'.Sound) :
    Inv (s.set thread at') where
  threads other := by
    by_cases same : other = thread
    · subst same
      simpa only [State.set, Function.update_self] using sound
    · simpa only [State.set, Function.update_of_ne same] using inv.threads other
  increasing := inv.increasing
  bounded := inv.bounded

/-- What one step does to the word and the history, besides moving its thread. -/
inductive Effect (s : State) (label : Label) (after : State) : Prop
  | moved (thread : ℕ) (at' : Thread) (sound : at'.Sound) (result : after = s.set thread at')
  | issued (thread : ℕ) (wallNowMs : UInt64) (next : Tso) (fits : wallNowMs.toNat < 2 ^ 46)
      (advances : InProcessTso.Advances wallNowMs s.tso.last next)
      (result : after = { (s.set thread (.issued (.ok next))) with
        tso := { s.tso with last := next }, issued := next :: s.issued })

theorem step_effect {s after : State} {label : Label} (inv : Inv s) (fits : ClockFits s label)
    (step : next s label = some after) : Effect s label after := by
  cases label with
  | issue thread wallNowMs =>
    simp only [next, Option.ite_none_right_eq_some, Option.some.injEq] at step
    exact .moved thread (.looping wallNowMs) fits step.2.symm
  | load thread =>
    simp only [next] at step
    split at step
    · next wallNowMs at' =>
      have sound := inv.threads thread
      rw [at'] at sound
      split at step
      · next next computed =>
        cases step
        exact .moved thread (.loaded wallNowMs s.tso.last next) ⟨sound, computed⟩ rfl
      · next e _ =>
        cases step
        exact .moved thread (.issued (.error e)) trivial rfl
    · contradiction
  | compareExchange thread =>
    simp only [next] at step
    split at step
    · next wallNowMs prev next at' =>
      have sound := inv.threads thread
      rw [at'] at sound
      split at step
      · next won =>
        cases step
        subst won
        exact .issued thread wallNowMs next sound.1 (InProcessTso.nextTso_advances sound.2) rfl
      · cases step
        exact .moved thread (.looping wallNowMs) sound.1 rfl
    · contradiction
  | validate thread wallMs ts =>
    simp only [next, Option.ite_none_right_eq_some, Option.some.injEq] at step
    exact .moved thread (.validating wallMs ts) trivial step.2.symm
  | check thread =>
    simp only [next] at step
    split at step
    · next wallMs ts at' =>
      cases step
      exact .moved thread (.validated ts (s.tso.validateSync wallMs ts)) trivial rfl
    · contradiction

theorem inv_start {s : State} (start : machine.Start s) : Inv s where
  threads thread := by rw [start.1 thread]; trivial
  increasing := by rw [start.2]; exact .nil
  bounded := by rw [start.2]; exact fun _ member => (List.not_mem_nil member).elim

theorem inv_step {s after : State} {label : Label} (inv : Inv s) (fits : ClockFits s label)
    (step : next s label = some after) : Inv after := by
  cases step_effect inv fits step with
  | moved thread at' sound result => exact result ▸ inv.set thread sound
  | issued thread wallNowMs next below advances result =>
    subst result
    have ahead := advances.lt below
    have moved := inv.set thread (show (Thread.issued (.ok next)).Sound from trivial)
    refine ⟨moved.threads, ?_, ?_⟩
    · refine .cons (fun ts member => ?_) inv.increasing
      have := inv.bounded ts member
      rw [Tso.lt_iff] at ahead ⊢
      omega
    · intro ts member
      rw [Tso.lt_iff] at ahead
      rcases List.mem_cons.mp member with rfl | member
      · exact Nat.le_refl _
      · have := inv.bounded ts member
        dsimp only
        omega

theorem inv_reachable {s : State} (reached : machine.Reachable ClockFits s) : Inv s :=
  reached.invariant (fun _ => inv_start) fun _ _ _ => inv_step

private theorem threads_set (s : State) (thread other : ℕ) (at' : Thread) :
    (s.set thread at').threads other = if other = thread then at' else s.threads other := by
  by_cases same : other = thread
  · rw [if_pos same, same]
    exact Function.update_self ..
  · rw [if_neg same]
    exact Function.update_of_ne same ..

/-- A verdict appears only by validating against the word of the moment. -/
theorem verdict_of_step {s after : State} {label : Label} {thread : ℕ} {wallMs : UInt64} {ts : Tso}
    {result : Except TimeError Unit} (step : next s label = some after)
    (before : s.threads thread = .validating wallMs ts)
    (judged : after.threads thread = .validated ts result) :
    result = s.tso.validateSync wallMs ts := by
  cases label with
  | issue other _ | validate other _ _ =>
    simp only [next, Option.ite_none_right_eq_some, Option.some.injEq] at step
    obtain ⟨ready, rfl⟩ := step
    rw [threads_set] at judged
    split at judged
    · contradiction
    · rw [before] at judged; contradiction
  | load other | compareExchange other =>
    simp only [next] at step
    split at step
    · split at step <;> cases step <;> simp only [threads_set, before] at judged <;>
        split at judged <;> contradiction
    · contradiction
  | check other =>
    simp only [next] at step
    split at step
    · next at' =>
      cases step
      rw [threads_set] at judged
      split at judged
      · next same =>
        subst same
        rw [before] at at'
        cases at'
        cases judged
        rfl
      · rw [before] at judged; contradiction
    · contradiction

/-- Issuance in one process: exchange order is timestamp order, the counter never carries, a failing
call stores nothing, and a timestamp issued before the load is never judged to be in the future. -/
theorem issue_linearizes {s : State} (reached : machine.Reachable ClockFits s) :
    s.issued.Pairwise (fun later earlier => earlier < later) ∧
    ∀ label after, ClockFits s label → machine.next s label = some after →
      (after.issued = s.issued ∧ after.tso = s.tso ∨
        ∃ ts, after.issued = ts :: s.issued ∧ after.tso.last = ts ∧
          (s.tso.last.physicalMs.toNat < ts.physicalMs.toNat ∧ ts.logical.toNat = 0 ∨
            ts.physicalMs.toNat = s.tso.last.physicalMs.toNat ∧
              ts.logical.toNat = s.tso.last.logical.toNat + 1)) ∧
      (∀ thread e, after.threads thread = .issued (.error e) →
        s.threads thread ≠ .issued (.error e) → after.tso = s.tso) ∧
      ∀ thread wallMs ts, s.threads thread = .validating wallMs ts → ts ∈ s.issued →
        after.threads thread ≠ .validated ts (.error .nonMonotonic) := by
  have inv := inv_reachable reached
  refine ⟨inv.increasing, fun label after fits step => ⟨?_, ?_, ?_⟩⟩
  · cases step_effect inv fits step with
    | moved thread at' _ result => exact .inl ⟨result ▸ rfl, result ▸ rfl⟩
    | issued thread wallNowMs next below advances result =>
      refine .inr ⟨next, result ▸ rfl, result ▸ rfl, ?_⟩
      cases advances with
      | clock ahead physical logical => left; omega
      | logical _ physical logical => exact .inr ⟨physical, logical⟩
  · intro thread e failed fresh
    cases step_effect inv fits step with
    | moved other at' _ result => exact result ▸ rfl
    | issued other wallNowMs next _ _ result =>
      -- An exchange that stores leaves its own thread with a timestamp and no other thread moved.
      rw [result] at failed
      change (s.set other (.issued (.ok next))).threads thread = _ at failed
      rw [threads_set] at failed
      split at failed
      · cases failed
      · exact (fresh failed).elim
  · intro thread wallMs ts before member judged
    have verdict := verdict_of_step step before judged
    have future := InProcessTso.validateSync_nonMonotonic_iff.mp verdict.symm
    have covered := Tso.physicalMs_mono (inv.bounded ts member)
    rw [InProcessTso.nowMs_toNat] at future
    omega

/-- Two threads load the same word, one loses the exchange and retries behind a clock that fell. -/
theorem issue_linearizes_race : ∃ s, machine.Reachable ClockFits s ∧
    s.issued = [Tso.fromParts 5000 2, Tso.fromParts 5000 1] ∧
    s.issued.Pairwise (fun later earlier => earlier < later) := by
  have reached : machine.Reachable ClockFits _ :=
    Machine.reachable_of_replay ⟨⟨Tso.fromParts 5000 0, 30000⟩, fun _ => .idle, []⟩
      [.issue 0 5000, .issue 1 4000, .load 0, .load 1, .compareExchange 1, .compareExchange 0,
        .load 0, .compareExchange 0] ⟨fun _ => rfl, rfl⟩ rfl
  exact ⟨_, reached, rfl, (issue_linearizes reached).1⟩

end Headlines.Soundness.TsoThreads
