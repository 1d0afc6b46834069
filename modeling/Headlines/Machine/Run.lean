import Mathlib

/-! # Machines given by a partial step function, and their guarded runs

The label of a step carries every choice the step leaves open, so `next` is a function and a run
is determined by its labels. A guard restricts which labels a state permits; a law about "every
run whose steps all meet a condition" is a law about runs under that guard. Runs grow at their
end, which is the direction in which histories accumulate.
-/

/-- A labelled machine with a partial step function. -/
structure Machine (σ ℓ : Type*) where
  Start : σ → Prop
  next : σ → ℓ → Option σ

namespace Machine

variable {σ ℓ : Type*} {m : Machine σ ℓ} {guard weaker : σ → ℓ → Prop}
  {source middle target : σ} {first second labels : List ℓ}

/-- A finite run whose every step meets the guard in the state it is taken from. -/
inductive Run (m : Machine σ ℓ) (guard : σ → ℓ → Prop) (source : σ) : List ℓ → σ → Prop
  | nil : Run m guard source [] source
  | snoc {labels : List ℓ} {label : ℓ} {middle target : σ} :
      Run m guard source labels middle → guard middle label → m.next middle label = some target →
      Run m guard source (labels ++ [label]) target

/-- The guard that permits every step. -/
def anything : σ → ℓ → Prop := fun _ _ => True

instance (state : σ) (label : ℓ) : Decidable (anything state label) := isTrue trivial

/-- A state that some guarded run from a starting state ends in. -/
def Reachable (m : Machine σ ℓ) (guard : σ → ℓ → Prop) (target : σ) : Prop :=
  ∃ source labels, m.Start source ∧ m.Run guard source labels target

namespace Run

theorem append (left : m.Run guard source first middle) (right : m.Run guard middle second target) :
    m.Run guard source (first ++ second) target := by
  induction right with
  | nil => simpa only [List.append_nil] using left
  | snoc _ permitted step ih =>
    rw [← List.append_assoc]
    exact .snoc ih permitted step

theorem weaken (run : m.Run guard source labels target)
    (implied : ∀ state label, guard state label → weaker state label) :
    m.Run weaker source labels target := by
  induction run with
  | nil => exact .nil
  | snoc _ permitted step ih => exact .snoc ih (implied _ _ permitted) step

/-- A run is a run of another machine if each of its steps is one. -/
theorem transfer {other : Machine σ ℓ} {p : σ → Prop} (run : m.Run guard source labels target)
    (initial : p source)
    (step : ∀ state label after, p state → guard state label → label ∈ labels →
      m.next state label = some after → p after ∧ weaker state label ∧ other.next state label = some after) :
    other.Run weaker source labels target := by
  suffices both : p target ∧ other.Run weaker source labels target from both.2
  induction run with
  | nil => exact ⟨initial, .nil⟩
  | snoc _ permitted moved ih =>
    obtain ⟨holds, run⟩ := ih fun state label after holds permitted member =>
      step state label after holds permitted (List.mem_append_left _ member)
    obtain ⟨kept, allowed, same⟩ := step _ _ _ holds permitted (List.mem_append_right _ (List.mem_singleton_self _)) moved
    exact ⟨kept, .snoc run allowed same⟩

/-- A run whose labels are all permitted in every state. -/
theorem narrow (run : m.Run guard source labels target) (permitted : ∀ label ∈ labels, ∀ state, weaker state label) :
    m.Run weaker source labels target :=
  run.transfer (p := fun _ => True) trivial fun state label _ _ _ member step =>
    ⟨trivial, permitted label member state, step⟩

/-- What every guarded step preserves, a guarded run preserves. -/
theorem invariant {inv : σ → Prop} (run : m.Run guard source labels target) (initial : inv source)
    (preserved : ∀ state label after, inv state → guard state label →
      m.next state label = some after → inv after) : inv target := by
  induction run with
  | nil => exact initial
  | snoc _ permitted step ih => exact preserved _ _ _ ih permitted step

/-- A reflexive and transitive relation that holds across every guarded step of a state that
satisfies an invariant holds across a whole run. -/
theorem relates {inv : σ → Prop} {rel : σ → σ → Prop} (run : m.Run guard source labels target)
    (initial : inv source)
    (preserved : ∀ state label after, inv state → guard state label →
      m.next state label = some after → inv after)
    (refl : ∀ state, rel state state)
    (trans : ∀ before state after, rel before state → rel state after → rel before after)
    (step : ∀ state label after, inv state → guard state label →
      m.next state label = some after → rel state after) : rel source target := by
  induction run with
  | nil => exact refl _
  | snoc prior permitted moved ih =>
    exact trans _ _ _ ih (step _ _ _ (prior.invariant initial preserved) permitted moved)

/-- A run that loses a property has a last step that does. -/
theorem crossing {p : σ → Prop} (run : m.Run guard source labels target) (before : p source)
    (lost : ¬ p target) :
    ∃ earlier label later state after, labels = earlier ++ label :: later ∧ m.Run guard source earlier state ∧
      p state ∧ guard state label ∧ m.next state label = some after ∧ ¬ p after ∧
      m.Run guard after later target := by
  induction run with
  | nil => exact absurd before lost
  | @snoc labels label middle target prior permitted step ih =>
    by_cases held : p middle
    · exact ⟨labels, label, [], middle, target, rfl, prior, held, permitted, step, lost, .nil⟩
    · obtain ⟨earlier, last, later, state, after, rfl, run, was, allowed, moved, gone, rest⟩ := ih held
      exact ⟨earlier, last, later ++ [label], state, after, by rw [List.append_assoc, List.cons_append], run, was,
        allowed, moved, gone, .snoc rest permitted step⟩

end Run

namespace Reachable

theorem start (initial : m.Start source) : m.Reachable guard source := ⟨source, [], initial, .nil⟩

theorem weaken (reached : m.Reachable guard target) (implied : ∀ state label, guard state label → weaker state label) :
    m.Reachable weaker target := by
  obtain ⟨source, labels, initial, run⟩ := reached
  exact ⟨source, labels, initial, run.weaken implied⟩

theorem extend (reached : m.Reachable guard source) (run : m.Run guard source labels target) :
    m.Reachable guard target := by
  obtain ⟨origin, earlier, initial, prior⟩ := reached
  exact ⟨origin, earlier ++ labels, initial, prior.append run⟩

theorem step {label : ℓ} (reached : m.Reachable guard source) (step : m.next source label = some target)
    (permitted : guard source label) : m.Reachable guard target :=
  reached.extend (.snoc .nil permitted step)

/-- The induction rule for reachable states. -/
theorem invariant {inv : σ → Prop} (reached : m.Reachable guard target)
    (initial : ∀ state, m.Start state → inv state)
    (preserved : ∀ state label after, inv state → guard state label →
      m.next state label = some after → inv after) : inv target := by
  obtain ⟨origin, _, start, run⟩ := reached
  exact run.invariant (initial origin start) preserved

end Reachable

/-- Execute a list of labels while the guard permits them. -/
def replay (m : Machine σ ℓ) (guard : σ → ℓ → Prop) [∀ state label, Decidable (guard state label)]
    (source : σ) : List ℓ → Option σ
  | [] => some source
  | label :: rest =>
      if guard source label then
        (m.next source label).bind fun state => m.replay guard state rest
      else none

/-- An execution that succeeds is a run: the machine is deterministic, so its labels name it. -/
theorem run_of_replay (m : Machine σ ℓ) [∀ state label, Decidable (guard state label)]
    (executed : m.replay guard source labels = some target) : m.Run guard source labels target := by
  induction labels generalizing source with
  | nil =>
    cases executed
    exact .nil
  | cons label rest ih =>
    simp only [replay] at executed
    split at executed
    · next permitted =>
      obtain ⟨state, step, suffix⟩ := Option.bind_eq_some_iff.mp executed
      exact (Run.snoc .nil permitted step).append (ih suffix)
    · contradiction

theorem reachable_of_replay (source : σ) (labels : List ℓ)
    [∀ state label, Decidable (guard state label)] (initial : m.Start source) (executed : m.replay guard source labels = some target) :
    m.Reachable guard target := ⟨source, labels, initial, m.run_of_replay executed⟩

/-- The end of an execution, for a check of it that evaluates. -/
theorem reachable_of_check (m : Machine σ ℓ) (guard : σ → ℓ → Prop)
    [∀ state label, Decidable (guard state label)] (source : σ) (labels : List ℓ) (check : σ → Bool)
    (initial : m.Start source)
    (executed : (m.replay guard source labels).any check) :
    ∃ target, m.Reachable guard target ∧ check target := by
  rw [Option.any_eq_true] at executed
  obtain ⟨target, replayed, checked⟩ := executed
  exact ⟨target, m.reachable_of_replay source labels initial replayed, checked⟩

end Machine
