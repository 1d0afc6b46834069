import Mathlib

/-! # Lists related element by element -/

namespace List.Forall₂

variable {α β γ : Type*} {R : α → β → Prop} {T : β → γ → Prop} {xs : List α} {ys : List β} {zs : List γ}

/-- Every element on the right is related to one on the left. -/
theorem exists_left (related : Forall₂ R xs ys) {y : β} (member : y ∈ ys) : ∃ x ∈ xs, R x y := by
  induction related with
  | nil => contradiction
  | cons head tail ih =>
    rcases mem_cons.mp member with rfl | later
    · exact ⟨_, mem_cons_self, head⟩
    · obtain ⟨x, found, holds⟩ := ih later
      exact ⟨x, mem_cons_of_mem _ found, holds⟩

/-- Relations compose element by element. -/
theorem comp (first : Forall₂ R xs ys) (second : Forall₂ T ys zs) : Forall₂ (fun x z => ∃ y, R x y ∧ T y z) xs zs := by
  induction first generalizing zs with
  | nil =>
    cases second
    exact .nil
  | cons head tail ih =>
    cases second with
    | cons next rest => exact .cons ⟨_, head, next⟩ (ih rest)

/-- Lists are related part by part if the first parts are as long as each other. -/
theorem append_iff {xs' : List α} {ys' : List β} (lengths : xs.length = ys.length) :
    Forall₂ R (xs ++ xs') (ys ++ ys') ↔ Forall₂ R xs ys ∧ Forall₂ R xs' ys' := by
  constructor
  · intro whole
    have taken := forall₂_take xs.length whole
    have dropped := forall₂_drop xs.length whole
    rw [take_left, lengths, take_left] at taken
    rw [drop_left, lengths, drop_left] at dropped
    exact ⟨taken, dropped⟩
  · rintro ⟨first, second⟩
    exact rel_append first second

end List.Forall₂
