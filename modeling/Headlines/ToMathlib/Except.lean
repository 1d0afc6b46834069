import Mathlib

/-! # `Except` -/

namespace Except

universe u v

variable {ε : Type u} {α β : Type v}

/-- A sequence succeeds when both of its parts do. -/
theorem bind_eq_ok {first : Except ε α} {next : α → Except ε β} {result : β} :
    (first >>= next) = .ok result ↔ ∃ value, first = .ok value ∧ next value = .ok result := by
  cases first with
  | ok value => simp [bind, Except.bind]
  | error error => simp [bind, Except.bind]

/-- Renaming the error keeps a success. -/
theorem mapError_eq_ok {δ : Type u} {program : Except ε α} {rename : ε → δ} {result : α} :
    program.mapError rename = .ok result ↔ program = .ok result := by
  cases program <;> simp [Except.mapError]

/-- Every element of a list is mapped, in their order. -/
theorem mapM_eq_ok {f : α → Except ε β} {xs : List α} {ys : List β} :
    xs.mapM f = .ok ys ↔ List.Forall₂ (fun x y => f x = .ok y) xs ys := by
  induction xs generalizing ys with
  | nil => simp [pure, Except.pure, eq_comm]
  | cons x xs ih =>
    simp only [List.mapM_cons, bind_eq_ok, ih, List.forall₂_cons_left_iff, pure, Except.pure, ok.injEq]
    constructor
    · rintro ⟨y, first, rest, others, rfl⟩
      exact ⟨y, rest, first, others, rfl⟩
    · rintro ⟨y, rest, first, others, rfl⟩
      exact ⟨y, first, rest, others, rfl⟩

end Except
