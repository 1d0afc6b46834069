import Headlines.Build.Policies
import Headlines.Soundness.WireScanning
import Headlines.ToMathlib.Forall2

/-! # The rows of the table

The build script knows the names of the classes, refuses groups, and decodes the last occurrence of the extension in
the last options of a method instead of merging them.
-/

namespace Headlines.Soundness.AuthTable

open Build Protobuf WireScanning
open Core (bytes)

/-- The row of a method says what its extension says. -/
def RowOf (method : Method) (entry : AuthEntry) : Prop :=
  entry.fullMethod = method.full ∧
    ∃ requirement, method.requirement = some requirement ∧ Names requirement ⟨entry.allowed, entry.scopes⟩

section Collecting

variable {α σ : Type} {write : α → Field} {numbers : List ℕ} {visit : σ → UInt32 → List UInt8 → Except String σ}

variable {step : σ → α → σ}

end Collecting

/-! ## The messages of the descriptor set -/

section Descriptors

variable {α β : Type}

/-- The rows that are added are those of the methods if these are fit; otherwise there is an error, or other rows. -/
def Adds (methods : List Method) (fit : Prop) (read : List AuthEntry → Except Problem (List AuthEntry)) : Prop :=
  ∀ entries, (¬ fit ∧ Refused (read entries)) ∨
    ∃ added, read entries = .ok (entries ++ added) ∧ added.length = methods.length ∧ (List.Forall₂ RowOf methods added ↔ fit)

/-- Rows are added one part after the other. -/
theorem Adds.foldlM {α : Type} {methods : α → List Method} {fit : α → Prop}
    {read : α → List AuthEntry → Except Problem (List AuthEntry)} {parts : List α}
    (each : ∀ part ∈ parts, Adds (methods part) (fit part) (read part)) :
    Adds (parts.flatMap methods) (∀ part ∈ parts, fit part) fun entries =>
      parts.foldlM (fun entries part => read part entries) entries := by
  intro entries
  induction parts generalizing entries with
  | nil => exact .inr ⟨[], by rw [List.append_nil]; rfl, rfl, fun _ _ member => absurd member List.not_mem_nil, fun _ => .nil⟩
  | cons first later ih =>
    beta_reduce at ih ⊢
    rw [List.forall_mem_cons, List.foldlM_cons]
    rcases each first List.mem_cons_self entries with ⟨unfit, refused⟩ | ⟨added, read, count, rows⟩
    · exact .inl ⟨fun fit => unfit fit.1, refused.bind _⟩
    · rw [read]
      rcases ih (fun part member => each part (List.mem_cons_of_mem _ member)) (entries ++ added) with
        ⟨unfit, refused⟩ | ⟨more, read, counts, others⟩
      · exact .inl ⟨fun fit => unfit fit.2, refused⟩
      · refine .inr ⟨added ++ more, ?_, ?_, ?_⟩
        · rw [← List.append_assoc]
          exact read
        · rw [List.flatMap_cons, List.length_append, List.length_append, count, counts]
        · rw [List.flatMap_cons, ← rows, ← others]
          exact List.Forall₂.append_iff count.symm

end Descriptors

end Headlines.Soundness.AuthTable
