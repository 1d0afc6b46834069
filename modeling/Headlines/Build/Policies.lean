import Headlines.Build.Descriptors
import Headlines.ToMathlib.Forall2

/-! # Decoding an occurrence of the extension

The build script knows the names of the classes and refuses groups. Otherwise it decodes the names and the scopes.
-/

namespace Headlines.Build

open Protobuf
open Core (bytes)

/-- The row holds the names of the classes and the scopes. -/
structure Names (requirement : AuthRequirement) (row : AuthRequirementBytes) : Prop where
  allowed : List.Forall₂ (fun value name => subjectClassName value = .ok name) requirement.allowedSubjects row.allowed
  scopes : row.scopes = requirement.requiredScopes

/-- The number is that of a class. -/
def Known (value : Int32) : Prop := ∃ name, subjectClassName value = .ok name

/-- The build script can decode the extension. -/
def Readable (occurrence : Occurrence) : Prop :=
  occurrence.Plain ∧ ∀ value ∈ occurrence.requirement.allowedSubjects, Known value

/-! ## Decoding one message -/

section Messages

/-- The call fails for something it reports. -/
def Refused {α : Type} (read : Except Problem α) : Prop := ∃ problem, read = .error problem ∧ problem.Reported

/-- An error in the first of two calls. -/
theorem Refused.bind {α β : Type} {read : Except Problem α} (refused : Refused read) (next : α → Except Problem β) :
    Refused (read >>= next) := by
  obtain ⟨problem, rfl, seen⟩ := refused
  exact ⟨problem, rfl, seen⟩

/-- The message with some of the fields. -/
def requirementOf (pieces : List (Piece RequirementField)) : AuthRequirement :=
  .merged ((pieces.filterMap Piece.known?).map RequirementField.requirement)

def ReadablePieces (pieces : List (Piece RequirementField)) : Prop :=
  (pieces.map (Piece.field RequirementField.write)).all Field.plain ∧ ∀ value ∈ (requirementOf pieces).allowedSubjects, Known value

/-- The fields are decoded as far as they go, or something in them is refused. -/
def Reads (pieces : List (Piece RequirementField)) (out : AuthRequirementBytes) (read : Except Problem AuthRequirementBytes) : Prop :=
  (ReadablePieces pieces ∧ ∃ names, List.Forall₂ (fun value name => subjectClassName value = .ok name)
    (requirementOf pieces).allowedSubjects names ∧
    read = .ok ⟨out.allowed ++ names, out.scopes ++ (requirementOf pieces).requiredScopes⟩) ∨
  (¬ ReadablePieces pieces ∧ Refused read)

variable {later : List (Piece RequirementField)} {first : RequirementField}
  {out : AuthRequirementBytes} {read : Except Problem AuthRequirementBytes}

theorem readablePieces_known : ReadablePieces (.known first :: later) ↔
    first.write.plain = true ∧ (∀ value ∈ first.requirement.allowedSubjects, Known value) ∧ ReadablePieces later := by
  have pieces : (requirementOf (.known first :: later)).allowedSubjects =
      first.requirement.allowedSubjects ++ (requirementOf later).allowedSubjects := rfl
  rw [ReadablePieces, ReadablePieces, pieces, List.map_cons, List.all_cons, Bool.and_eq_true, List.forall_mem_append]
  constructor
  · rintro ⟨⟨one, all⟩, named, others⟩
    exact ⟨one, named, all, others⟩
  · rintro ⟨one, named, all, others⟩
    exact ⟨⟨one, all⟩, named, others⟩

/-- A known field of which the names and scopes are kept. -/
theorem Reads.known {names : List String} (plain : first.write.plain = true)
    (named : List.Forall₂ (fun value name => subjectClassName value = .ok name) first.requirement.allowedSubjects names)
    (reads : Reads later ⟨out.allowed ++ names, out.scopes ++ first.requirement.requiredScopes⟩ read) :
    Reads (.known first :: later) out read := by
  rcases reads with ⟨readable, more, all, same⟩ | ⟨unreadable, refused⟩
  · refine .inl ⟨readablePieces_known.mpr ⟨plain, ?_, readable⟩, names ++ more, List.rel_append named all, ?_⟩
    · intro value member
      obtain ⟨name, _, same⟩ := named.flip.exists_left member
      exact ⟨name, same⟩
    · rw [same, List.append_assoc, List.append_assoc]
      rfl
  · exact .inr ⟨fun readable => unreadable (readablePieces_known.mp readable).2.2, refused⟩

/-- A field with a class that is not known. -/
theorem Reads.unknown (unknown : ∃ value ∈ first.requirement.allowedSubjects, ¬ Known value) :
    Reads (.known first :: later) out (.error .refused) := by
  obtain ⟨value, member, unknown⟩ := unknown
  exact .inr ⟨fun readable => unknown ((readablePieces_known.mp readable).2.1 value member), .refused, rfl, trivial⟩

end Messages

end Headlines.Build
