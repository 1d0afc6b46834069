import Headlines.Auth.Authorize
import Headlines.Core.Utf8

/-! # Scopes that cover scopes

A granted scope covers the blanket's targets, its own name or what lies under its stem. That relation is
transitive, so a system loses nothing when it gets more scopes, or a wider one in place of a scope it has.
-/

namespace Headlines.Soundness.ScopeAuthorization

open Headlines.Core Auth

/-- `scope_matches` with an index that fails past the end; a false operand of `&&` ends the evaluation. -/
def scopeMatchesIndexing (granted target : String) : Option Bool :=
  if granted = "*" then some true
  else if granted = target then some true
  else
    match (bytes ".*").isSuffixOf? (bytes granted) with
    | some stem =>
        if stem.length < (bytes target).length then
          if stem.isPrefixOf (bytes target) then (bytes target)[stem.length]?.map (· == 46)
          else some false
        else some false
    | none => some false

theorem scopeMatchesIndexing_eq (granted target : String) :
    scopeMatchesIndexing granted target = some (scopeMatches granted target) := by
  unfold scopeMatchesIndexing scopeMatches
  split_ifs
  · rfl
  · rfl
  · cases (bytes ".*").isSuffixOf? (bytes granted) with
    | none => rfl
    | some stem =>
      by_cases inBounds : stem.length < (bytes target).length
      · cases covered : stem.isPrefixOf (bytes target) <;> simp [inBounds, covered]
      · simp [inBounds]

/-- The target lies under the stem of the granted scope. -/
def Under (granted target : String) : Prop :=
  ∃ stem rest, granted = stem ++ ".*" ∧ target = stem ++ "." ++ rest

/-- What is left of a granted scope without `.*` is the bytes of its stem. -/
theorem stem_of_suffix {granted : String} {front : List UInt8}
    (suffix : (bytes ".*").isSuffixOf? (bytes granted) = some front) :
    ∃ stem, granted = stem ++ ".*" ∧ bytes stem = front := by
  have whole : bytes granted = front ++ [46] ++ [42] := by
    rw [← List.isSuffixOf?_eq_some_iff_append_eq.mp suffix, List.append_assoc]
    rfl
  have star : String.utf8EncodeChar '*' = [42] := by decide
  have dot : String.utf8EncodeChar '.' = [46] := by decide
  obtain ⟨dotted, rfl, before⟩ := bytes_concat (by decide) star whole
  obtain ⟨stem, rfl, front⟩ := bytes_concat (by decide) dot before
  exact ⟨stem, String.append_assoc, front⟩

theorem scopeMatches_iff {granted target : String} :
    scopeMatches granted target ↔ granted = "*" ∨ granted = target ∨ Under granted target := by
  unfold scopeMatches
  split_ifs with blanket same
  · simp [blanket]
  · simp [same]
  · rw [or_iff_right blanket, or_iff_right same]
    constructor
    · intro covers
      split at covers
      · next front suffix =>
        obtain ⟨stem, rfl, rfl⟩ := stem_of_suffix suffix
        dsimp only at covers
        split at covers
        · next inBounds =>
          obtain ⟨starts, dot⟩ := Bool.and_eq_true_iff.mp covers
          obtain ⟨rest, whole⟩ := List.isPrefixOf_iff_prefix.mp starts
          cases rest with
          | nil => simp [← whole] at inBounds
          | cons byte rest =>
            simp only [← whole, List.getElem_append_right (le_refl _), Nat.sub_self, List.getElem_cons_zero, beq_iff_eq] at dot
            subst dot
            have dotted : bytes target = bytes (stem ++ ".") ++ rest := by
              rw [← whole, bytes_append, List.append_assoc]
              rfl
            obtain ⟨tail, under, _⟩ := bytes_isPrefix dotted
            exact ⟨stem, tail, rfl, under⟩
        · contradiction
      · contradiction
    · rintro ⟨stem, rest, rfl, rfl⟩
      have suffix : (bytes ".*").isSuffixOf? (bytes (stem ++ ".*")) = some (bytes stem) :=
        List.isSuffixOf?_eq_some_iff_append_eq.mpr (bytes_append _ _).symm
      have whole : bytes (stem ++ "." ++ rest) = bytes stem ++ 46 :: bytes rest := by
        rw [bytes_append, bytes_append, List.append_assoc]
        rfl
      simp [suffix, whole]

theorem not_under_blanket {granted : String} : ¬ Under granted "*" := by
  rintro ⟨stem, rest, -, same⟩
  have member : '.' ∈ "*".toList := by
    rw [same]
    simp
  contradiction

/-- A dotted stem is no stem with a star under it, so the stem of the first scope begins that of the second. -/
theorem Under.trans {granted middle target : String} (first : Under granted middle) (second : Under middle target) :
    Under granted target := by
  obtain ⟨stem, rest, rfl, rfl⟩ := first
  obtain ⟨inner, tail, same, rfl⟩ := second
  have split : (stem ++ ".").toList ++ rest.toList = (inner ++ ".").toList ++ ['*'] := by
    have chars := congrArg String.toList same
    simpa using chars
  have longer : ∃ between, (inner ++ ".").toList = (stem ++ ".").toList ++ between := by
    obtain ⟨between, longer, -⟩ | ⟨beyond, shorter, star⟩ := List.append_eq_append_iff.mp split
    · exact ⟨between, longer⟩
    · cases beyond with
      | nil => exact ⟨[], by simpa using shorter.symm⟩
      | cons c others =>
        obtain ⟨rfl, empty⟩ := List.cons_eq_cons.mp star
        obtain ⟨rfl, -⟩ := List.append_eq_nil_iff.mp empty.symm
        have last := congrArg List.getLast? shorter
        simp at last
  obtain ⟨between, longer⟩ := longer
  refine ⟨stem, String.ofList between ++ tail, rfl, ?_⟩
  rw [← String.toList_inj, String.toList_append, longer]
  simp

theorem scopeMatches_trans {granted middle target : String} (first : scopeMatches granted middle)
    (second : scopeMatches middle target) : scopeMatches granted target := by
  rw [scopeMatches_iff] at first second ⊢
  rcases first with blanket | rfl | under
  · exact .inl blanket
  · exact second
  · rcases second with rfl | rfl | further
    · exact absurd under not_under_blanket
    · exact .inr (.inr under)
    · exact .inr (.inr (under.trans further))

/-- Every scope of the one list is covered by a scope of the other. -/
def Widens (wider scopes : List String) : Prop := ∀ granted ∈ scopes, ∃ wide ∈ wider, scopeMatches wide granted

theorem widens_of_subset {scopes wider : List String} (more : scopes ⊆ wider) : Widens wider scopes :=
  fun granted member => ⟨granted, more member, scopeMatches_iff.mpr (.inr (.inl rfl))⟩

theorem widens_replaced {before after : List String} {granted wide : String} (covers : scopeMatches wide granted) :
    Widens (before ++ wide :: after) (before ++ granted :: after) := by
  intro other member
  rcases List.mem_append.mp member with earlier | later
  · exact ⟨other, List.mem_append_left _ earlier, scopeMatches_iff.mpr (.inr (.inl rfl))⟩
  · rcases List.mem_cons.mp later with rfl | later
    · exact ⟨wide, List.mem_append_right _ List.mem_cons_self, covers⟩
    · exact ⟨other, List.mem_append_right _ (List.mem_cons_of_mem _ later), scopeMatches_iff.mpr (.inr (.inl rfl))⟩

/-- The blanket is covered by itself alone, so the empty scope stays granted too. -/
theorem hasScope_widens {systemId keyId : Uuid} {scopes wider : List String} (widens : Widens wider scopes)
    {scope : String} (granted : (Subject.system systemId keyId scopes).hasScope scope) :
    (Subject.system systemId keyId wider).hasScope scope := by
  simp only [Subject.hasScope] at granted ⊢
  split_ifs at granted ⊢
  · obtain ⟨blanket, member, star⟩ := List.any_eq_true.mp granted
    obtain rfl := eq_of_beq star
    obtain ⟨wide, held, covers⟩ := widens _ member
    refine List.any_eq_true.mpr ⟨wide, held, ?_⟩
    rcases scopeMatches_iff.mp covers with rfl | rfl | under
    · rfl
    · rfl
    · exact absurd under not_under_blanket
  · obtain ⟨given, member, matched⟩ := List.any_eq_true.mp granted
    obtain ⟨wide, held, covers⟩ := widens given member
    exact List.any_eq_true.mpr ⟨wide, held, scopeMatches_trans covers matched⟩

theorem isAllowed_widens {systemId keyId : Uuid} {scopes wider : List String} (widens : Widens wider scopes)
    {spec : AuthSpec} (allowed : isAllowed (.system systemId keyId scopes) spec) :
    isAllowed (.system systemId keyId wider) spec := by
  unfold isAllowed at allowed ⊢
  split at allowed
  · next listed =>
    rw [if_pos (show spec.allowed.any (·.admits (subjectClass (.system systemId keyId wider))) from listed)]
    split_ifs at allowed ⊢
    · rfl
    · obtain ⟨scope, member, granted⟩ := List.any_eq_true.mp allowed
      exact List.any_eq_true.mpr ⟨scope, member, hasScope_widens widens granted⟩
  · contradiction

/-- The layer lets a system pass that is granted more. -/
theorem authorize_widens {table : String → Option AuthSpec} {systemId keyId : Uuid} {scopes wider : List String}
    (widens : Widens wider scopes) {path : String}
    (passes : authorize table (some (.system systemId keyId scopes)) path = .ok ()) :
    authorize table (some (.system systemId keyId wider)) path = .ok () := by
  unfold authorize at passes ⊢
  split at passes
  · contradiction
  · split at passes
    · next allowed => exact if_pos (isAllowed_widens widens allowed)
    · contradiction

/-- What scope matching is, on all strings, and that a system never loses a call by being granted more. -/
theorem scope_authorization :
    (∀ granted target, scopeMatchesIndexing granted target = some (scopeMatches granted target)) ∧
    (∀ granted target, scopeMatches granted target ↔ granted = "*" ∨ granted = target ∨ Under granted target) ∧
    (∀ scope, scope ≠ "" → scopeMatches scope scope) ∧
    (∀ granted middle target, granted ≠ "" → middle ≠ "" → target ≠ "" →
      scopeMatches granted middle → scopeMatches middle target → scopeMatches granted target) ∧
    (∀ systemId keyId scopes wider, scopes ⊆ wider →
      (∀ scope, (Subject.system systemId keyId scopes).hasScope scope →
        (Subject.system systemId keyId wider).hasScope scope) ∧
      ∀ spec, isAllowed (.system systemId keyId scopes) spec → isAllowed (.system systemId keyId wider) spec) ∧
    ∀ systemId keyId before granted wide after, scopeMatches wide granted →
      (∀ scope, (Subject.system systemId keyId (before ++ granted :: after)).hasScope scope →
        (Subject.system systemId keyId (before ++ wide :: after)).hasScope scope) ∧
      ∀ spec, isAllowed (.system systemId keyId (before ++ granted :: after)) spec →
        isAllowed (.system systemId keyId (before ++ wide :: after)) spec := by
  refine ⟨scopeMatchesIndexing_eq, fun _ _ => scopeMatches_iff, ?_, ?_, ?_, ?_⟩
  · exact fun scope _ => scopeMatches_iff.mpr (.inr (.inl rfl))
  · exact fun _ _ _ _ _ _ first second => scopeMatches_trans first second
  · intro systemId keyId scopes wider more
    have widens := widens_of_subset more
    exact ⟨fun _ => hasScope_widens widens, fun _ => isAllowed_widens widens⟩
  · intro systemId keyId before granted wide after covers
    have widens : Widens (before ++ wide :: after) (before ++ granted :: after) := widens_replaced covers
    exact ⟨fun _ => hasScope_widens widens, fun _ => isAllowed_widens widens⟩

end Headlines.Soundness.ScopeAuthorization
