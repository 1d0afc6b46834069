import Mathlib

/-! # Updates by a mask

A record is what stands at each path. An update names the paths it means to change, and gives a value for each path it
has a valid one for. It is refused if it names no path, or a path without a value.
-/

namespace Patching

variable {Path Value : Type*} [DecidableEq Path]

/-- The record after an update: the values at the paths of the mask, and what there was elsewhere. -/
def patch (given : Path → Option Value) (mask : List Path) (before : Path → Value) : Option (Path → Value) :=
  if !mask.isEmpty && mask.all fun path => (given path).isSome then
    some fun path => if path ∈ mask then (given path).getD (before path) else before path
  else none

/-- What the mask names takes its value, and the rest stays. -/
def Follows (given : Path → Option Value) (mask : List Path) (before after : Path → Value) : Prop :=
  ∀ path, if path ∈ mask then given path = some (after path) else after path = before path

/-- The record after one path. -/
def put (given : Path → Option Value) (record : Path → Value) (path : Path) : Option (Path → Value) :=
  (given path).map (Function.update record path)

variable {given : Path → Option Value} {mask other : List Path} {before after : Path → Value} {path : Path}

omit [DecidableEq Path] in
private theorem accepts_iff : (!mask.isEmpty && mask.all fun path => (given path).isSome) = true ↔
    mask ≠ [] ∧ ∀ path ∈ mask, ∃ value, given path = some value := by
  simp [Option.isSome_iff_exists]

theorem patch_isSome_iff : (patch given mask before).isSome ↔
    mask ≠ [] ∧ ∀ path ∈ mask, ∃ value, given path = some value := by
  rw [← accepts_iff, patch]
  split
  · next accepted => exact iff_of_true rfl accepted
  · next refused => exact iff_of_false Bool.false_ne_true refused

theorem patch_eq_some_iff : patch given mask before = some after ↔ mask ≠ [] ∧ Follows given mask before after := by
  unfold patch Follows
  split
  · next accepted =>
    obtain ⟨named, valid⟩ := accepts_iff.mp accepted
    rw [Option.some.injEq, funext_iff, and_iff_right named]
    refine forall_congr' fun path => ?_
    split
    · next member =>
      obtain ⟨value, found⟩ := valid path member
      rw [found, Option.getD_some, Option.some.injEq]
    · exact eq_comm
  · next refused =>
    refine iff_of_false (by rintro ⟨⟩) ?_
    rintro ⟨named, follows⟩
    refine refused (accepts_iff.mpr ⟨named, fun path member => ⟨after path, ?_⟩⟩)
    have valid := follows path
    rwa [if_pos member] at valid

/-- Only which paths a mask names counts. -/
theorem Follows.mask_congr (follows : Follows given mask before after) (same : ∀ path, path ∈ mask ↔ path ∈ other) :
    Follows given other before after := by
  intro path
  simpa only [same path] using follows path

/-- What is given elsewhere does not count. -/
theorem Follows.congr {named : Path → Option Value} (follows : Follows given mask before after)
    (same : ∀ path ∈ mask, given path = named path) : Follows named mask before after := by
  intro path
  have held := follows path
  split at held
  · next member => rwa [if_pos member, ← same path member]
  · next missing => rwa [if_neg missing]

theorem Follows.nil : Follows given [] before after ↔ before = after := by
  simp only [Follows, List.not_mem_nil, if_false, funext_iff, eq_comm]

/-- A mask path by path: a repetition puts the same value once more. -/
theorem Follows.cons : Follows given (path :: mask) before after ↔
    ∃ value, given path = some value ∧ Follows given mask (Function.update before path value) after := by
  constructor
  · intro follows
    have first := follows path
    rw [if_pos List.mem_cons_self] at first
    refine ⟨after path, first, fun other => ?_⟩
    have named := follows other
    by_cases member : other ∈ mask
    · rw [if_pos (List.mem_cons_of_mem _ member)] at named
      rwa [if_pos member]
    · rw [if_neg member]
      by_cases same : other = path
      · rw [same, Function.update_self]
      · rwa [if_neg (by simp [same, member]), ← Function.update_of_ne same (after path) before] at named
  · rintro ⟨value, valid, follows⟩ other
    have named := follows other
    by_cases member : other ∈ mask
    · rw [if_pos member] at named
      rwa [if_pos (List.mem_cons_of_mem _ member)]
    · rw [if_neg member] at named
      by_cases same : other = path
      · rw [same, Function.update_self] at named
        rw [if_pos (by simp [same]), same, named, valid]
      · rw [Function.update_of_ne same] at named
        rwa [if_neg (by simp [same, member])]

theorem Follows.append {middle : Path → Value} (first : Follows given mask before middle) (second : Follows given other middle after) :
    Follows given (mask ++ other) before after := by
  induction mask generalizing before with
  | nil => rwa [Follows.nil.mp first]
  | cons path rest ih =>
    obtain ⟨value, valid, follows⟩ := Follows.cons.mp first
    exact Follows.cons.mpr ⟨value, valid, ih follows⟩

theorem foldlM_put : mask.foldlM (put given) before = some after ↔ Follows given mask before after := by
  induction mask generalizing before with
  | nil => rw [Follows.nil, List.foldlM_nil, Option.pure_def, Option.some.injEq]
  | cons path rest ih =>
    rw [List.foldlM_cons, Follows.cons, put]
    cases valid : given path with
    | none => simp
    | some value =>
      simp only [Option.map_some, Option.bind_eq_bind, Option.bind_some, ih, Option.some.injEq, exists_eq_left']

/-- A loop over a mask that makes the same record path by path. -/
theorem foldlM_view {σ ε : Type*} {step : σ → Path → Except ε σ} (view : σ → Path → Value)
    (puts : ∀ state path, (step state path).toOption.map view = put given (view state) path) (state : σ) :
    (mask.foldlM step state).toOption.map view = mask.foldlM (put given) (view state) := by
  induction mask generalizing state with
  | nil => rfl
  | cons path rest ih =>
    rw [List.foldlM_cons, List.foldlM_cons, ← puts]
    cases step state path with
    | error error => rfl
    | ok next => exact ih next

end Patching
