import Mathlib
import Headlines.Auth.KeyResolver

/-! # Exactly one active key

The resolver asks each table for its first active row only, and never reads the status of a system. So
it finds collisions between tables but not within one, and keys of disabled systems resolve.
-/

namespace Headlines.Soundness.KeyResolution

open Core Store Auth

variable {decode : String → Except String (List UInt8)} {keyId : Uuid} {arm : Arm} {list : List Arm}

/-- A row with the subject its table gives it. -/
abbrev Candidate := KeyRow × Subject

namespace Candidate

def Decodes (decode : String → Except String (List UInt8)) (candidate : Candidate) (key : ResolvedKey) :
    Prop :=
  ∃ publicKey, decode candidate.1.publicKey = .ok publicKey ∧
    key = ⟨candidate.1.algo, publicKey, candidate.2⟩

end Candidate

/-- The rows of one table under the key id, in the given states. -/
def rowsOf (keyId : Uuid) (select : KeyStatus → Bool) (arm : Arm) : List Candidate :=
  (arm.rows.filter fun row => row.keyId = keyId ∧ select row.status).map fun row => (row, arm.subject row)

/-- The rows of all tables under the key id. -/
def matching (tables : KeyTables) (keyId : Uuid) : List Candidate :=
  (arms tables).flatMap (rowsOf keyId fun _ => true)

def activeRows (list : List Arm) (keyId : Uuid) : List Candidate :=
  list.flatMap (rowsOf keyId (· = .active))

/-- The first active row of each table that has one. -/
def firsts (list : List Arm) (keyId : Uuid) : List Candidate :=
  list.filterMap fun arm => (rowsOf keyId (· = .active) arm).head?

/-- A system may authenticate only while it is active. -/
def Enabled (tables : KeyTables) : Subject → Prop
  | .system id _ _ => ∃ system ∈ tables.systems, system.id = id ∧ system.status = .active
  | _ => True

/-- The exactly-one-active rule over the rows of all tables. -/
structure ExactlyOne (decode : String → Except String (List UInt8)) (tables : KeyTables) (keyId : Uuid)
    (outcome : Except ResolveError ResolvedKey) : Prop where
  ok : ∀ key, outcome = .ok key ↔ ∃ candidate : Candidate, activeRows (arms tables) keyId = [candidate] ∧
    candidate.Decodes decode key ∧ Enabled tables candidate.2
  collision : 2 ≤ (activeRows (arms tables) keyId).length → ∃ text, outcome = .error (.internal text)
  revoked : activeRows (arms tables) keyId = [] → matching tables keyId ≠ [] → outcome = .error .revoked
  notFound : matching tables keyId = [] → outcome = .error .notFound

private theorem head?_rowsOf (arm : Arm) : (rowsOf keyId (· = .active) arm).head? =
    (arm.firstActive keyId).map fun row => (row, arm.subject row) := by
  simp only [rowsOf, List.head?_map, List.head?_filter, Arm.firstActive, decide_eq_true_eq]

private theorem firsts_cons (arm : Arm) (rest : List Arm) : firsts (arm :: rest) keyId =
    (rowsOf keyId (· = .active) arm).head?.toList ++ firsts rest keyId := by
  rw [firsts, List.filterMap_cons]
  cases (rowsOf keyId (· = .active) arm).head? with
  | none => rfl
  | some candidate => rfl

/-- One table contributes a match for its first active row, or its name if it has the key in another
state; or that row does not decode. -/
private theorem probe_spec (decode : String → Except String (List UInt8)) (keyId : Uuid) (arm : Arm) :
    (∃ active nonactive, arm.probe decode keyId = .ok (active, nonactive) ∧
      List.Forall₂ (fun found candidate => candidate.Decodes decode found.resolved) active
        (rowsOf keyId (· = .active) arm).head?.toList ∧
      ((rowsOf keyId (· = .active) arm).head? = none →
        (nonactive = [] ↔ rowsOf keyId (fun _ => true) arm = []))) ∨
    ∃ text, arm.probe decode keyId = .error (.internal text) ∧
      ∃ candidate ∈ (rowsOf keyId (· = .active) arm).head?, ∀ key, ¬ candidate.Decodes decode key := by
  rw [head?_rowsOf]
  cases first : arm.firstActive keyId with
  | none =>
    refine .inl ⟨[], if (arm.firstStatus keyId).isSome then [arm.table] else [], ?_, .nil, fun _ => ?_⟩
    · rw [Arm.probe, first]
    · cases status : arm.firstStatus keyId with
      | none =>
        have absent : ∀ row ∈ arm.rows, row.keyId ≠ keyId := by
          simpa [Arm.firstStatus] using status
        simpa [rowsOf] using absent
      | some found =>
        have present : ∃ row ∈ arm.rows, row.keyId = keyId := by
          rw [Arm.firstStatus, Option.map_eq_some_iff] at status
          obtain ⟨row, here, _⟩ := status
          exact ⟨row, List.mem_of_find?_eq_some here, by simpa using List.find?_some here⟩
        simpa [rowsOf] using present
  | some row =>
    cases decoded : decode row.publicKey with
    | ok publicKey =>
      refine .inl ⟨[⟨arm.table, ⟨row.algo, publicKey, arm.subject row⟩⟩], [], ?_, ?_, nofun⟩
      · rw [Arm.probe, first]
        dsimp only
        rw [decoded]
      · exact .cons ⟨publicKey, decoded, rfl⟩ .nil
    | error text =>
      refine .inr ⟨"base64 decode: " ++ text, ?_, (row, arm.subject row), rfl, ?_⟩
      · rw [Arm.probe, first]
        dsimp only
        rw [decoded]
      · rintro key ⟨publicKey, other, _⟩
        rw [decoded] at other
        contradiction

private theorem gather_spec (decode : String → Except String (List UInt8)) (keyId : Uuid)
    (list : List Arm) :
    (∃ active nonactive, gather decode keyId list = .ok (active, nonactive) ∧
      List.Forall₂ (fun found candidate => candidate.Decodes decode found.resolved) active
        (firsts list keyId) ∧
      (firsts list keyId = [] → (nonactive = [] ↔ list.flatMap (rowsOf keyId fun _ => true) = []))) ∨
    ∃ text, gather decode keyId list = .error (.internal text) ∧
      ∃ candidate ∈ firsts list keyId, ∀ key, ¬ candidate.Decodes decode key := by
  induction list with
  | nil => exact .inl ⟨[], [], rfl, .nil, by simp⟩
  | cons arm rest ih =>
    rw [firsts_cons]
    rcases probe_spec decode keyId arm with ⟨active, nonactive, probed, matched, absent⟩ |
      ⟨text, failed, candidate, found, bad⟩
    · rcases ih with ⟨later, others, gathered, matches_, missing⟩ | ⟨text, failed, candidate, found, bad⟩
      · refine .inl ⟨active ++ later, nonactive ++ others, ?_, List.rel_append matched matches_, fun none => ?_⟩
        · simp only [gather, probed, gathered]
          rfl
        · obtain ⟨here, there⟩ := List.append_eq_nil_iff.mp none
          rw [List.append_eq_nil_iff, List.flatMap_cons, List.append_eq_nil_iff,
            absent (by simpa using here), missing there]
      · refine .inr ⟨text, ?_, candidate, List.mem_append_right _ found, bad⟩
        simp only [gather, probed, failed]
        rfl
    · refine .inr ⟨text, ?_, candidate, List.mem_append_left _ (Option.mem_toList.mpr found), bad⟩
      simp only [gather, failed]
      rfl

/-- The first active rows are among the active rows, and one per table that has any. -/
private theorem firsts_sublist (list : List Arm) (keyId : Uuid) :
    (firsts list keyId).Sublist (activeRows list keyId) := by
  induction list with
  | nil => exact .slnil
  | cons arm rest ih =>
    rw [firsts_cons, activeRows, List.flatMap_cons]
    refine List.Sublist.append ?_ ih
    cases rowsOf keyId (· = .active) arm with
    | nil => exact .slnil
    | cons first others => exact List.singleton_sublist.mpr List.mem_cons_self

private theorem firsts_eq_nil : firsts list keyId = [] ↔ activeRows list keyId = [] := by
  induction list with
  | nil => simp [firsts, activeRows]
  | cons arm rest ih =>
    rw [firsts_cons, activeRows, List.flatMap_cons, List.append_eq_nil_iff, List.append_eq_nil_iff, ih,
      activeRows]
    cases rowsOf keyId (· = .active) arm <;> simp

/-- An active row on its own is the first of its table. -/
private theorem firsts_of_single {candidate : Candidate} (single : activeRows list keyId = [candidate]) :
    firsts list keyId = [candidate] := by
  have sublist := firsts_sublist list keyId
  rw [single] at sublist
  refine sublist.eq_of_length_le (Nat.one_le_iff_ne_zero.mpr fun empty => ?_)
  rw [List.length_eq_zero_iff, firsts_eq_nil, single] at empty
  contradiction

/-- What the resolver answers, by the first active rows. -/
private theorem resolve_cases (decode : String → Except String (List UInt8)) (tables : KeyTables)
    (keyId : Uuid) :
    (firsts (arms tables) keyId = [] ∧
      resolve decode tables keyId = if matching tables keyId = [] then .error .notFound else .error .revoked) ∨
    (∃ candidate key, firsts (arms tables) keyId = [candidate] ∧ candidate.Decodes decode key ∧
      resolve decode tables keyId = .ok key) ∨
    (∃ text, firsts (arms tables) keyId ≠ [] ∧ resolve decode tables keyId = .error (.internal text) ∧
      ∀ candidate key, firsts (arms tables) keyId = [candidate] → ¬ candidate.Decodes decode key) := by
  rcases gather_spec decode keyId (arms tables) with ⟨active, nonactive, gathered, matched, others⟩ |
    ⟨text, failed, candidate, found, bad⟩
  · have outcome : resolve decode tables keyId = exactlyOne keyId (active, nonactive) := by
      rw [resolve, gathered]
      rfl
    rw [outcome]
    generalize firsts (arms tables) keyId = list at matched others
    cases matched with
    | nil =>
      refine .inl ⟨rfl, ?_⟩
      have absent := others rfl
      cases nonactive with
      | nil => rw [if_pos (show matching tables keyId = [] from absent.mp rfl), exactlyOne]
      | cons table rest => rw [if_neg (show matching tables keyId ≠ [] from mt absent.mpr (by simp)), exactlyOne]
    | @cons found candidate more others decodes rest =>
      cases rest with
      | nil => exact .inr (.inl ⟨candidate, found.resolved, rfl, decodes, rfl⟩)
      | cons => exact .inr (.inr ⟨_, by simp, rfl, fun other key single => absurd single (by simp)⟩)
  · refine .inr (.inr ⟨text, List.ne_nil_of_mem found, by rw [resolve, failed]; rfl, fun other key single => ?_⟩)
    rw [single] at found
    obtain rfl := List.mem_singleton.mp found
    exact bad key

/-- Where only one table has an active row under the key id and the first of them decodes, it is the
only one, and not a key of a disabled system. -/
def Unambiguous (decode : String → Except String (List UInt8)) (tables : KeyTables) (keyId : Uuid) : Prop :=
  ∀ candidate key, firsts (arms tables) keyId = [candidate] → candidate.Decodes decode key →
    activeRows (arms tables) keyId = [candidate] ∧ Enabled tables candidate.2

private theorem Candidate.Decodes.unique {candidate : Candidate} {first second : ResolvedKey}
    (left : candidate.Decodes decode first) (right : candidate.Decodes decode second) : first = second := by
  obtain ⟨one, decoded, rfl⟩ := left
  obtain ⟨two, again, rfl⟩ := right
  obtain rfl := Except.ok.inj (decoded.symm.trans again)
  rfl

private theorem active_subset_matching {tables : KeyTables} (none : matching tables keyId = []) :
    activeRows (arms tables) keyId = [] := by
  rw [matching, List.flatMap_eq_nil_iff] at none
  rw [activeRows, List.flatMap_eq_nil_iff]
  intro arm member
  have absent := none arm member
  simp only [rowsOf, List.map_eq_nil_iff, List.filter_eq_nil_iff] at absent ⊢
  intro row here both
  exact absent row here (by simpa using (of_decide_eq_true both).1)

private theorem resolve_of_inactive {tables : KeyTables}
    (inactive : activeRows (arms tables) keyId = []) : resolve decode tables keyId =
      if matching tables keyId = [] then .error .notFound else .error .revoked := by
  have none := firsts_eq_nil.mpr inactive
  rcases resolve_cases decode tables keyId with ⟨_, outcome⟩ | ⟨_, _, single, _, _⟩ | ⟨_, some, _⟩
  · exact outcome
  · rw [none] at single
    contradiction
  · contradiction

/-- The resolver follows the exactly-one-active rule just where the tables are unambiguous. -/
theorem exactlyOne_iff (decode : String → Except String (List UInt8)) (tables : KeyTables) (keyId : Uuid) :
    ExactlyOne decode tables keyId (resolve decode tables keyId) ↔ Unambiguous decode tables keyId := by
  have cases := resolve_cases decode tables keyId
  constructor
  · intro rule candidate key first decodes
    rcases cases with ⟨none, _⟩ | ⟨other, found, single, decoded, outcome⟩ | ⟨_, _, _, bad⟩
    · rw [none] at first
      contradiction
    · obtain rfl := List.singleton_inj.mp (single.symm.trans first)
      obtain ⟨only, active, _, enabled⟩ := (rule.ok found).mp outcome
      obtain rfl := List.singleton_inj.mp ((firsts_of_single active).symm.trans first)
      exact ⟨active, enabled⟩
    · exact absurd decodes (bad candidate key first)
  · intro clear
    constructor
    · intro key
      rcases cases with ⟨none, outcome⟩ | ⟨candidate, found, single, decoded, outcome⟩ | ⟨text, _, outcome, bad⟩
      · constructor
        · intro ok
          rw [outcome] at ok
          split at ok <;> contradiction
        · rintro ⟨candidate, active, _⟩
          rw [firsts_eq_nil.mp none] at active
          contradiction
      · constructor
        · intro ok
          obtain rfl := Except.ok.inj (outcome.symm.trans ok)
          obtain ⟨active, enabled⟩ := clear candidate found single decoded
          exact ⟨candidate, active, decoded, enabled⟩
        · rintro ⟨other, active, decodes, _⟩
          obtain rfl := List.singleton_inj.mp (single.symm.trans (firsts_of_single active))
          rw [outcome, decoded.unique decodes]
      · constructor
        · intro ok
          rw [outcome] at ok
          contradiction
        · rintro ⟨candidate, active, decodes, _⟩
          exact absurd decodes (bad candidate key (firsts_of_single active))
    · intro several
      rcases cases with ⟨none, _⟩ | ⟨candidate, found, single, decoded, _⟩ | ⟨text, _, outcome, _⟩
      · rw [firsts_eq_nil.mp none] at several
        contradiction
      · rw [(clear candidate found single decoded).1] at several
        contradiction
      · exact ⟨text, outcome⟩
    · intro inactive here
      rw [resolve_of_inactive inactive, if_neg here]
    · intro absent
      rw [resolve_of_inactive (active_subset_matching absent), if_pos absent]

/-- Both of two accounts hold an active key under one key id. -/
def collided : KeyTables where
  accountKeys :=
    ⟨[⟨⟨1⟩, ⟨7⟩, "ed25519", "", .active, 0, none⟩, ⟨⟨2⟩, ⟨7⟩, "ed25519", "", .active, 0, none⟩], by decide⟩
  userKeys := ⟨[], by decide⟩
  systemKeys := ⟨[], by decide⟩
  systems := []
  systemScopes := []
  identified := by decide
  granted := by decide
  owned := by decide

/-- The key id of two accounts resolves to the first of them. -/
theorem resolves_collision : ¬ ∀ decode tables keyId,
    ExactlyOne decode tables keyId (resolve decode tables keyId) := by
  intro claim
  obtain ⟨text, failed⟩ := (claim (fun _ => .ok []) collided ⟨7⟩).collision (by decide)
  have resolved : (resolve (fun _ => .ok []) collided ⟨7⟩).isOk := by decide
  rw [failed] at resolved
  contradiction

end Headlines.Soundness.KeyResolution
