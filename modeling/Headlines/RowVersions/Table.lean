import Mathlib

/-! # Row versions

A table as concurrent transactions keep it. A row is inserted as a version that names its transaction, and deleted by
naming the transaction that deletes it; what a version counts for depends on how these transactions end. A version
that a running transaction has deleted, and a key that it has inserted, is locked for the others.
-/

namespace RowVersions

variable {κ R : Type}

/-- How a transaction stands. -/
inductive Fate where
  | running
  | committed
  | aborted
deriving DecidableEq, Repr

/-- A version of a row; an inserter of `none` is older than every transaction. -/
structure Version (κ R : Type) where
  key : κ
  row : R
  inserter : Option ℕ
  deleter : Option ℕ

/-- The versions, oldest first, and how the transactions stand. -/
structure Table (κ R : Type) where
  versions : List (Version κ R)
  fate : ℕ → Fate

namespace Table

variable (table : Table κ R) {version : Version κ R} {id other : ℕ}

def Entered (version : Version κ R) : Prop := ∀ id, version.inserter = some id → table.fate id = .committed

def Removed (version : Version κ R) : Prop := ∃ id, version.deleter = some id ∧ table.fate id = .committed

/-- The version is committed, and no committed transaction has deleted it. -/
def Live (version : Version κ R) : Prop := table.Entered version ∧ ¬ table.Removed version

instance : DecidablePred table.Entered := fun version =>
  match same : version.inserter with
  | none => isTrue fun id own => by simp [same] at own
  | some id => decidable_of_iff (table.fate id = .committed) (by simp [Entered, same])

instance : DecidablePred table.Removed := fun version =>
  match same : version.deleter with
  | none => isFalse fun ⟨id, own, _⟩ => by simp [same] at own
  | some id => decidable_of_iff (table.fate id = .committed) (by simp [Removed, same])

instance : DecidablePred table.Live := fun _ => inferInstanceAs (Decidable (_ ∧ _))

/-- The committed rows, in the order of their versions. -/
def rows : List (κ × R) := (table.versions.filter table.Live).map fun version => (version.key, version.row)

/-- The rows that a transaction has inserted. -/
def inserted (id : ℕ) : List (κ × R) :=
  (table.versions.filter fun version => version.inserter = some id).map fun version => (version.key, version.row)

/-- The versions that a statement sees when it starts: the live ones and those of its transaction, less those that its
transaction has deleted. -/
def visible (id : ℕ) (p : κ → Bool) : List ℕ :=
  (List.range table.versions.length).filter fun index =>
    (table.versions[index]?).any fun version => p version.key &&
      (table.Live version ∨ (version.inserter = some id ∧ ¬ table.Removed version)) && version.deleter ≠ some id

/-- Another transaction that is running has deleted the version. -/
def Locked (id : ℕ) (version : Version κ R) : Prop :=
  ∃ other, version.deleter = some other ∧ other ≠ id ∧ table.fate other = .running

instance : DecidablePred (table.Locked id) := fun version =>
  match same : version.deleter with
  | none => isFalse fun ⟨other, own, _⟩ => by simp [same] at own
  | some other => decidable_of_iff (other ≠ id ∧ table.fate other = .running) (by simp [Locked, same])

def mark (id index : ℕ) : Table κ R :=
  { table with versions := table.versions.modify index fun version => { version with deleter := some id } }

/-- A `DELETE` reaches a version of its snapshot: it waits for a transaction that has deleted the version and is
running, skips a version whose deletion was committed, and deletes any other. -/
def delete (id index : ℕ) : Option (Table κ R × Bool) :=
  (table.versions[index]?).bind fun version =>
    if table.Removed version then some (table, false)
    else if table.Locked id version then none
    else some (table.mark id index, true)

/-- The version does not stand in the way of a row with its key: it was never committed, or it is deleted, by the
transaction itself or for good. -/
def Gone (id : ℕ) (version : Version κ R) : Prop :=
  (∃ other, version.inserter = some other ∧ table.fate other = .aborted) ∨ version.deleter = some id ∨
    table.Removed version

instance : DecidablePred (table.Gone id) := fun version =>
  have : Decidable (∃ other, version.inserter = some other ∧ table.fate other = .aborted) :=
    match same : version.inserter with
    | none => isFalse fun ⟨other, own, _⟩ => by simp at own
    | some other => decidable_of_iff (table.fate other = .aborted) (by simp)
  inferInstanceAs (Decidable (_ ∨ _))

/-- An `INSERT` reaches a row: with a version of its key in the way it waits or violates the key, and goes on else. -/
def insert [DecidableEq κ] (id : ℕ) (row : κ × R) : Option (Table κ R) :=
  if ∀ version ∈ table.versions, version.key = row.1 → table.Gone id version then
    some { table with versions := table.versions ++ [⟨row.1, row.2, some id, none⟩] }
  else none

/-- A running transaction ends. -/
def close (id : ℕ) (fate : Fate) : Table κ R :=
  match table.fate id with
  | .running => { table with fate := Function.update table.fate id fate }
  | _ => table

/-! ## What the operations do -/

variable {table} {after : Table κ R}

theorem mem_visible {index : ℕ} {p : κ → Bool} (own : ∀ version ∈ table.versions, version.inserter ≠ some id ∧ version.deleter ≠ some id) :
    index ∈ table.visible id p ↔ ∃ version, table.versions[index]? = some version ∧ table.Live version ∧ p version.key := by
  simp only [visible, List.mem_filter, List.mem_range]
  constructor
  · rintro ⟨_, seen⟩
    obtain ⟨version, found, shown⟩ := Option.any_eq_true _ _ |>.mp seen
    have apart := own version (List.mem_of_getElem? found)
    simp only [apart.1, false_and, or_false, Bool.and_eq_true, decide_eq_true_eq] at shown
    exact ⟨version, found, shown.1.2, shown.1.1⟩
  · rintro ⟨version, found, live, about⟩
    have apart := own version (List.mem_of_getElem? found)
    refine ⟨(List.getElem?_eq_some_iff.mp found).1, ?_⟩
    rw [found]
    simp [about, live, apart.2]

theorem of_mem_visible {index : ℕ} {p : κ → Bool} (member : index ∈ table.visible id p) :
    ∃ version, table.versions[index]? = some version ∧ p version.key := by
  obtain ⟨version, found, shown⟩ := Option.any_eq_true _ _ |>.mp (List.mem_filter.mp member).2
  simp only [Bool.and_eq_true] at shown
  exact ⟨version, found, shown.1.1⟩

theorem mark_getElem? (index other : ℕ) : (table.mark id index).versions[other]? =
    (table.versions[other]?).map fun version => if index = other then { version with deleter := some id } else version := by
  simp only [mark, List.getElem?_modify]
  split <;> simp_all

theorem modify_filter {τ : Type} {versions : List (Version κ R)} {p : Version κ R → Bool} {g : Version κ R → τ}
    {f : Version κ R → Version κ R} {index : ℕ}
    (same : ∀ version, versions[index]? = some version → p (f version) = p version ∧ g (f version) = g version) :
    ((versions.modify index f).filter p).map g = (versions.filter p).map g := by
  induction versions generalizing index with
  | nil => simp
  | cons first rest ih =>
    cases index with
    | zero =>
      obtain ⟨kept, equal⟩ := same first rfl
      simp only [List.modify_zero_cons, List.filter_cons, kept]
      split <;> simp [equal]
    | succ index =>
      have later := ih fun version found => same version found
      simp only [List.modify_succ_cons, List.filter_cons]
      split <;> simp [later]

theorem inserted_mark (index : ℕ) : (table.mark id index).inserted other = table.inserted other :=
  modify_filter fun _ _ => ⟨rfl, rfl⟩

/-- A mark of a running transaction does not count yet. -/
theorem live_mark {version : Version κ R} (running : table.fate id = .running) (kept : ¬ table.Removed version) :
    table.Live { version with deleter := some id } ↔ table.Live version := by
  have unmarked : ¬ table.Removed { version with deleter := some id } := by
    rintro ⟨other, same, committed⟩
    cases same
    rw [running] at committed
    contradiction
  exact ⟨fun live => ⟨live.1, kept⟩, fun live => ⟨live.1, unmarked⟩⟩

/-- What a `DELETE` that reaches a version has done. -/
theorem delete_cases {index : ℕ} {deleted : Bool} (reached : table.delete id index = some (after, deleted)) :
    ∃ version, table.versions[index]? = some version ∧
      ((table.Removed version ∧ after = table) ∨
        (¬ table.Removed version ∧ ¬ table.Locked id version ∧ after = table.mark id index)) := by
  obtain ⟨version, found, done⟩ := Option.bind_eq_some_iff.mp reached
  refine ⟨version, found, ?_⟩
  split at done
  · next removed =>
    cases done
    exact .inl ⟨removed, rfl⟩
  · next kept =>
    split at done
    · contradiction
    · next free =>
      cases done
      exact .inr ⟨kept, free, rfl⟩

theorem insert_cases [DecidableEq κ] {row : κ × R} (put : table.insert id row = some after) :
    after = { table with versions := table.versions ++ [⟨row.1, row.2, some id, none⟩] } ∧
      ∀ version ∈ table.versions, version.key = row.1 → table.Gone id version := by
  rw [insert] at put
  split at put
  · next free =>
    cases put
    exact ⟨rfl, free⟩
  · contradiction

theorem inserted_append (row : κ × R) : ({ table with versions := table.versions ++ [⟨row.1, row.2, some id, none⟩] } :
    Table κ R).inserted other = table.inserted other ++ if id = other then [row] else [] := by
  by_cases same : id = other <;> simp [inserted, same]

/-- A row of a running transaction does not count yet. -/
theorem live_new (running : table.fate id = .running) (row : κ × R) : ¬ table.Live ⟨row.1, row.2, some id, none⟩ := by
  intro live
  have committed := live.1 id rfl
  rw [running] at committed
  contradiction

theorem close_of_ended {fate : Fate} (ended : table.fate id ≠ .running) : table.close id fate = table := by
  rw [close]
  split
  · contradiction
  · rfl

theorem close_running {fate : Fate} (running : table.fate id = .running) :
    table.close id fate = { table with fate := Function.update table.fate id fate } := by
  rw [close, running]

@[simp] theorem close_versions (fate : Fate) : (table.close id fate).versions = table.versions := by
  rw [close]
  split <;> rfl

theorem close_fate {fate : Fate} (running : table.fate id = .running) (other : ℕ) :
    (table.close id fate).fate other = if other = id then fate else table.fate other := by
  rw [close_running running]
  exact Function.update_apply ..

/-- A commit makes the rows of the transaction count, and its deletions. -/
theorem live_commit (running : table.fate id = .running) : (table.close id .committed).Live version ↔
    (table.Entered version ∨ version.inserter = some id) ∧ ¬ table.Removed version ∧ version.deleter ≠ some id := by
  have entered : (table.close id .committed).Entered version ↔ table.Entered version ∨ version.inserter = some id := by
    constructor
    · intro enters
      by_cases own : version.inserter = some id
      · exact .inr own
      · refine .inl fun other same => ?_
        have committed := enters other same
        rw [close_fate running, if_neg fun equal : other = id => own (equal ▸ same)] at committed
        exact committed
    · rintro (enters | own) other same
      · rw [close_fate running]
        split
        · rfl
        · exact enters other same
      · cases own.symm.trans same
        rw [close_fate running, if_pos rfl]
  have removed : (table.close id .committed).Removed version ↔ table.Removed version ∨ version.deleter = some id := by
    constructor
    · rintro ⟨other, same, committed⟩
      rw [close_fate running] at committed
      split at committed
      · next equal => exact .inr (equal ▸ same)
      · exact .inl ⟨other, same, committed⟩
    · rintro (⟨other, same, committed⟩ | own)
      · refine ⟨other, same, ?_⟩
        rw [close_fate running]
        split
        · rfl
        · exact committed
      · exact ⟨id, own, by rw [close_fate running, if_pos rfl]⟩
  rw [Live, entered, removed, not_or]

/-- A transaction that aborts changes nothing of what counts. -/
theorem live_abort (running : table.fate id = .running) : (table.close id .aborted).Live version ↔ table.Live version := by
  have same (other : ℕ) : (table.close id .aborted).fate other = .committed ↔ table.fate other = .committed := by
    rw [close_fate running]
    split
    · next equal => simp [equal, running]
    · rfl
  simp only [Live, Entered, Removed, same]

theorem rows_abort : (table.close id .aborted).rows = table.rows := by
  by_cases running : table.fate id = .running
  · rw [rows, close_versions, rows]
    exact congrArg _ (List.filter_congr fun version _ => decide_eq_decide.mpr (live_abort running))
  · rw [close_of_ended running]

end Table

end RowVersions
