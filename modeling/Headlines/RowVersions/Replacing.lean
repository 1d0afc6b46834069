import Headlines.RowVersions.System

/-! # Replacing the rows of a group

Transactions that delete all rows of a group and insert new ones, whose first row has the same key in all of them. A
transaction that inserts the first key holds every committed row of the group: it has deleted them itself, for a
version that another one committed after its snapshot stands in the way of the key. So the group changes as a whole.
-/

namespace RowVersions

open ReadCommitted (Fault)
open Autocommit (Program Event)

variable {κ R T ι α ρ σ : Type} {Result : T → Type} {Answer : ι → Type}

/-- A group of rows, and what a request that replaces the group inserts. -/
structure Group (κ R α : Type) where
  mine : κ → Bool
  first : κ
  writes : α → Option (List (κ × R))
  owned : ∀ request rows, writes request = some rows → ∀ row ∈ rows, mine row.1
  leads : ∀ request row rest, writes request = some (row :: rest) → row.1 = first

/-- How far a session's transaction has come. -/
inductive Stage where
  | idle
  | deleted
  | inserted
  | committed
  | failed
deriving DecidableEq

def Stage.fate : Stage → Fate
  | .committed => .committed
  | .failed => .aborted
  | _ => .running

theorem Stage.eq_of_fate {stage : Stage} (committed : stage.fate = .committed) : stage = .committed := by
  cases stage <;> first | rfl | contradiction

/-- The stage by what a session has been told. -/
def stage : List (Event (Statement.Result (κ := κ) (R := R) Result) Answer) → Stage
  | [] => .idle
  | .ran (.delete _) (.ok _) :: _ => .deleted
  | .ran (.insert _) (.ok _) :: _ => .inserted
  | .ran .commit (.ok _) :: _ => .committed
  | .ran .rollback _ :: _ => .failed
  | .ran (.outside _) _ :: past => stage past
  | .ran .begin (.ok _) :: past => stage past
  | .ran _ (.error _) :: _ => .failed
  | .asked _ _ :: past => stage past

/-- A request that replaces the group deletes it, inserts its rows, and commits, in this order; other requests leave
the group alone. A transaction that has ended runs nothing more on the table. -/
def Justified (group : Group κ R α) (request : α) (past : List (Event (Statement.Result (κ := κ) (R := R) Result) Answer)) :
    Statement κ R T → Prop
  | .outside _ => True
  | .begin => stage past = .idle
  | .delete p =>
      match group.writes request with
      | some _ => p = group.mine ∧ stage past = .idle
      | none => ∀ key, p key → ¬ group.mine key
  | .insert rows =>
      match group.writes request with
      | some given => rows = given ∧ stage past = .deleted
      | none => ∀ row ∈ rows, ¬ group.mine row.1
  | .commit =>
      match group.writes request with
      | some given => stage past = .inserted ∨ (stage past = .deleted ∧ given = [])
      | none => True
  | .rollback => stage past ≠ .committed

namespace Group

variable (group : Group κ R α) (table : Table κ R)

/-- The version at the index is a committed row of the group. -/
def Counts (index : ℕ) (version : Version κ R) : Prop :=
  table.versions[index]? = some version ∧ table.Live version ∧ group.mine version.key

/-- The rows of the group have the first key, if there are any. -/
def Led : Prop := ∀ index version, group.Counts table index version → ∃ place lead, group.Counts table place lead ∧ lead.key = group.first

/-- All rows of the group are deleted by the transaction or still to be reached; or none is, and they have the first key. -/
def Seen (id : ℕ) (todo : List ℕ) : Prop :=
  (∀ index version, group.Counts table index version → index ∈ todo ∨ version.deleter = some id) ∨
    (group.Led table ∧ ∀ index version, group.Counts table index version → index ∉ todo ∧ version.deleter ≠ some id)

/-- All rows of the group are deleted by the transaction. -/
def Held (id : ℕ) : Prop := ∀ index version, group.Counts table index version → version.deleter = some id

/-- The transaction has inserted these rows; from the first one on it holds the group. -/
structure Wrote (id : ℕ) (rows : List (κ × R)) : Prop where
  inserted : table.inserted id = rows
  before : rows = [] → group.Seen table id []
  after : rows ≠ [] → group.Held table id

/-- No version names the transaction. -/
def Untouched (table : Table κ R) (id : ℕ) : Prop :=
  ∀ version ∈ table.versions, version.inserter ≠ some id ∧ version.deleter ≠ some id

/-- Every index is of a version that was committed. -/
def Known (table : Table κ R) (todo : List ℕ) : Prop :=
  ∀ index ∈ todo, ∃ version, table.versions[index]? = some version ∧ table.Entered version

/-- What a transaction that replaces the group has done, by its stage and its statement in progress. -/
def Standing (id : ℕ) (given : List (κ × R)) : Stage → Option (Task κ R) → Prop
  | .idle, none => Untouched table id
  | .idle, some (.deleting todo _) => table.inserted id = [] ∧ Known table todo ∧ group.Seen table id todo
  | .deleted, none => group.Wrote table id []
  | .deleted, some (.inserting todo _) => ∃ done, done ++ todo = given ∧ group.Wrote table id done
  | .inserted, none => group.Wrote table id given
  | .committed, none | .failed, none => True
  | _, _ => False

/-- What a transaction of another request has done: nothing to the group. -/
structure Foreign (id : ℕ) (task : Option (Task κ R)) : Prop where
  apart : ∀ version ∈ table.versions, group.mine version.key → version.inserter ≠ some id ∧ version.deleter ≠ some id
  deletes : ∀ todo count, task = some (.deleting todo count) →
    ∀ index ∈ todo, ∃ version, table.versions[index]? = some version ∧ ¬ group.mine version.key
  inserts : ∀ todo count, task = some (.inserting todo count) → ∀ row ∈ todo, ¬ group.mine row.1

end Group

/-- What one transaction does to a table, as far as the others are concerned. -/
structure Beside (table after : Table κ R) (id : ℕ) : Prop where
  fate : ∀ other, other ≠ id → after.fate other = table.fate other
  ended : table.fate id ≠ .running → after.fate id = table.fate id
  kept : ∀ (index : ℕ) (version : Version κ R), table.versions[index]? = some version →
    ∃ later : Version κ R, after.versions[index]? = some later ∧ later.key = version.key ∧ later.inserter = version.inserter ∧
      (later.deleter = version.deleter ∨ (later.deleter = some id ∧ ¬ table.Locked id version))
  fresh : ∀ (index : ℕ) (later : Version κ R), after.versions[index]? = some later → table.versions[index]? = none →
    later.inserter = some id ∧ later.deleter = none
  inserted : ∀ other, other ≠ id → after.inserted other = table.inserted other

namespace Beside

variable {table after : Table κ R} {id other : ℕ}

theorem refl (table : Table κ R) (id : ℕ) : Beside table table id where
  fate _ _ := rfl
  ended _ := rfl
  kept _ version found := ⟨version, found, rfl, rfl, .inl rfl⟩
  fresh _ _ found missing := by
    rw [missing] at found
    contradiction
  inserted _ _ := rfl

theorem mark {index : ℕ} {version : Version κ R} (found : table.versions[index]? = some version)
    (free : ¬ table.Locked id version) : Beside table (table.mark id index) id where
  fate _ _ := rfl
  ended _ := rfl
  kept place old there := by
    by_cases same : index = place
    · subst same
      cases found.symm.trans there
      exact ⟨{ version with deleter := some id }, by simp [Table.mark_getElem?, there], rfl, rfl, .inr ⟨rfl, free⟩⟩
    · exact ⟨old, by simp [Table.mark_getElem?, there, same], rfl, rfl, .inl rfl⟩
  fresh place later there missing := by
    rw [Table.mark_getElem?, missing] at there
    contradiction
  inserted _ _ := Table.inserted_mark index

theorem append (table : Table κ R) (id : ℕ) (row : κ × R) :
    Beside table { table with versions := table.versions ++ [⟨row.1, row.2, some id, none⟩] } id where
  fate _ _ := rfl
  ended _ := rfl
  kept place old there := by
    refine ⟨old, ?_, rfl, rfl, .inl rfl⟩
    rw [← there]
    exact List.getElem?_append_left (List.getElem?_eq_some_iff.mp there).1
  fresh place later there missing := by
    have past : table.versions.length ≤ place := List.getElem?_eq_none_iff.mp missing
    rw [List.getElem?_append_right past] at there
    cases List.mem_singleton.mp (List.mem_of_getElem? there)
    exact ⟨rfl, rfl⟩
  inserted other differs := by simp [Table.inserted_append, Ne.symm differs]

theorem close (table : Table κ R) (id : ℕ) (fate : Fate) : Beside table (table.close id fate) id where
  fate other differs := by
    by_cases running : table.fate id = .running
    · rw [Table.close_fate running, if_neg differs]
    · rw [Table.close_of_ended running]
  ended ended := by rw [Table.close_of_ended ended]
  kept _ version found := ⟨version, by rwa [Table.close_versions], rfl, rfl, .inl rfl⟩
  fresh _ _ found missing := by
    rw [Table.close_versions, missing] at found
    contradiction
  inserted _ _ := by simp only [Table.inserted, Table.close_versions]

/-- What was committed stays committed. -/
theorem entered (beside : Beside table after id) {version later : Version κ R} (same : later.inserter = version.inserter)
    (entered : table.Entered version) : after.Entered later := by
  intro other own
  have committed := entered other (same ▸ own)
  by_cases equal : other = id
  · subst equal
    rw [beside.ended (by rw [committed]; decide), committed]
  · rw [beside.fate other equal, committed]

theorem known (beside : Beside table after id) {todo : List ℕ} (known : Group.Known table todo) : Group.Known after todo := by
  intro index member
  obtain ⟨version, found, entered⟩ := known index member
  obtain ⟨later, there, _, same, _⟩ := beside.kept index version found
  exact ⟨later, there, beside.entered same entered⟩

/-- A later version is an old one, which the transaction may have deleted, or new. -/
theorem version (beside : Beside table after id) {later : Version κ R} (member : later ∈ after.versions) :
    (∃ version ∈ table.versions, later.key = version.key ∧ later.inserter = version.inserter ∧
      (later.deleter = version.deleter ∨ later.deleter = some id)) ∨ (later.inserter = some id ∧ later.deleter = none) := by
  obtain ⟨index, found⟩ := List.getElem?_of_mem member
  cases old : table.versions[index]? with
  | none => exact .inr (beside.fresh index later found old)
  | some version =>
    obtain ⟨_, there, key, inserter, deleter⟩ := beside.kept index version old
    cases found.symm.trans there
    exact .inl ⟨version, List.mem_of_getElem? old, key, inserter, deleter.imp_right And.left⟩

theorem untouched (beside : Beside table after id) (differs : other ≠ id) (untouched : Group.Untouched table other) :
    Group.Untouched after other := by
  intro later member
  rcases beside.version member with ⟨version, old, _, inserter, deleter⟩ | ⟨inserter, deleter⟩
  · obtain ⟨uninserted, undeleted⟩ := untouched version old
    rw [inserter]
    refine ⟨uninserted, ?_⟩
    rcases deleter with same | own
    · rwa [same]
    · rw [own]
      exact fun same => differs (Option.some.inj same).symm
  · rw [inserter, deleter]
    exact ⟨fun same => differs (Option.some.inj same).symm, nofun⟩

end Beside

namespace Group

variable (group : Group κ R α) {table after : Table κ R} {id other : ℕ}

/-- No row of the group is new. -/
structure Quiet (table after : Table κ R) : Prop where
  counts : ∀ index later, group.Counts after index later → ∃ version, group.Counts table index version
  led : group.Led table → group.Led after

/-- Every row of the group is new, and the transaction at hand has inserted none. -/
structure Taken (table after : Table κ R) (other : ℕ) : Prop where
  counts : ∀ index later, group.Counts after index later → later.deleter = none ∧
    ∀ version, table.versions[index]? = some version → ¬ table.Entered version
  led : group.Led after
  empty : table.inserted other = []

variable {group}

theorem Quiet.held (quiet : group.Quiet table after) (beside : Beside table after id) (differs : other ≠ id)
    (running : table.fate other = .running) (held : group.Held table other) : group.Held after other := by
  intro index later counts
  obtain ⟨version, old⟩ := quiet.counts index later counts
  have deleter := held index version old
  obtain ⟨_, there, _, _, same | ⟨_, free⟩⟩ := beside.kept index version old.1 <;> cases counts.1.symm.trans there
  · rw [same, deleter]
  · exact absurd ⟨other, deleter, differs, running⟩ free

theorem Quiet.seen (quiet : group.Quiet table after) (beside : Beside table after id) (differs : other ≠ id)
    (running : table.fate other = .running) {todo : List ℕ} (seen : group.Seen table other todo) :
    group.Seen after other todo := by
  rcases seen with all | ⟨led, none⟩
  · refine .inl fun index later counts => ?_
    obtain ⟨version, old⟩ := quiet.counts index later counts
    refine (all index version old).imp_right fun deleter => ?_
    obtain ⟨_, there, _, _, same | ⟨_, free⟩⟩ := beside.kept index version old.1 <;> cases counts.1.symm.trans there
    · rw [same, deleter]
    · exact absurd ⟨other, deleter, differs, running⟩ free
  · refine .inr ⟨quiet.led led, fun index later counts => ?_⟩
    obtain ⟨version, old⟩ := quiet.counts index later counts
    obtain ⟨apart, undeleted⟩ := none index version old
    refine ⟨apart, ?_⟩
    obtain ⟨_, there, _, _, same | ⟨own, _⟩⟩ := beside.kept index version old.1 <;> cases counts.1.symm.trans there
    · rwa [same]
    · rw [own]
      exact fun same => differs (Option.some.inj same).symm

theorem Taken.seen (taken : group.Taken table after other) {todo : List ℕ} (known : Known table todo) :
    group.Seen after other todo := by
  refine .inr ⟨taken.led, fun index later counts => ?_⟩
  obtain ⟨undeleted, unentered⟩ := taken.counts index later counts
  refine ⟨fun member => ?_, by rw [undeleted]; exact nofun⟩
  obtain ⟨version, found, entered⟩ := known index member
  exact unentered version found entered

theorem Wrote.beside {rows : List (κ × R)} (wrote : group.Wrote table other rows) (beside : Beside table after id)
    (differs : other ≠ id) (running : table.fate other = .running)
    (change : group.Quiet table after ∨ group.Taken table after other) : group.Wrote after other rows := by
  rcases change with quiet | taken
  · exact ⟨(beside.inserted other differs).trans wrote.inserted, fun none => quiet.seen beside differs running (wrote.before none),
      fun some => quiet.held beside differs running (wrote.after some)⟩
  · have none : rows = [] := wrote.inserted.symm.trans taken.empty
    refine ⟨(beside.inserted other differs).trans wrote.inserted, fun _ => taken.seen fun _ member => ?_, fun some => absurd none some⟩
    contradiction

/-- What a transaction has done stays as it is when another one does something. -/
theorem Standing.beside {given : List (κ × R)} {stage : Stage} {task : Option (Task κ R)}
    (standing : group.Standing table other given stage task) (beside : Beside table after id) (differs : other ≠ id)
    (fate : table.fate other = stage.fate)
    (change : stage.fate = .running → group.Quiet table after ∨ group.Taken table after other) :
    group.Standing after other given stage task := by
  cases stage with
  | idle =>
    cases task with
    | none => exact beside.untouched differs standing
    | some task =>
      cases task with
      | inserting => exact standing
      | deleting todo count =>
        obtain ⟨none, known, seen⟩ := standing
        refine ⟨(beside.inserted other differs).trans none, beside.known known, ?_⟩
        rcases change rfl with quiet | taken
        · exact quiet.seen beside differs fate seen
        · exact taken.seen known
  | deleted =>
    cases task with
    | none => exact Wrote.beside standing beside differs fate (change rfl)
    | some task =>
      cases task with
      | deleting => exact standing
      | inserting todo count =>
        obtain ⟨done, split, wrote⟩ := standing
        exact ⟨done, split, wrote.beside beside differs fate (change rfl)⟩
  | inserted =>
    cases task with
    | none => exact Wrote.beside standing beside differs fate (change rfl)
    | some => exact standing
  | committed | failed => cases task <;> exact standing

theorem Foreign.beside {task : Option (Task κ R)} (foreign : group.Foreign table other task) (beside : Beside table after id)
    (differs : other ≠ id) : group.Foreign after other task where
  apart later member own := by
    rcases beside.version member with ⟨version, old, key, inserter, deleter⟩ | ⟨inserter, deleter⟩
    · obtain ⟨uninserted, undeleted⟩ := foreign.apart version old (key ▸ own)
      rw [inserter]
      refine ⟨uninserted, ?_⟩
      rcases deleter with same | by_id
      · rwa [same]
      · rw [by_id]
        exact fun same => differs (Option.some.inj same).symm
    · rw [inserter, deleter]
      exact ⟨fun same => differs (Option.some.inj same).symm, nofun⟩
  deletes todo count same index member := by
    obtain ⟨version, found, other⟩ := foreign.deletes todo count same index member
    obtain ⟨later, there, key, _⟩ := beside.kept index version found
    exact ⟨later, there, key ▸ other⟩
  inserts := foreign.inserts

/-! ## What counts after a step -/

section Steps

variable (group)

/-- The committed rows of the group. -/
def rows (table : Table κ R) : List (κ × R) := table.rows.filter fun row => group.mine row.1

variable {group} {version : Version κ R} {index : ℕ} {todo : List ℕ}

theorem rows_eq (table : Table κ R) : group.rows table =
    (table.versions.filter fun version => decide (table.Live version) && group.mine version.key).map
      fun version => (version.key, version.row) := by
  rw [rows, Table.rows, List.filter_map, List.filter_filter]
  congr 1
  exact List.filter_congr fun version _ => Bool.and_comm ..

/-- Nothing changes if the same versions count. -/
theorem Quiet.of_iff (counts : ∀ index later, group.Counts after index later → ∃ version, group.Counts table index version)
    (kept : ∀ index version, group.Counts table index version → ∃ later, group.Counts after index later ∧ later.key = version.key) :
    group.Quiet table after := by
  refine ⟨counts, fun led index later counting => ?_⟩
  obtain ⟨version, old⟩ := counts index later counting
  obtain ⟨place, lead, there, first⟩ := led index version old
  obtain ⟨later, now, key⟩ := kept place lead there
  exact ⟨place, later, now, key.trans first⟩

theorem Quiet.refl (table : Table κ R) : group.Quiet table table :=
  .of_iff (fun _ version counts => ⟨version, counts⟩) fun _ version counts => ⟨version, counts, rfl⟩

/-- A mark on a version of another group counts for nothing, nor does one of a running transaction. -/
theorem live_marked (kept : ¬ table.Removed version) (harmless : group.mine version.key → table.fate id = .running) :
    (table.Live { version with deleter := some id } ∧ group.mine version.key) ↔ table.Live version ∧ group.mine version.key :=
  and_congr_left fun mine => Table.live_mark (harmless mine) kept

theorem Quiet.mark (found : table.versions[index]? = some version) (kept : ¬ table.Removed version)
    (harmless : group.mine version.key → table.fate id = .running) : group.Quiet table (table.mark id index) := by
  refine .of_iff (fun place later ⟨there, counts⟩ => ?_) fun place old ⟨there, counts⟩ => ?_
  · rw [Table.mark_getElem?] at there
    obtain ⟨old, old_there, rfl⟩ := Option.map_eq_some_iff.mp there
    by_cases same : index = place
    · subst same
      cases found.symm.trans old_there
      rw [if_pos rfl] at counts
      exact ⟨version, found, (live_marked kept harmless).mp counts⟩
    · rw [if_neg same] at counts
      exact ⟨old, old_there, counts⟩
  · by_cases same : index = place
    · subst same
      cases found.symm.trans there
      exact ⟨_, ⟨by rw [Table.mark_getElem?, there, Option.map_some, if_pos rfl], (live_marked kept harmless).mpr counts⟩, rfl⟩
    · exact ⟨old, ⟨by rw [Table.mark_getElem?, there, Option.map_some, if_neg same], counts⟩, rfl⟩

theorem rows_mark (found : table.versions[index]? = some version) (kept : ¬ table.Removed version)
    (harmless : group.mine version.key → table.fate id = .running) :
    group.rows (table.mark id index) = group.rows table := by
  rw [rows_eq, rows_eq]
  refine Table.modify_filter fun old there => ⟨?_, rfl⟩
  cases found.symm.trans there
  have same : _ ↔ table.Live version ∧ group.mine version.key := live_marked kept harmless
  rw [← Bool.decide_coe (group.mine version.key), ← Bool.decide_and, ← Bool.decide_and, decide_eq_decide]
  exact same

/-- A new row of another group counts for nothing, nor does one of a running transaction. -/
theorem not_counts_new {row : κ × R} (harmless : group.mine row.1 → table.fate id = .running) :
    ¬ (table.Live ⟨row.1, row.2, some id, none⟩ ∧ group.mine row.1) :=
  fun ⟨live, mine⟩ => Table.live_new (harmless mine) row live

theorem Quiet.append {row : κ × R} (harmless : group.mine row.1 → table.fate id = .running) :
    group.Quiet table { table with versions := table.versions ++ [⟨row.1, row.2, some id, none⟩] } := by
  refine .of_iff (fun place later ⟨there, counts⟩ => ?_) fun place old ⟨there, counts⟩ => ?_
  · by_cases inside : place < table.versions.length
    · rw [List.getElem?_append_left inside] at there
      exact ⟨later, there, counts⟩
    · rw [List.getElem?_append_right (Nat.le_of_not_lt inside)] at there
      cases List.mem_singleton.mp (List.mem_of_getElem? there)
      exact absurd counts (not_counts_new harmless)
  · exact ⟨old, ⟨(List.getElem?_append_left (List.getElem?_eq_some_iff.mp there).1).trans there, counts⟩, rfl⟩

theorem rows_append {row : κ × R} (harmless : group.mine row.1 → table.fate id = .running) :
    group.rows { table with versions := table.versions ++ [⟨row.1, row.2, some id, none⟩] } = group.rows table := by
  have absent : (decide (table.Live ⟨row.1, row.2, some id, none⟩) && group.mine row.1) = false := by
    rw [← Bool.decide_coe (group.mine row.1), ← Bool.decide_and, decide_eq_false_iff_not]
    exact not_counts_new harmless
  rw [rows_eq, rows_eq]
  change ((table.versions ++ [_]).filter fun version => decide (table.Live version) && group.mine version.key).map _ = _
  simp [absent]

theorem Quiet.abort : group.Quiet table (table.close id .aborted) := by
  by_cases running : table.fate id = .running
  · refine .of_iff (fun place later ⟨there, live, mine⟩ => ⟨later, ?_, (Table.live_abort running).mp live, mine⟩)
      fun place old ⟨there, live, mine⟩ => ⟨old, ⟨?_, (Table.live_abort running).mpr live, mine⟩, rfl⟩
    · rwa [Table.close_versions] at there
    · rwa [Table.close_versions]
  · rw [Table.close_of_ended running]
    exact .refl table

/-- A version that was removed need not be reached. -/
theorem Seen.skip (seen : group.Seen table id todo) (found : table.versions[index]? = some version)
    (removed : table.Removed version) : group.Seen table id (todo.erase index) := by
  rcases seen with all | ⟨led, none⟩
  · refine .inl fun place old counts => ?_
    rcases all place old counts with pending | deleted
    · refine .inl ((List.mem_erase_of_ne ?_).mpr pending)
      rintro rfl
      cases found.symm.trans counts.1
      exact counts.2.1.2 removed
    · exact .inr deleted
  · exact .inr ⟨led, fun place old counts => ⟨fun member => (none place old counts).1 (List.mem_of_mem_erase member), (none place old counts).2⟩⟩

/-- A version that is reached is deleted. -/
theorem Seen.mark (seen : group.Seen table id todo) (member : index ∈ todo) (found : table.versions[index]? = some version)
    (kept : ¬ table.Removed version) (running : table.fate id = .running) :
    group.Seen (table.mark id index) id (todo.erase index) := by
  have quiet : group.Quiet table (table.mark id index) := .mark found kept fun _ => running
  rcases seen with all | ⟨led, none⟩
  · refine .inl fun place later counts => ?_
    obtain ⟨there, live, mine⟩ := counts
    rw [Table.mark_getElem?] at there
    obtain ⟨old, old_there, rfl⟩ := Option.map_eq_some_iff.mp there
    by_cases same : index = place
    · rw [if_pos same]
      exact .inr rfl
    · rw [if_neg same] at live mine ⊢
      rcases all place old ⟨old_there, live, mine⟩ with pending | deleted
      · exact .inl ((List.mem_erase_of_ne (Ne.symm same)).mpr pending)
      · exact .inr deleted
  · refine .inr ⟨quiet.led led, fun place later counts => ?_⟩
    obtain ⟨old, before⟩ := quiet.counts place later counts
    obtain ⟨apart, undeleted⟩ := none place old before
    have differs : index ≠ place := fun same => apart (same ▸ member)
    have there := counts.1
    rw [Table.mark_getElem?, before.1, Option.map_some, if_neg differs] at there
    cases there
    exact ⟨fun rest => apart (List.mem_of_mem_erase rest), undeleted⟩

/-- A transaction that inserts a row with the first key holds the group: a row of the group with this key that it has
not deleted would stand in the way. -/
theorem Seen.held (seen : group.Seen table id []) (free : ∀ version ∈ table.versions, version.key = group.first → table.Gone id version) :
    group.Held table id := by
  rcases seen with all | ⟨led, none⟩
  · exact fun place old counts => (all place old counts).resolve_left (List.not_mem_nil)
  · intro place old counts
    obtain ⟨spot, lead, there, first⟩ := led place old counts
    rcases free lead (List.mem_of_getElem? there.1) first with ⟨other, own, aborted⟩ | deleted | removed
    · rw [there.2.1.1 other own] at aborted
      contradiction
    · exact absurd deleted (none spot lead there).2
    · exact absurd removed there.2.1.2

/-- A row that is inserted is held with the others. -/
theorem Held.append {row : κ × R} (held : group.Held table id) (running : table.fate id = .running) :
    group.Held { table with versions := table.versions ++ [⟨row.1, row.2, some id, none⟩] } id := by
  intro place later counts
  obtain ⟨old, before⟩ := (Quiet.append fun _ => running).counts place later counts
  have there := counts.1
  rw [List.getElem?_append_left (List.getElem?_eq_some_iff.mp before.1).1] at there
  cases before.1.symm.trans there
  exact held place _ before

/-- A transaction of another request commits nothing of the group. -/
theorem live_of_foreign (apart : ∀ version ∈ table.versions, group.mine version.key →
      version.inserter ≠ some id ∧ version.deleter ≠ some id) (member : version ∈ table.versions) (mine : group.mine version.key) :
    (table.close id .committed).Live version ↔ table.Live version := by
  by_cases running : table.fate id = .running
  · obtain ⟨uninserted, undeleted⟩ := apart version member mine
    rw [Table.live_commit running, or_iff_left uninserted, and_iff_left undeleted, Table.Live]
  · rw [Table.close_of_ended running]

theorem Quiet.foreign (apart : ∀ version ∈ table.versions, group.mine version.key →
      version.inserter ≠ some id ∧ version.deleter ≠ some id) : group.Quiet table (table.close id .committed) := by
  refine .of_iff (fun place later ⟨there, live, mine⟩ => ?_) fun place old ⟨there, live, mine⟩ => ?_
  · rw [Table.close_versions] at there
    exact ⟨later, there, (live_of_foreign apart (List.mem_of_getElem? there) mine).mp live, mine⟩
  · refine ⟨old, ⟨?_, (live_of_foreign apart (List.mem_of_getElem? there) mine).mpr live, mine⟩, rfl⟩
    rwa [Table.close_versions]

theorem rows_foreign (apart : ∀ version ∈ table.versions, group.mine version.key →
      version.inserter ≠ some id ∧ version.deleter ≠ some id) :
    group.rows (table.close id .committed) = group.rows table := by
  rw [rows_eq, rows_eq, Table.close_versions]
  congr 1
  refine List.filter_congr fun version member => ?_
  by_cases mine : group.mine version.key
  · simp only [mine, Bool.and_true, decide_eq_decide]
    exact live_of_foreign apart member mine
  · simp [mine]

theorem mem_inserted (member : version ∈ table.versions) (own : version.inserter = some id) :
    (version.key, version.row) ∈ table.inserted id := by
  exact List.mem_map.mpr ⟨version, List.mem_filter.mpr ⟨member, by simpa using own⟩, rfl⟩

/-- A transaction that has inserted nothing has deleted all rows of the group, or none. -/
theorem counts_clear (running : table.fate id = .running) (wrote : group.Wrote table id []) :
    (∀ index later, ¬ group.Counts (table.close id .committed) index later) ∨
      ∀ version ∈ table.versions, group.mine version.key →
        ((table.close id .committed).Live version ↔ table.Live version) := by
  have uninserted {version : Version κ R} (member : version ∈ table.versions) : version.inserter ≠ some id := fun own => by
    have listed := mem_inserted member own
    rw [wrote.inserted] at listed
    contradiction
  rcases wrote.before rfl with all | ⟨_, none⟩
  · refine .inl fun index later ⟨there, live, mine⟩ => ?_
    rw [Table.close_versions] at there
    rw [Table.live_commit running, or_iff_left (uninserted (List.mem_of_getElem? there))] at live
    rcases all index later ⟨there, ⟨live.1, live.2.1⟩, mine⟩ with pending | deleted
    · contradiction
    · exact live.2.2 deleted
  · refine .inr fun version member mine => ?_
    rw [Table.live_commit running, or_iff_left (uninserted member), ← and_assoc]
    refine and_iff_left_of_imp fun live => ?_
    obtain ⟨index, found⟩ := List.getElem?_of_mem member
    exact (none index version ⟨found, live, mine⟩).2

theorem Quiet.clear (running : table.fate id = .running) (wrote : group.Wrote table id []) :
    group.Quiet table (table.close id .committed) := by
  rcases counts_clear running wrote with none | same
  · exact ⟨fun index later counts => absurd counts (none index later), fun _ index later counts => absurd counts (none index later)⟩
  · refine .of_iff (fun place later ⟨there, live, mine⟩ => ?_) fun place old ⟨there, live, mine⟩ => ?_
    · rw [Table.close_versions] at there
      exact ⟨later, there, (same later (List.mem_of_getElem? there) mine).mp live, mine⟩
    · refine ⟨old, ⟨?_, (same old (List.mem_of_getElem? there) mine).mpr live, mine⟩, rfl⟩
      rwa [Table.close_versions]

theorem rows_clear (running : table.fate id = .running) (wrote : group.Wrote table id []) :
    group.rows (table.close id .committed) = [] ∨ group.rows (table.close id .committed) = group.rows table := by
  rcases counts_clear running wrote with none | same
  · left
    rw [rows_eq, List.map_eq_nil_iff, List.filter_eq_nil_iff]
    intro version member counts
    simp only [Bool.and_eq_true, decide_eq_true_eq] at counts
    obtain ⟨index, found⟩ := List.getElem?_of_mem member
    exact none index version ⟨found, counts⟩
  · right
    rw [rows_eq, rows_eq, Table.close_versions]
    congr 1
    refine List.filter_congr fun version member => ?_
    by_cases mine : group.mine version.key
    · simp only [mine, Bool.and_true, decide_eq_decide]
      exact same version member mine
    · simp [mine]

/-- When a transaction that holds the group commits, exactly its own rows count. -/
theorem live_held (running : table.fate id = .running) (held : group.Held table id)
    (unread : ∀ version ∈ table.versions, version.inserter = some id → version.deleter = none)
    (owned : ∀ version ∈ table.versions, version.inserter = some id → group.mine version.key)
    (member : version ∈ table.versions) :
    (table.close id .committed).Live version ∧ group.mine version.key ↔ version.inserter = some id := by
  rw [Table.live_commit running]
  constructor
  · rintro ⟨⟨entered | own, kept, undeleted⟩, mine⟩
    · obtain ⟨index, found⟩ := List.getElem?_of_mem member
      exact absurd (held index version ⟨found, ⟨entered, kept⟩, mine⟩) undeleted
    · exact own
  · intro own
    have undeleted := unread version member own
    refine ⟨⟨.inr own, ?_, by rw [undeleted]; exact nofun⟩, owned version member own⟩
    rintro ⟨_, deleted, _⟩
    rw [undeleted] at deleted
    contradiction

theorem rows_held (running : table.fate id = .running) (held : group.Held table id)
    (unread : ∀ version ∈ table.versions, version.inserter = some id → version.deleter = none)
    (owned : ∀ version ∈ table.versions, version.inserter = some id → group.mine version.key) :
    group.rows (table.close id .committed) = table.inserted id := by
  rw [rows_eq, Table.close_versions, Table.inserted]
  congr 1
  refine List.filter_congr fun version member => ?_
  rw [← Bool.decide_coe (group.mine version.key), ← Bool.decide_and, decide_eq_decide]
  exact live_held running held unread owned member

theorem Taken.held (running : table.fate id = .running) (held : group.Held table id)
    (unread : ∀ version ∈ table.versions, version.inserter = some id → version.deleter = none)
    (owned : ∀ version ∈ table.versions, version.inserter = some id → group.mine version.key)
    (lead : ∃ row ∈ table.inserted id, row.1 = group.first) (empty : table.inserted other = []) :
    group.Taken table (table.close id .committed) other where
  counts index later := by
    rintro ⟨there, live, mine⟩
    rw [Table.close_versions] at there
    have member := List.mem_of_getElem? there
    have own := (live_held running held unread owned member).mp ⟨live, mine⟩
    refine ⟨unread later member own, fun version found entered => ?_⟩
    cases there.symm.trans found
    have committed := entered id own
    rw [running] at committed
    contradiction
  led := by
    intro _ _ _
    obtain ⟨row, listed, first⟩ := lead
    obtain ⟨version, inserted, rfl⟩ := List.mem_map.mp listed
    obtain ⟨member, own⟩ := List.mem_filter.mp inserted
    obtain ⟨index, found⟩ := List.getElem?_of_mem member
    obtain ⟨live, mine⟩ := (live_held running held unread owned member).mpr (of_decide_eq_true own)
    exact ⟨index, version, ⟨by rwa [Table.close_versions], live, mine⟩, first⟩
  empty := empty

end Steps

end Group

end RowVersions
