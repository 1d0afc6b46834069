import Headlines.Autocommit.System
import Headlines.RowVersions.Table

/-! # Sessions over row versions

Each session runs a program with at most one transaction on the table. A `DELETE` takes its snapshot when it starts and
reaches the versions of the snapshot one by one, in any order; an `INSERT` reaches its rows one by one; the steps of
other sessions come between. Any statement may fail, which aborts the transaction. Statements outside the table take
effect at once; they see the committed rows.
-/

namespace RowVersions

open ReadCommitted (Fault)
open Autocommit (Program Event)

variable {κ R T ι α ρ σ : Type}

/-- Statements on the table, in the session's transaction, and others. -/
inductive Statement (κ R T : Type) where
  | outside (statement : T)
  | begin
  | delete (p : κ → Bool)
  | insert (rows : List (κ × R))
  | commit
  | rollback

/-- A statement that writes the table answers with the number of rows. -/
abbrev Statement.Result (Result : T → Type) : Statement κ R T → Type
  | .outside statement => Result statement
  | .delete _ | .insert _ => ℕ
  | .begin | .commit | .rollback => Unit

/-- What is left to do of a statement that has started, with the rows it has written. -/
inductive Task (κ R : Type) where
  | deleting (todo : List ℕ) (count : ℕ)
  | inserting (todo : List (κ × R)) (count : ℕ)

structure Session (κ R : Type) (Result : T → Type) (Answer : ι → Type) (α ρ : Type) where
  request : α
  program : Program (Statement.Result (κ := κ) (R := R) Result) Answer ρ
  past : List (Event (Statement.Result (κ := κ) (R := R) Result) Answer)
  task : Option (Task κ R)

structure State (κ R : Type) (Result : T → Type) (Answer : ι → Type) (α ρ σ : Type) where
  table : Table κ R
  store : σ
  sessions : ℕ → Option (Session κ R Result Answer α ρ)

/-- What other statements do, which rows the constraints admit, how many rows one `INSERT` can carry, and the program of
each request. -/
structure System (κ R : Type) (Result : T → Type) (Answer : ι → Type) (α ρ σ : Type) where
  execute : (statement : T) → List (κ × R) → σ → Except Fault (Result statement × σ)
  admits : σ → κ × R → Bool
  maxRows : ℕ
  program : α → Program (Statement.Result (κ := κ) (R := R) Result) Answer ρ

inductive Label (Answer : ι → Type) (α σ : Type) where
  | begin (session : ℕ) (request : α)
  | run (session : ℕ)
  | start (session : ℕ)
  | reach (session : ℕ) (index : ℕ)
  | put (session : ℕ)
  | finish (session : ℕ)
  | fail (session : ℕ) (fault : Fault)
  | answer (session : ℕ) (question : ι) (value : Answer question)
  | outside (store : σ)

variable {Result : T → Type} {Answer : ι → Type}

namespace State

/-- The session stands as given, and so does the table. -/
def move (s : State κ R Result Answer α ρ σ) (table : Table κ R) (id : ℕ) (session : Session κ R Result Answer α ρ) :
    State κ R Result Answer α ρ σ where
  table := table
  store := s.store
  sessions := Function.update s.sessions id (some session)

theorem move_sessions (s : State κ R Result Answer α ρ σ) (table : Table κ R) (id : ℕ)
    (session : Session κ R Result Answer α ρ) (other : ℕ) :
    (s.move table id session).sessions other = if other = id then some session else s.sessions other :=
  Function.update_apply ..

end State

namespace Session

/-- The session has been told the outcome of a statement. -/
def told (session : Session κ R Result Answer α ρ) (statement : Statement κ R T)
    (rest : Except Fault (statement.Result Result) → Program (Statement.Result (κ := κ) (R := R) Result) Answer ρ)
    (outcome : Except Fault (statement.Result Result)) : Session κ R Result Answer α ρ where
  request := session.request
  program := rest outcome
  past := .ran statement outcome :: session.past
  task := none

def work (session : Session κ R Result Answer α ρ) (task : Task κ R) : Session κ R Result Answer α ρ :=
  { session with task := some task }

end Session

namespace System

variable (system : System κ R Result Answer α ρ σ) [DecidableEq κ]

/-- A statement that takes effect at once. -/
def run (s : State κ R Result Answer α ρ σ) (id : ℕ) (session : Session κ R Result Answer α ρ) :
    Option (State κ R Result Answer α ρ σ) :=
  match session.program with
  | .run (.outside statement) rest =>
      match system.execute statement s.table.rows s.store with
      | .ok (result, store) =>
          some { s.move s.table id (session.told (.outside statement) rest (.ok result)) with store := store }
      | .error fault => some (s.move s.table id (session.told (.outside statement) rest (.error fault)))
  | .run .begin rest => some (s.move s.table id (session.told .begin rest (.ok ())))
  | .run .commit rest => some (s.move (s.table.close id .committed) id (session.told .commit rest (.ok ())))
  | .run .rollback rest => some (s.move (s.table.close id .aborted) id (session.told .rollback rest (.ok ())))
  | _ => none

/-- A statement on the table starts. -/
def start (s : State κ R Result Answer α ρ σ) (id : ℕ) (session : Session κ R Result Answer α ρ) :
    Option (State κ R Result Answer α ρ σ) :=
  match session.program with
  | .run (.delete p) _ => some (s.move s.table id (session.work (.deleting (s.table.visible id p) 0)))
  | .run (.insert rows) _ =>
      if rows.length ≤ system.maxRows then some (s.move s.table id (session.work (.inserting rows 0))) else none
  | _ => none

/-- A `DELETE` reaches a version. -/
def reach (s : State κ R Result Answer α ρ σ) (id index : ℕ) (session : Session κ R Result Answer α ρ) :
    Option (State κ R Result Answer α ρ σ) :=
  match session.task with
  | some (.deleting todo count) =>
      if index ∈ todo then
        (s.table.delete id index).map fun (table, deleted) =>
          s.move table id (session.work (.deleting (todo.erase index) (if deleted then count + 1 else count)))
      else none
  | _ => none

/-- An `INSERT` reaches a row. -/
def put (s : State κ R Result Answer α ρ σ) (id : ℕ) (session : Session κ R Result Answer α ρ) :
    Option (State κ R Result Answer α ρ σ) :=
  match session.task with
  | some (.inserting (row :: todo) count) =>
      if system.admits s.store row then
        (s.table.insert id row).map fun table => s.move table id (session.work (.inserting todo (count + 1)))
      else none
  | _ => none

/-- A statement on the table has reached everything. -/
def finish (s : State κ R Result Answer α ρ σ) (id : ℕ) (session : Session κ R Result Answer α ρ) :
    Option (State κ R Result Answer α ρ σ) :=
  match session.program, session.task with
  | .run (.delete p) rest, some (.deleting [] count) =>
      some (s.move s.table id (session.told (.delete p) rest (.ok count)))
  | .run (.insert rows) rest, some (.inserting [] count) =>
      some (s.move s.table id (session.told (.insert rows) rest (.ok count)))
  | _, _ => none

/-- A statement fails; one that is not outside the transaction aborts it. -/
def fail (s : State κ R Result Answer α ρ σ) (id : ℕ) (fault : Fault) (session : Session κ R Result Answer α ρ) :
    Option (State κ R Result Answer α ρ σ) :=
  match session.program with
  | .run (.outside statement) rest => some (s.move s.table id (session.told (.outside statement) rest (.error fault)))
  | .run statement rest => some (s.move (s.table.close id .aborted) id (session.told statement rest (.error fault)))
  | _ => none

variable [DecidableEq ι]

def answer (s : State κ R Result Answer α ρ σ) (id : ℕ) (question : ι) (value : Answer question)
    (session : Session κ R Result Answer α ρ) : Option (State κ R Result Answer α ρ σ) :=
  match session.program with
  | .ask asked rest =>
      if same : question = asked then
        some (s.move s.table id ⟨session.request, rest (same ▸ value), .asked question value :: session.past, none⟩)
      else none
  | _ => none

def next (s : State κ R Result Answer α ρ σ) : Label Answer α σ → Option (State κ R Result Answer α ρ σ)
  | .begin id request =>
      match s.sessions id with
      | some _ => none
      | none => some (s.move s.table id ⟨request, system.program request, [], none⟩)
  | .run id => (s.sessions id).bind (system.run s id)
  | .start id => (s.sessions id).bind fun session => if session.task.isNone then system.start s id session else none
  | .reach id index => (s.sessions id).bind (reach s id index)
  | .put id => (s.sessions id).bind (system.put s id)
  | .finish id => (s.sessions id).bind (finish s id)
  | .fail id fault => (s.sessions id).bind (fail s id fault)
  | .answer id question value => (s.sessions id).bind (answer s id question value)
  | .outside store => some { s with store := store }

/-- No call has been made, and the table holds rows from before. -/
def machine (initial : State κ R Result Answer α ρ σ → Prop) :
    Machine (State κ R Result Answer α ρ σ) (Label Answer α σ) where
  Start s := initial s ∧ (∀ version ∈ s.table.versions, version.inserter = none ∧ version.deleter = none) ∧
    (∀ id, s.table.fate id = .running) ∧ s.sessions = fun _ => none
  next := system.next

/-! ## What a step does -/

/-- The kinds of steps. -/
inductive Step (s : State κ R Result Answer α ρ σ) : State κ R Result Answer α ρ σ → Prop
  | begin {id : ℕ} (request : α) (unused : s.sessions id = none) :
      Step s (s.move s.table id ⟨request, system.program request, [], none⟩)
  | execute {id : ℕ} {session : Session κ R Result Answer α ρ} {statement : T}
      {rest : Except Fault (Result statement) → Program (Statement.Result Result) Answer ρ} {result : Result statement} {store : σ}
      (found : s.sessions id = some session) (runs : session.program = .run (.outside statement) rest)
      (done : system.execute statement s.table.rows s.store = .ok (result, store)) :
      Step s { s.move s.table id (session.told (.outside statement) rest (.ok result)) with store := store }
  | refuse {id : ℕ} {session : Session κ R Result Answer α ρ} {statement : T}
      {rest : Except Fault (Result statement) → Program (Statement.Result Result) Answer ρ} (fault : Fault)
      (found : s.sessions id = some session) (runs : session.program = .run (.outside statement) rest) :
      Step s (s.move s.table id (session.told (.outside statement) rest (.error fault)))
  | enter {id : ℕ} {session : Session κ R Result Answer α ρ} {rest : Except Fault Unit → Program (Statement.Result Result) Answer ρ}
      (found : s.sessions id = some session) (runs : session.program = .run .begin rest) :
      Step s (s.move s.table id (session.told .begin rest (.ok ())))
  | commit {id : ℕ} {session : Session κ R Result Answer α ρ} {rest : Except Fault Unit → Program (Statement.Result Result) Answer ρ}
      (found : s.sessions id = some session) (runs : session.program = .run .commit rest) :
      Step s (s.move (s.table.close id .committed) id (session.told .commit rest (.ok ())))
  | rollback {id : ℕ} {session : Session κ R Result Answer α ρ} {rest : Except Fault Unit → Program (Statement.Result Result) Answer ρ}
      (found : s.sessions id = some session) (runs : session.program = .run .rollback rest) :
      Step s (s.move (s.table.close id .aborted) id (session.told .rollback rest (.ok ())))
  | startDelete {id : ℕ} {session : Session κ R Result Answer α ρ} {p : κ → Bool}
      {rest : Except Fault ℕ → Program (Statement.Result Result) Answer ρ}
      (found : s.sessions id = some session) (runs : session.program = .run (.delete p) rest) (idle : session.task = none) :
      Step s (s.move s.table id (session.work (.deleting (s.table.visible id p) 0)))
  | startInsert {id : ℕ} {session : Session κ R Result Answer α ρ} {rows : List (κ × R)}
      {rest : Except Fault ℕ → Program (Statement.Result Result) Answer ρ}
      (found : s.sessions id = some session) (runs : session.program = .run (.insert rows) rest) (idle : session.task = none)
      (few : rows.length ≤ system.maxRows) :
      Step s (s.move s.table id (session.work (.inserting rows 0)))
  | reach {id index count next : ℕ} {session : Session κ R Result Answer α ρ} {todo : List ℕ} {table : Table κ R} {deleted : Bool}
      (found : s.sessions id = some session) (working : session.task = some (.deleting todo count)) (member : index ∈ todo)
      (reached : s.table.delete id index = some (table, deleted)) :
      Step s (s.move table id (session.work (.deleting (todo.erase index) next)))
  | put {id count next : ℕ} {session : Session κ R Result Answer α ρ} {row : κ × R} {todo : List (κ × R)} {table : Table κ R}
      (found : s.sessions id = some session) (working : session.task = some (.inserting (row :: todo) count))
      (put : s.table.insert id row = some table) :
      Step s (s.move table id (session.work (.inserting todo next)))
  | finishDelete {id count : ℕ} {session : Session κ R Result Answer α ρ} {p : κ → Bool}
      {rest : Except Fault ℕ → Program (Statement.Result Result) Answer ρ}
      (found : s.sessions id = some session) (runs : session.program = .run (.delete p) rest)
      (working : session.task = some (.deleting [] count)) :
      Step s (s.move s.table id (session.told (.delete p) rest (.ok count)))
  | finishInsert {id count : ℕ} {session : Session κ R Result Answer α ρ} {rows : List (κ × R)}
      {rest : Except Fault ℕ → Program (Statement.Result Result) Answer ρ}
      (found : s.sessions id = some session) (runs : session.program = .run (.insert rows) rest)
      (working : session.task = some (.inserting [] count)) :
      Step s (s.move s.table id (session.told (.insert rows) rest (.ok count)))
  | fail {id : ℕ} {session : Session κ R Result Answer α ρ} {statement : Statement κ R T}
      {rest : Except Fault (statement.Result Result) → Program (Statement.Result Result) Answer ρ} (fault : Fault)
      (found : s.sessions id = some session) (runs : session.program = .run statement rest)
      (inside : ∀ other, statement ≠ .outside other) :
      Step s (s.move (s.table.close id .aborted) id (session.told statement rest (.error fault)))
  | answer {id : ℕ} {session : Session κ R Result Answer α ρ} {question : ι}
      {rest : Answer question → Program (Statement.Result Result) Answer ρ} (value : Answer question)
      (found : s.sessions id = some session) (asks : session.program = .ask question rest) :
      Step s (s.move s.table id ⟨session.request, rest value, .asked question value :: session.past, none⟩)
  | outside (store : σ) : Step s { s with store := store }

variable {system} {s after : State κ R Result Answer α ρ σ} {id : ℕ} {session : Session κ R Result Answer α ρ}

omit [DecidableEq ι] in
private theorem step_of_run (found : s.sessions id = some session) (stepped : system.run s id session = some after) :
    system.Step s after := by
  rw [run] at stepped
  split at stepped
  · next statement rest runs =>
    split at stepped <;> cases stepped
    · next result store done => exact .execute found runs done
    · next fault _ => exact .refuse fault found runs
  · next rest runs =>
    cases stepped
    exact .enter found runs
  · next rest runs =>
    cases stepped
    exact .commit found runs
  · next rest runs =>
    cases stepped
    exact .rollback found runs
  · contradiction

omit [DecidableEq ι] in
private theorem step_of_start (found : s.sessions id = some session) (idle : session.task = none)
    (stepped : system.start s id session = some after) : system.Step s after := by
  rw [start] at stepped
  split at stepped
  · next p rest runs =>
    cases stepped
    exact .startDelete found runs idle
  · next rows rest runs =>
    split at stepped
    · next few =>
      cases stepped
      exact .startInsert found runs idle few
    · contradiction
  · contradiction

omit [DecidableEq ι] in
private theorem step_of_reach {index : ℕ} (found : s.sessions id = some session) (stepped : reach s id index session = some after) :
    system.Step s after := by
  rw [reach] at stepped
  split at stepped
  · next todo count working =>
    split at stepped
    · next member =>
      obtain ⟨_, reached, rfl⟩ := Option.map_eq_some_iff.mp stepped
      exact .reach found working member reached
    · contradiction
  · contradiction

omit [DecidableEq ι] in
private theorem step_of_put (found : s.sessions id = some session) (stepped : system.put s id session = some after) :
    system.Step s after := by
  rw [put] at stepped
  split at stepped
  · next row todo count working =>
    split at stepped
    · obtain ⟨_, put, rfl⟩ := Option.map_eq_some_iff.mp stepped
      exact .put found working put
    · contradiction
  · contradiction

omit [DecidableEq ι] in
private theorem step_of_finish (found : s.sessions id = some session) (stepped : finish s id session = some after) :
    system.Step s after := by
  rw [finish] at stepped
  split at stepped
  · next p rest count runs working =>
    cases stepped
    exact .finishDelete found runs working
  · next rows rest count runs working =>
    cases stepped
    exact .finishInsert found runs working
  · contradiction

omit [DecidableEq ι] in
private theorem step_of_fail {fault : Fault} (found : s.sessions id = some session) (stepped : fail s id fault session = some after) :
    system.Step s after := by
  rw [fail] at stepped
  split at stepped
  · next statement rest runs =>
    cases stepped
    exact .refuse fault found runs
  · next statement rest inside runs =>
    cases stepped
    refine .fail fault found runs fun other same => ?_
    subst same
    exact inside other rest rfl .rfl
  · contradiction

private theorem step_of_answer {question : ι} {value : Answer question} (found : s.sessions id = some session)
    (stepped : answer s id question value session = some after) : system.Step s after := by
  rw [answer] at stepped
  split at stepped
  · next asked rest asks =>
    split at stepped
    · next same =>
      subst same
      cases stepped
      exact .answer value found asks
    · contradiction
  · contradiction

theorem step_of_next {label : Label Answer α σ} (stepped : system.next s label = some after) : system.Step s after := by
  cases label with
  | begin id request =>
    rw [next] at stepped
    split at stepped
    · contradiction
    · next unused =>
      cases stepped
      exact .begin request unused
  | run id =>
    obtain ⟨session, found, stepped⟩ := Option.bind_eq_some_iff.mp stepped
    exact step_of_run found stepped
  | start id =>
    obtain ⟨session, found, stepped⟩ := Option.bind_eq_some_iff.mp stepped
    split at stepped
    · next idle => exact step_of_start found (Option.isNone_iff_eq_none.mp idle) stepped
    · contradiction
  | reach id index =>
    obtain ⟨session, found, stepped⟩ := Option.bind_eq_some_iff.mp stepped
    exact step_of_reach found stepped
  | put id =>
    obtain ⟨session, found, stepped⟩ := Option.bind_eq_some_iff.mp stepped
    exact step_of_put found stepped
  | finish id =>
    obtain ⟨session, found, stepped⟩ := Option.bind_eq_some_iff.mp stepped
    exact step_of_finish found stepped
  | fail id fault =>
    obtain ⟨session, found, stepped⟩ := Option.bind_eq_some_iff.mp stepped
    exact step_of_fail found stepped
  | answer id question value =>
    obtain ⟨session, found, stepped⟩ := Option.bind_eq_some_iff.mp stepped
    exact step_of_answer found stepped
  | outside store =>
    cases stepped
    exact .outside store

end System

end RowVersions
