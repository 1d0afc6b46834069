import Mathlib

/-! # Programs over a table store

A client program is a tree of statements: each reads or writes one row by its primary key, and the
client's control flow is the continuation. Rows are typed by their key. Everything a transaction
has written and not committed is its `Pending` overlay; a statement sees the committed contents under
that overlay, taken anew for each statement.
-/

namespace ReadCommitted

variable {κ ι : Type} [DecidableEq κ] {Row : κ → Type} {Answer : ι → Type} {ρ σ : Type}

/-- Committed rows by primary key. -/
abbrev Contents (Row : κ → Type) := (key : κ) → Option (Row key)

/-- Uncommitted writes by primary key; `some none` is a deletion. -/
abbrev Pending (Row : κ → Type) := (key : κ) → Option (Option (Row key))

/-- Why a statement failed. -/
inductive Fault where
  | lost
  | unique
  | constraint
deriving DecidableEq, Repr

/-- What one statement does, without its values. -/
inductive Statement (κ : Type) where
  | ping
  | select (key : κ)
  | selectForUpdate (key : κ)
  | insert (key : κ)
  | update (key : κ)
  | delete (key : κ)
  | commit
  | rollback

/-- A client program; `ask` consults the environment, such as a clock. -/
inductive Program (Row : κ → Type) (Answer : ι → Type) (ρ : Type) : Type
  | done (result : ρ)
  | ask (question : ι) (rest : Answer question → Program Row Answer ρ)
  | ping (rest : Except Fault Unit → Program Row Answer ρ)
  | select (key : κ) (rest : Except Fault (Option (Row key)) → Program Row Answer ρ)
  | selectForUpdate (key : κ) (rest : Except Fault (Option (Row key)) → Program Row Answer ρ)
  | insert (key : κ) (row : Row key) (rest : Except Fault Unit → Program Row Answer ρ)
  | update (key : κ) (change : Row key → Row key) (rest : Except Fault ℕ → Program Row Answer ρ)
  | delete (key : κ) (rest : Except Fault ℕ → Program Row Answer ρ)
  | commit (rest : Except Fault Unit → Program Row Answer ρ)
  | rollback (rest : Program Row Answer ρ)

namespace Pending

/-- No writes. -/
def none : Pending Row := fun _ => Option.none

/-- Write one row, or delete it. -/
def set (pending : Pending Row) (key : κ) (row : Option (Row key)) : Pending Row :=
  Function.update pending key (some row)

/-- The writes after an update that found a row, or none. -/
def change (pending : Pending Row) (key : κ) (change : Row key → Row key) :
    Option (Row key) → Pending Row
  | Option.none => pending
  | some row => pending.set key (some (change row))

/-- The contents a transaction sees, and leaves when it commits. -/
def view (pending : Pending Row) (contents : Contents Row) : Contents Row :=
  fun key => (pending key).getD (contents key)

omit [DecidableEq κ] in
@[simp] theorem none_apply (key : κ) : (none : Pending Row) key = Option.none := rfl

omit [DecidableEq κ] in
@[simp] theorem view_none (contents : Contents Row) : none.view contents = contents := rfl

@[simp] theorem set_self (pending : Pending Row) (key : κ) (row : Option (Row key)) :
    pending.set key row key = some row := Function.update_self ..

@[simp] theorem set_set (pending : Pending Row) (key : κ) (first second : Option (Row key)) :
    (pending.set key first).set key second = pending.set key second := Function.update_idem ..

@[simp] theorem change_none (pending : Pending Row) (key : κ) (change : Row key → Row key) :
    pending.change key change Option.none = pending := rfl

@[simp] theorem change_some (pending : Pending Row) (key : κ) (change : Row key → Row key)
    (row : Row key) : pending.change key change (some row) = pending.set key (some (change row)) := rfl

@[simp] theorem set_of_ne (pending : Pending Row) {key other : κ} (differs : other ≠ key)
    (row : Option (Row key)) : pending.set key row other = pending other :=
  Function.update_of_ne differs ..

theorem change_of_ne (pending : Pending Row) {key other : κ} (differs : other ≠ key)
    (change : Row key → Row key) (found : Option (Row key)) :
    pending.change key change found other = pending other := by
  cases found with
  | none => rfl
  | some row => exact set_of_ne pending differs _

@[simp] theorem view_set_self (pending : Pending Row) (key : κ) (row : Option (Row key))
    (contents : Contents Row) : (pending.set key row).view contents key = row := by
  rw [view, set_self, Option.getD_some]

@[simp] theorem view_set_of_ne (pending : Pending Row) {key other : κ} (differs : other ≠ key)
    (row : Option (Row key)) (contents : Contents Row) :
    (pending.set key row).view contents other = pending.view contents other := by
  rw [view, set_of_ne pending differs, view]

theorem view_change_of_ne (pending : Pending Row) {key other : κ} (differs : other ≠ key)
    (change : Row key → Row key) (found : Option (Row key)) (contents : Contents Row) :
    (pending.change key change found).view contents other = pending.view contents other := by
  rw [view, change_of_ne pending differs, view]

omit [DecidableEq κ] in
theorem view_of_none {pending : Pending Row} {key : κ} (untouched : pending key = Option.none)
    (contents : Contents Row) : pending.view contents key = contents key := by
  rw [view, untouched, Option.getD_none]

end Pending

namespace Program

/-- The statement a program is about to run; asking and being done are none. -/
def statement : Program Row Answer ρ → Option (Statement κ)
  | .done _ | .ask .. => none
  | .ping _ => some .ping
  | .select key _ => some (.select key)
  | .selectForUpdate key _ => some (.selectForUpdate key)
  | .insert key .. => some (.insert key)
  | .update key .. => some (.update key)
  | .delete key _ => some (.delete key)
  | .commit _ => some .commit
  | .rollback _ => some .rollback

def bind (program : Program Row Answer ρ) (next : ρ → Program Row Answer σ) :
    Program Row Answer σ :=
  match program with
  | .done result => next result
  | .ask question rest => .ask question fun answer => (rest answer).bind next
  | .ping rest => .ping fun outcome => (rest outcome).bind next
  | .select key rest => .select key fun outcome => (rest outcome).bind next
  | .selectForUpdate key rest => .selectForUpdate key fun outcome => (rest outcome).bind next
  | .insert key row rest => .insert key row fun outcome => (rest outcome).bind next
  | .update key change rest => .update key change fun outcome => (rest outcome).bind next
  | .delete key rest => .delete key fun outcome => (rest outcome).bind next
  | .commit rest => .commit fun outcome => (rest outcome).bind next
  | .rollback rest => .rollback (rest.bind next)

omit [DecidableEq κ] in
theorem bind_done (program : Program Row Answer ρ) : program.bind .done = program := by
  induction program with
  | done result => rfl
  | ask question rest ih => exact congrArg (ask question) (funext ih)
  | ping rest ih => exact congrArg ping (funext ih)
  | select key rest ih => exact congrArg (select key) (funext ih)
  | selectForUpdate key rest ih => exact congrArg (selectForUpdate key) (funext ih)
  | insert key row rest ih => exact congrArg (insert key row) (funext ih)
  | update key change rest ih => exact congrArg (update key change) (funext ih)
  | delete key rest ih => exact congrArg (delete key) (funext ih)
  | commit rest ih => exact congrArg commit (funext ih)
  | rollback rest ih => exact congrArg rollback ih

instance : Monad (Program Row Answer) where
  pure := .done
  bind := bind

/-- Constraints of the schema on a row, against the contents it is written into. -/
abbrev Admits (Row : κ → Type) := Contents Row → (key : κ) → Row key → Bool

/-- One statement that does not fail for lack of a connection. `free` tells which rows no other
transaction has written; a statement that needs one that is not free has to wait. A violation ends
the transaction. The flag says that the writes were committed. -/
def proceed (admits : Admits Row) (contents : Contents Row) (free : κ → Prop) [DecidablePred free]
    (pending : Pending Row) : Program Row Answer ρ → Option (Program Row Answer ρ × Pending Row × Bool)
  | .done _ | .ask .. => none
  | .ping rest => some (rest (.ok ()), pending, false)
  | .select key rest => some (rest (.ok (pending.view contents key)), pending, false)
  | .selectForUpdate key rest =>
      match pending.view contents key with
      | none => some (rest (.ok none), pending, false)
      | some row => if free key then some (rest (.ok (some row)), pending.set key (some row), false) else none
  | .insert key row rest =>
      if free key then
        if (pending.view contents key).isSome then some (rest (.error .unique), .none, false)
        else if admits (pending.view contents) key row then
          some (rest (.ok ()), pending.set key (some row), false)
        else some (rest (.error .constraint), .none, false)
      else none
  | .update key change rest =>
      match pending.view contents key with
      | none => some (rest (.ok 0), pending, false)
      | some row =>
          if free key then
            if admits (pending.view contents) key (change row) then
              some (rest (.ok 1), pending.set key (some (change row)), false)
            else some (rest (.error .constraint), .none, false)
          else none
  | .delete key rest =>
      match pending.view contents key with
      | none => some (rest (.ok 0), pending, false)
      | some _ => if free key then some (rest (.ok 1), pending.set key none, false) else none
  | .commit rest => some (rest (.ok ()), .none, true)
  | .rollback rest => some (rest, .none, false)

theorem statement_of_committed {admits : Admits Row} {contents : Contents Row} {free : κ → Prop} [DecidablePred free]
    {pending written : Pending Row} {program after : Program Row Answer ρ}
    (step : program.proceed admits contents free pending = some (after, written, true)) :
    program.statement = some .commit := by
  cases program with
  | commit => rfl
  | _ =>
    simp only [proceed] at step
    repeat' split at step
    all_goals simp at step

/-- The statement fails for lack of a connection, which ends the transaction. -/
def fail : Program Row Answer ρ → Option (Program Row Answer ρ)
  | .done _ | .ask .. | .rollback _ => none
  | .ping rest => some (rest (.error .lost))
  | .select _ rest => some (rest (.error .lost))
  | .selectForUpdate _ rest => some (rest (.error .lost))
  | .insert _ _ rest => some (rest (.error .lost))
  | .update _ _ rest => some (rest (.error .lost))
  | .delete _ rest => some (rest (.error .lost))
  | .commit rest => some (rest (.error .lost))

/-- The answer to what a program asks. -/
def answer [DecidableEq ι] (question : ι) (value : Answer question) :
    Program Row Answer ρ → Option (Program Row Answer ρ)
  | .ask asked rest => if same : question = asked then some (rest (same ▸ value)) else none
  | _ => none

end Program

end ReadCommitted
