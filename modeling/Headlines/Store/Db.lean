import Headlines.Core.Error
import Headlines.ReadCommitted.Throwing
import Headlines.Store.Schema

/-! # Statements as the repositories issue them

Every statement that fails becomes an internal error with a context of its own. A query either
allows a missing row or takes it for a failure. The clock and fresh identifiers come from outside.
-/

namespace Headlines.Store

open Core ReadCommitted

inductive Question where
  | now
  | nowV7
deriving DecidableEq

abbrev Answer : Question → Type
  | .now => Timestamp
  | .nowV7 => Uuid

/-- Repository code. -/
abbrev Db (ρ : Type) := Throwing Row Answer HeadlinesError ρ

namespace Db

/-- A failed statement, under the context its caller gives it. -/
def internal (context : String) (fault : Fault) : HeadlinesError := .internal context (.fault fault)

/-- Borrow a connection from the pool. -/
def get : Db Unit := Throwing.ping (internal "acquire diesel-async connection from deadpool")

def utcNow : Db Timestamp := Throwing.ask Question.now

/-- Query a row that may be missing. -/
def optional (key : Key) (context : String) : Db (Option (Row key)) :=
  Throwing.select key (internal context)

/-- Query a row that has to be there. -/
def first (key : Key) (context : String) : Db (Row key) := do
  let row ← optional key context
  Throwing.okOr row (.internal context .notFound)

/-- Query a row that may be missing, and lock it. -/
def forUpdate (key : Key) (context : String) : Db (Option (Row key)) :=
  Throwing.selectForUpdate key (internal context)

/-- Query many rows; what it finds is given by its caller. -/
def load {R : Type} (found : List R) (context : String) : Db (List R) := do
  Throwing.ping (internal context)
  return found

def insert (key : Key) (row : Row key) (context : String) : Db Unit :=
  Throwing.insert key row (internal context)

def update (key : Key) (change : Row key → Row key) (context : String) : Db ℕ :=
  Throwing.update key change (internal context)

def delete (key : Key) (context : String) : Db ℕ := Throwing.delete key (internal context)

/-- A statement outside a transaction commits on its own. -/
def execute (context : String) (statement : Db ρ) : Db ρ :=
  Throwing.commit (internal context) statement

def transaction (body : Db ρ) : Db ρ := Throwing.transaction (internal "tx") body

end Db

/-- An optional text column keeps an empty string as `NULL`. -/
def nonEmpty (s : String) : Option String := if s.isEmpty then none else some s

@[simp] theorem getD_nonEmpty (s : String) : (nonEmpty s).getD "" = s := by
  rw [nonEmpty]
  split
  · next empty => rw [Option.getD_none, String.isEmpty_iff.mp empty]
  · rfl

end Headlines.Store
