import Headlines.Store.Database
import Headlines.Store.Registry

/-! # `PgFollowRepo`

An edge between a user and an account is one row. Following and unfollowing read the row, decide by its status,
and write it in a second statement; neither runs in a transaction.
-/

namespace Headlines.Store

open Core Autocommit
open ReadCommitted (Fault)

/-- The row an `INSERT` makes, and what a conflict makes of the row that is there. -/
def FollowRow.following (userId accountId : Uuid) (now : Timestamp) : FollowRow where
  userId := userId
  accountId := accountId
  status := .active
  createdAt := now.stored
  unfollowedAt := none

def FollowRow.unfollow (row : FollowRow) (now : Timestamp) : FollowRow :=
  { row with status := .unfollowed, unfollowedAt := some now.stored }

/-- The rows of `follows` by their primary key. -/
structure FollowTable where
  row : Uuid → Uuid → Option FollowRow
  keyed : ∀ userId accountId found, row userId accountId = some found →
    found.userId = userId ∧ found.accountId = accountId

namespace FollowTable

/-- A row in the place of the one with the same key. -/
def put (table : FollowTable) (row : FollowRow) : FollowTable where
  row userId accountId := if userId = row.userId ∧ accountId = row.accountId then some row else table.row userId accountId
  keyed userId accountId found there := by
    split at there
    · next same =>
      cases there
      exact ⟨same.1.symm, same.2.symm⟩
    · exact table.keyed userId accountId found there

theorem put_row (table : FollowTable) (row : FollowRow) (userId accountId : Uuid) : (table.put row).row userId accountId =
    if userId = row.userId ∧ accountId = row.accountId then some row else table.row userId accountId := rfl

end FollowTable

/-- The tables the follow handlers touch. -/
structure FollowStore where
  registry : KeyStore
  follows : FollowTable

def FollowStore.putFollow (store : FollowStore) (row : FollowRow) : FollowStore :=
  { store with follows := store.follows.put row }

inductive FollowStatement where
  | registry (statement : RegistryStatement)
  | selectFollow (userId accountId : Uuid)
  | upsertFollow (userId accountId : Uuid) (now : Timestamp)
  | updateFollow (userId accountId : Uuid) (now : Timestamp)

abbrev FollowStatement.Result : FollowStatement → Type
  | .registry statement => statement.Result
  | .selectFollow .. => Option FollowRow
  | .upsertFollow .. => FollowRow
  | .updateFollow .. => Option FollowRow

/-- What a statement answers, and the store it leaves. -/
def FollowStatement.execute : (statement : FollowStatement) → FollowStore → Except Fault (statement.Result × FollowStore)
  | .registry statement, store => (statement.execute store.registry).map fun (result, after) =>
      (result, { store with registry := after })
  | .selectFollow userId accountId, store => .ok (store.follows.row userId accountId, store)
  | .upsertFollow userId accountId now, store =>
      -- The foreign keys are checked for a new row; those of an old one are not touched.
      if (store.follows.row userId accountId).isSome ||
          ((store.registry.users userId).isSome && (store.registry.accounts accountId).isSome) then
        .ok (.following userId accountId now, store.putFollow (.following userId accountId now))
      else .error .constraint
  | .updateFollow userId accountId now, store =>
      match store.follows.row userId accountId with
      | none => .ok (none, store)
      | some row => .ok (some (row.unfollow now), store.putFollow (row.unfollow now))

/-- Repository code whose statements commit on their own. -/
abbrev FollowDb (ρ : Type) := Autocommit.Throwing FollowStatement.Result Answer HeadlinesError ρ

namespace FollowDb

def execute (statement : FollowStatement) (context : String) : FollowDb statement.Result :=
  Throwing.execute statement (Db.internal context)

/-- Code of the repositories of accounts, users and keys. -/
def ofRegistry (call : RegistryDb ρ) : FollowDb ρ := Throwing.embed FollowStatement.registry call

/-- Borrow a connection from the pool. -/
def get : FollowDb Unit := ofRegistry RegistryDb.get

end FollowDb

namespace PgFollowRepo

/-- The second statement of `follow`. -/
def upsert (userId accountId : Uuid) (now : Timestamp) : FollowDb Follow := do
  let row : FollowRow ← FollowDb.execute (.upsertFollow userId accountId now) "upsert follow"
  return row.intoDomain

def follow (userId accountId : Uuid) : FollowDb Follow := do
  FollowDb.get
  let existing ← FollowDb.execute (.selectFollow userId accountId) "select follows"
  match existing.filter (·.status == .active) with
  | some row => return row.intoDomain
  | none =>
      let now ← Throwing.ask Question.now
      upsert userId accountId now

/-- The second statement of `unfollow`, which takes no row for a failure. -/
def update (userId accountId : Uuid) (now : Timestamp) : FollowDb Follow := do
  let updated ← FollowDb.execute (.updateFollow userId accountId now) "update follow"
  let updated : FollowRow ← Throwing.okOr updated (.internal "update follow" .notFound)
  return updated.intoDomain

def unfollow (userId accountId : Uuid) : FollowDb Follow := do
  FollowDb.get
  let existing ← FollowDb.execute (.selectFollow userId accountId) "select follows"
  let row : FollowRow ← Throwing.okOr existing (.followNotFound userId accountId)
  match row.status with
  | .unfollowed => return row.intoDomain
  | .active =>
      let now ← Throwing.ask Question.now
      update userId accountId now

def get (userId accountId : Uuid) : FollowDb Follow := do
  FollowDb.get
  let row ← FollowDb.execute (.selectFollow userId accountId) "select follow"
  let row : FollowRow ← Throwing.okOr row (.followNotFound userId accountId)
  return row.intoDomain

end PgFollowRepo

end Headlines.Store
