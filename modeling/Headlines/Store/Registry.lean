import Headlines.Store.KeyRepo

/-! # Writing accounts and users

What `PgAccountRepo` and `PgUserRepo` write. None of their statements is in a transaction: a row and its first
key are inserted by two statements, and an update of several columns is one statement for each.
-/

namespace Headlines.Store

open Core Autocommit
open ReadCommitted (Fault)

/-- What one `UPDATE` of an account sets, besides `updated_at`. -/
inductive AccountField where
  | shortName (value : String)
  | authorName (value : String)
  | authorUrl (value : Option String)
deriving DecidableEq

namespace AccountField

def apply (now : Timestamp) (row : AccountRow) : AccountField → AccountRow
  | .shortName value => { row with shortName := value, updatedAt := now.stored }
  | .authorName value => { row with authorName := value, updatedAt := now.stored }
  | .authorUrl value => { row with authorUrl := value, updatedAt := now.stored }

def storable : AccountField → Bool
  | .shortName value | .authorName value => storableText value
  | .authorUrl value => value.all storableText

end AccountField

def AccountRow.delete (row : AccountRow) (now : Timestamp) : AccountRow :=
  { row with status := .deleted, deletedAt := some now.stored, updatedAt := now.stored }

def UserRow.delete (row : UserRow) (now : Timestamp) : UserRow :=
  { row with status := .deleted, deletedAt := some now.stored }

def KeyStore.setAccount (store : KeyStore) (id : Uuid) (row : AccountRow) : KeyStore :=
  { store with accounts := Function.update store.accounts id (some row) }

def KeyStore.setUser (store : KeyStore) (id : Uuid) (row : UserRow) : KeyStore :=
  { store with users := Function.update store.users id (some row) }

/-- The statements of the key repository, and those that write accounts and users. -/
inductive RegistryStatement where
  | keys (statement : KeyStatement)
  | insertAccount (id : Uuid) (row : AccountRow)
  | updateAccount (id : Uuid) (field : AccountField) (now : Timestamp)
  | deleteAccount (id : Uuid) (now : Timestamp)
  | insertUser (id : Uuid) (row : UserRow)
  | updateUser (id : Uuid) (displayName : Option String)
  | deleteUser (id : Uuid) (now : Timestamp)

/-- An `UPDATE` answers with the number of rows, or with the row when it returns it. -/
abbrev RegistryStatement.Result : RegistryStatement → Type
  | .keys statement => statement.Result
  | .insertAccount .. => AccountRow
  | .updateAccount .. => ℕ
  | .deleteAccount .. => Option AccountRow
  | .insertUser .. => UserRow
  | .updateUser .. => ℕ
  | .deleteUser .. => Option UserRow

/-- What a statement answers, and the store it leaves. -/
def RegistryStatement.execute : (statement : RegistryStatement) → KeyStore → Except Fault (statement.Result × KeyStore)
  | .keys statement, store => statement.execute store
  | .insertAccount id row, store =>
      if (store.accounts id).isSome then .error .unique
      else if storableText row.shortName && storableText row.authorName && row.authorUrl.all storableText then
        .ok (row, store.setAccount id row)
      else .error .constraint
  | .updateAccount id field now, store =>
      if field.storable then
        match store.accounts id with
        | none => .ok (0, store)
        | some row => .ok (1, store.setAccount id (field.apply now row))
      else .error .constraint
  | .deleteAccount id now, store =>
      match store.accounts id with
      | none => .ok (none, store)
      | some row => .ok (some (row.delete now), store.setAccount id (row.delete now))
  | .insertUser id row, store =>
      if (store.users id).isSome then .error .unique
      else if row.displayName.all storableText then .ok (row, store.setUser id row)
      else .error .constraint
  | .updateUser id displayName, store =>
      if displayName.all storableText then
        match store.users id with
        | none => .ok (0, store)
        | some row => .ok (1, store.setUser id { row with displayName := displayName })
      else .error .constraint
  | .deleteUser id now, store =>
      match store.users id with
      | none => .ok (none, store)
      | some row => .ok (some (row.delete now), store.setUser id (row.delete now))

/-- Repository code whose statements commit on their own. -/
abbrev RegistryDb (ρ : Type) := Autocommit.Throwing RegistryStatement.Result Answer HeadlinesError ρ

namespace RegistryDb

def execute (statement : RegistryStatement) (context : String) : RegistryDb statement.Result :=
  Throwing.execute statement (Db.internal context)

/-- Code of the key repository. -/
def ofKeys (call : KeyDb ρ) : RegistryDb ρ := Throwing.embed RegistryStatement.keys call

/-- Borrow a connection from the pool. -/
def get : RegistryDb Unit := ofKeys KeyDb.get

/-- The row of an account. -/
def selectAccount (id : Uuid) (context : String) : RegistryDb (Option AccountRow) :=
  execute (.keys (.selectAccount id)) context

/-- The row of a user. -/
def selectUser (id : Uuid) (context : String) : RegistryDb (Option UserRow) :=
  execute (.keys (.selectUser id)) context

end RegistryDb

namespace PgAccountRepo

def create (new : NewAccount) : RegistryDb Account := do
  RegistryDb.get
  -- `created_at` and `updated_at` default to the clock of the database.
  let now ← Throwing.ask Question.now
  let row : AccountRow ← RegistryDb.execute
    (.insertAccount new.id
      { shortName := new.shortName, authorName := new.authorName, authorUrl := nonEmpty new.authorUrl,
        status := .active, deletedAt := none, createdAt := now.stored, updatedAt := now.stored })
    "insert account"
  return row.intoDomain new.id

/-- One `UPDATE` of an account, whose row count is not looked at. -/
def setField (id : Uuid) (now : Timestamp) (field : AccountField) (context : String) : RegistryDb Unit := do
  let _ ← RegistryDb.execute (.updateAccount id field now) context

def update (id : Uuid) (update : AccountUpdate) : RegistryDb Account := do
  RegistryDb.get
  let existing ← RegistryDb.selectAccount id "select account"
  let existing : AccountRow ← Throwing.okOr existing (.accountNotFound id)
  Throwing.require (existing.status != .deleted) (.accountDeleted id)
  let now ← Throwing.ask Question.now
  Throwing.whenSome update.shortName fun shortName => setField id now (.shortName shortName) "update short_name"
  Throwing.whenSome update.authorName fun authorName => setField id now (.authorName authorName) "update author_name"
  Throwing.whenSome update.authorUrl fun authorUrl =>
    setField id now (.authorUrl (nonEmpty authorUrl)) "update author_url"
  let updated ← RegistryDb.selectAccount id "re-read after update"
  let updated : AccountRow ← Throwing.okOr updated (.internal "re-read after update" .notFound)
  return updated.intoDomain id

def softDelete (id : Uuid) : RegistryDb Account := do
  RegistryDb.get
  let now ← Throwing.ask Question.now
  let updated ← RegistryDb.execute (.deleteAccount id now) "soft-delete"
  let updated : AccountRow ← Throwing.okOr updated (.accountNotFound id)
  return updated.intoDomain id

end PgAccountRepo

namespace PgUserRepo

def create (new : NewUser) : RegistryDb User := do
  RegistryDb.get
  -- `created_at` defaults to the clock of the database.
  let now ← Throwing.ask Question.now
  let row : UserRow ← RegistryDb.execute
    (.insertUser new.id
      { displayName := nonEmpty new.displayName, status := .active, deletedAt := none, createdAt := now.stored })
    "insert user"
  return row.intoDomain new.id

def update (id : Uuid) (update : UserUpdate) : RegistryDb User := do
  RegistryDb.get
  let existing ← RegistryDb.selectUser id "select user"
  let existing : UserRow ← Throwing.okOr existing (.userNotFound id)
  Throwing.require (existing.status != .deleted) (.userDeleted id)
  Throwing.whenSome update.displayName fun displayName => do
    let _ ← RegistryDb.execute (.updateUser id (nonEmpty displayName)) "update display_name"
  let updated ← RegistryDb.selectUser id "re-read after update"
  let updated : UserRow ← Throwing.okOr updated (.internal "re-read after update" .notFound)
  return updated.intoDomain id

def softDelete (id : Uuid) : RegistryDb User := do
  RegistryDb.get
  let now ← Throwing.ask Question.now
  let updated ← RegistryDb.execute (.deleteUser id now) "soft-delete user"
  let updated : UserRow ← Throwing.okOr updated (.userNotFound id)
  return updated.intoDomain id

end PgUserRepo

end Headlines.Store
