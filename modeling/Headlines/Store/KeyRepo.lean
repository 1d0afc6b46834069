import Headlines.Autocommit.System
import Headlines.Store.Accounts
import Headlines.Store.Keys

/-! # `PgKeyRepo`

The statements the key repository runs, none of them in a transaction, with the look-up of the account or
user they belong to. Only account and user keys are wired up; system keys are not.
-/

namespace Headlines.Store

open Core Autocommit
open ReadCommitted (Fault)

inductive UserStatus where
  | active
  | deleted
deriving DecidableEq, Repr

structure UserRow where
  displayName : Option String
  status : UserStatus
  deletedAt : Option Timestamp
  createdAt : Timestamp

structure User where
  id : Uuid
  displayName : String
  status : UserStatus
  deletedAt : Option Timestamp
  createdAt : Timestamp

def UserRow.intoDomain (id : Uuid) (row : UserRow) : User where
  id := id
  displayName := row.displayName.getD ""
  status := row.status
  deletedAt := row.deletedAt
  createdAt := row.createdAt

inductive KeyKind where
  | account
  | user
  | system
deriving DecidableEq, Repr

structure StoredKey where
  kind : KeyKind
  parentId : Uuid
  keyId : Uuid
  algo : String
  publicKey : String
  status : KeyStatus
  createdAt : Timestamp
  revokedAt : Option Timestamp

structure NewKey where
  kind : KeyKind
  parentId : Uuid
  keyId : Uuid
  algo : String
  publicKey : String

def KeyRow.intoDomain (kind : KeyKind) (row : KeyRow) : StoredKey where
  kind := kind
  parentId := row.parentId
  keyId := row.keyId
  algo := row.algo
  publicKey := row.publicKey
  status := row.status
  createdAt := row.createdAt
  revokedAt := row.revokedAt

/-- The tables the key handlers touch. -/
structure KeyStore where
  accounts : Uuid → Option AccountRow
  users : Uuid → Option UserRow
  keys : KeyKind → KeyTable

def KeyStore.setKeys (store : KeyStore) (kind : KeyKind) (table : KeyTable) : KeyStore :=
  { store with keys := Function.update store.keys kind table }

@[simp] theorem KeyStore.setKeys_self (store : KeyStore) (kind : KeyKind) (table : KeyTable) :
    (store.setKeys kind table).keys kind = table := Function.update_self ..

@[simp] theorem KeyStore.setKeys_of_ne (store : KeyStore) {kind other : KeyKind} (differs : other ≠ kind)
    (table : KeyTable) : (store.setKeys kind table).keys other = store.keys other := Function.update_of_ne differs ..

/-- The foreign key of a key table. -/
def KeyStore.hasParent (store : KeyStore) (kind : KeyKind) (parentId : Uuid) : Bool :=
  match kind with
  | .account => (store.accounts parentId).isSome
  | .user => (store.users parentId).isSome
  | .system => false

inductive KeyStatement where
  | acquire
  | selectAccount (id : Uuid)
  | selectUser (id : Uuid)
  | selectKey (kind : KeyKind) (parentId keyId : Uuid)
  | insertKey (kind : KeyKind) (row : KeyRow)
  | revokeKey (kind : KeyKind) (parentId keyId : Uuid) (now : Timestamp)
  | selectActive (kind : KeyKind) (parentId : Uuid)

abbrev KeyStatement.Result : KeyStatement → Type
  | .acquire => Unit
  | .selectAccount _ => Option AccountRow
  | .selectUser _ => Option UserRow
  | .selectKey .. => Option KeyRow
  | .insertKey .. => KeyRow
  | .revokeKey .. => Option KeyRow
  | .selectActive .. => List KeyRow

/-- What a statement answers, and the store it leaves. -/
def KeyStatement.execute : (statement : KeyStatement) → KeyStore → Except Fault (statement.Result × KeyStore)
  | .acquire, store => .ok ((), store)
  | .selectAccount id, store => .ok (store.accounts id, store)
  | .selectUser id, store => .ok (store.users id, store)
  | .selectKey kind parentId keyId, store => .ok ((store.keys kind).find parentId keyId, store)
  | .insertKey kind row, store =>
      match (store.keys kind).insert row with
      | none => .error .unique
      | some table =>
          if store.hasParent kind row.parentId && storableText row.algo && storableText row.publicKey then
            .ok (row, store.setKeys kind table)
          else .error .constraint
  | .revokeKey kind parentId keyId now, store =>
      let table := (store.keys kind).revoke parentId keyId now
      .ok (table.find parentId keyId, store.setKeys kind table)
  | .selectActive kind parentId, store => .ok ((store.keys kind).active parentId, store)

/-- Repository code whose statements commit on their own. -/
abbrev KeyDb (ρ : Type) := Autocommit.Throwing KeyStatement.Result Answer HeadlinesError ρ

namespace KeyDb

def execute (statement : KeyStatement) (context : String) : KeyDb statement.Result :=
  Throwing.execute statement (Db.internal context)

/-- Borrow a connection from the pool. -/
def get : KeyDb Unit := execute .acquire "acquire diesel-async connection from deadpool"

/-- `PgAccountRepo::get`. -/
def getAccount (id : Uuid) : KeyDb Account := do
  get
  let row ← execute (.selectAccount id) "select account"
  let row : AccountRow ← Throwing.okOr row (.accountNotFound id)
  return row.intoDomain id

/-- `PgUserRepo::get`. -/
def getUser (id : Uuid) : KeyDb User := do
  get
  let row ← execute (.selectUser id) "select user"
  let row : UserRow ← Throwing.okOr row (.userNotFound id)
  return row.intoDomain id

end KeyDb

/-- How the error texts call a row of the table. -/
def KeyKind.row : KeyKind → String
  | .account => "account_key"
  | .user => "user_key"
  | .system => "system_key"

namespace PgKeyRepo

def create (new : NewKey) : KeyDb StoredKey :=
  match new.kind with
  | .system => throw (.internal "PgKeyRepo::create for kind=System" .notImplemented)
  | kind => do
      KeyDb.get
      -- `created_at` defaults to the clock of the database.
      let now ← Throwing.ask Question.now
      let row : KeyRow ← KeyDb.execute
        (.insertKey kind
          { parentId := new.parentId, keyId := new.keyId, algo := new.algo, publicKey := new.publicKey,
            status := .active, createdAt := now.stored, revokedAt := none })
        ("insert " ++ kind.row)
      return row.intoDomain kind

def revoke (kind : KeyKind) (parentId keyId : Uuid) : KeyDb StoredKey :=
  match kind with
  | .system => throw (.keyNotFound keyId)
  | kind => do
      KeyDb.get
      let existing ← KeyDb.execute (.selectKey kind parentId keyId) ("select " ++ kind.row)
      let existing : KeyRow ← Throwing.okOr existing (.keyNotFound keyId)
      Throwing.require (existing.status != .revoked) (.keyAlreadyRevoked keyId)
      let now ← Throwing.ask Question.now
      let context := "revoke " ++ kind.row
      let updated ← KeyDb.execute (.revokeKey kind parentId keyId now) context
      let updated : KeyRow ← Throwing.okOr updated (.internal context .notFound)
      return updated.intoDomain kind

def listActive (kind : KeyKind) (parentId : Uuid) : KeyDb (List StoredKey) :=
  match kind with
  | .system => return []
  | kind => do
      KeyDb.get
      let rows ← KeyDb.execute (.selectActive kind parentId) ("list active " ++ kind.row ++ "s")
      return List.map (KeyRow.intoDomain kind) rows

end PgKeyRepo

end Headlines.Store
