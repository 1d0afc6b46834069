import Headlines.Core.Auth
import Headlines.Store.Keys

/-! # `PostgresKeyResolver`

Each key table is asked for its first active row with the key id and, if there is none, for any row with
it. The answer depends on how many tables had an active row.
-/

namespace Headlines.Auth

open Core Store

structure ActiveMatch where
  table : String
  resolved : ResolvedKey

/-- One of the three tables, with the subject its keys authenticate as. -/
structure Arm where
  table : String
  rows : List KeyRow
  subject : KeyRow → Subject

namespace Arm

def accountKeys (tables : KeyTables) : Arm where
  table := "account_keys"
  rows := tables.accountKeys.rows
  subject row := .account row.parentId row.keyId

def userKeys (tables : KeyTables) : Arm where
  table := "user_keys"
  rows := tables.userKeys.rows
  subject row := .user row.parentId row.keyId

def systemKeys (tables : KeyTables) : Arm where
  table := "system_keys"
  rows := tables.systemKeys.rows
  subject row := .system row.parentId row.keyId
    ((tables.systemScopes.filter fun scope => scope.1 = row.parentId).map Prod.snd)

/-- `.filter(key_id).filter(status = 'active').first()`. -/
def firstActive (arm : Arm) (keyId : Uuid) : Option KeyRow :=
  arm.rows.find? fun row => row.keyId = keyId ∧ row.status = .active

/-- `.filter(key_id).first()`, for the status alone. -/
def firstStatus (arm : Arm) (keyId : Uuid) : Option KeyStatus :=
  (arm.rows.find? fun row => row.keyId = keyId).map KeyRow.status

/-- What one table contributes: an active match, or the fact that it has the key in another state. -/
def probe (decode : String → Except String (List UInt8)) (keyId : Uuid) (arm : Arm) :
    Except ResolveError (List ActiveMatch × List String) :=
  match arm.firstActive keyId with
  | some row =>
      match decode row.publicKey with
      | .ok publicKey => .ok ([⟨arm.table, ⟨row.algo, publicKey, arm.subject row⟩⟩], [])
      | .error text => .error (.internal ("base64 decode: " ++ text))
  | none => .ok ([], if (arm.firstStatus keyId).isSome then [arm.table] else [])

end Arm

/-- Probe the tables one after the other; the first failure ends it. -/
def gather (decode : String → Except String (List UInt8)) (keyId : Uuid) :
    List Arm → Except ResolveError (List ActiveMatch × List String)
  | [] => .ok ([], [])
  | arm :: rest => do
      let (active, nonactive) ← arm.probe decode keyId
      let (later, others) ← gather decode keyId rest
      return (active ++ later, nonactive ++ others)

/-- `{:?}` of a list of table names. -/
def debugTables (tables : List String) : String :=
  "[" ++ ", ".intercalate (tables.map fun table => "\"" ++ table ++ "\"") ++ "]"

/-- The exactly-one-active rule on what was gathered. -/
def exactlyOne (keyId : Uuid) : List ActiveMatch × List String → Except ResolveError ResolvedKey
  | ([], []) => .error .notFound
  | ([], _ :: _) => .error .revoked
  | ([found], _) => .ok found.resolved
  | (active, _) => .error (.internal ("cross-table key_id collision: " ++ keyId.display ++ " present in " ++
      debugTables (active.map ActiveMatch.table)))

def arms (tables : KeyTables) : List Arm :=
  [.accountKeys tables, .userKeys tables, .systemKeys tables]

/-- `PostgresKeyResolver::resolve` with a healthy database; `decode` is standard base64. -/
def resolve (decode : String → Except String (List UInt8)) (tables : KeyTables) (keyId : Uuid) :
    Except ResolveError ResolvedKey :=
  (gather decode keyId (arms tables)).bind (exactlyOne keyId)

end Headlines.Auth
