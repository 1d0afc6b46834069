import Headlines.Api.Service
import Headlines.Auth.Strategy
import Headlines.Store.KeyRepo

/-! # The key handlers of the account and user services

Adding and revoking keys. A revoke counts the active keys first and refuses to take the last one, unless
the caller holds `admin.*`; the count, the look-up and the `UPDATE` are three statements.
-/

namespace Headlines.Api

open Core Autocommit Store

/-- Handler code over statements that commit on their own. -/
abbrev KeyHandler (ρ : Type) := Throwing KeyStatement.Result Answer Status ρ

structure ProtoPublicKey where
  algo : String
  publicKey : String

structure AddAccountKeyRequest where
  accountId : String
  key : Option ProtoPublicKey

structure RevokeAccountKeyRequest where
  accountId : String
  keyId : String

structure AddUserKeyRequest where
  userId : String
  key : Option ProtoPublicKey

structure RevokeUserKeyRequest where
  userId : String
  keyId : String

structure ProtoAccountKey where
  accountId : String
  keyId : String
  algo : String
  publicKey : String
  status : KeyStatus
  createdAt : Option ProtoTimestamp
  revokedAt : Option ProtoTimestamp

structure ProtoUserKey where
  userId : String
  keyId : String
  algo : String
  publicKey : String
  status : KeyStatus
  createdAt : Option ProtoTimestamp
  revokedAt : Option ProtoTimestamp

/-- What the handlers are built with: the text parsers, the algorithms and the base64 decoder. -/
structure KeyService where
  parsers : Parsers
  algorithms : AlgorithmRegistry
  decode : String → Except String (List UInt8)

namespace KeyHandler

/-- A repository call. -/
def repo (call : KeyDb ρ) : KeyHandler ρ := ExceptT.adapt .domain call

/-- A validation. -/
def check (outcome : Except HeadlinesError ρ) : KeyHandler ρ := Throwing.ofExcept (outcome.mapError .domain)

end KeyHandler

/-- The user itself, or a system that holds the scope. -/
def permittedUser (subject : Subject) (userId : Uuid) (scope : String) : Bool :=
  match subject with
  | .user .. => subject.isSelfFor (some userId) none
  | .system .. => subject.hasScope scope
  | _ => false

/-- The key is the one active key the count has found. -/
def lastActive (active : List StoredKey) (keyId : Uuid) : Bool :=
  active.any (·.keyId = keyId) && active.length == 1

variable (service : KeyService)

def validatePublicKey (pk : ProtoPublicKey) : Except HeadlinesError (String × String) := do
  if pk.algo.isEmpty then throw (.invalidArgument "initial_key.algo" "algo is required")
  if (service.algorithms pk.algo).isNone then throw (.unsupportedAlgorithm pk.algo)
  let decoded ← (service.decode pk.publicKey).mapError fun text => .invalidPublicKey ("base64 decode: " ++ text)
  if pk.algo = "ed25519" ∧ decoded.length ≠ 32 then
    throw (.invalidPublicKey ("ed25519 key must be 32 bytes, got " ++ toString decoded.length))
  return (pk.algo, pk.publicKey)

namespace AccountService

def keyToProto (key : StoredKey) : ProtoAccountKey where
  accountId := key.parentId.display
  keyId := key.keyId.display
  algo := key.algo
  publicKey := key.publicKey
  status := key.status
  createdAt := some (tsToProto key.createdAt)
  revokedAt := key.revokedAt.map tsToProto

def addAccountKey (subject : Subject) (request : AddAccountKeyRequest) : KeyHandler ProtoAccountKey := do
  let accountId ← KeyHandler.check (parseUuid service.parsers "account_id" request.accountId)
  Throwing.require (permitted subject accountId "accounts.admin") (.domain (.accountNotFound accountId))
  let account ← KeyHandler.repo (KeyDb.getAccount accountId)
  Throwing.require (account.status != .deleted) (.domain (.accountDeleted accountId))
  let pk ← Throwing.okOr request.key (.domain (.invalidArgument "key" "required"))
  let (algo, publicKey) ← KeyHandler.check (validatePublicKey service pk)
  let keyId ← Throwing.ask Question.nowV7
  let stored ← KeyHandler.repo (PgKeyRepo.create
    { kind := .account, parentId := accountId, keyId := keyId, algo := algo, publicKey := publicKey })
  return keyToProto stored

def revokeAccountKey (subject : Subject) (request : RevokeAccountKeyRequest) : KeyHandler ProtoAccountKey := do
  let accountId ← KeyHandler.check (parseUuid service.parsers "account_id" request.accountId)
  let keyId ← KeyHandler.check (parseUuid service.parsers "key_id" request.keyId)
  Throwing.require (permitted subject accountId "accounts.admin") (.domain (.accountNotFound accountId))
  let account ← KeyHandler.repo (KeyDb.getAccount accountId)
  Throwing.require (account.status != .deleted) (.domain (.accountDeleted accountId))
  let active ← KeyHandler.repo (PgKeyRepo.listActive .account accountId)
  Throwing.require (!(lastActive active keyId && !subject.hasScope "admin.*")) (.domain .lastActiveKey)
  let revoked ← KeyHandler.repo (PgKeyRepo.revoke .account accountId keyId)
  return keyToProto revoked

end AccountService

namespace UserService

def keyToProto (key : StoredKey) : ProtoUserKey where
  userId := key.parentId.display
  keyId := key.keyId.display
  algo := key.algo
  publicKey := key.publicKey
  status := key.status
  createdAt := some (tsToProto key.createdAt)
  revokedAt := key.revokedAt.map tsToProto

def addUserKey (subject : Subject) (request : AddUserKeyRequest) : KeyHandler ProtoUserKey := do
  let userId ← KeyHandler.check (parseUuid service.parsers "user_id" request.userId)
  Throwing.require (permittedUser subject userId "users.admin") (.domain (.userNotFound userId))
  let user ← KeyHandler.repo (KeyDb.getUser userId)
  Throwing.require (user.status != .deleted) (.domain (.userDeleted userId))
  let pk ← Throwing.okOr request.key (.domain (.invalidArgument "key" "required"))
  let (algo, publicKey) ← KeyHandler.check (validatePublicKey service pk)
  let keyId ← Throwing.ask Question.nowV7
  let stored ← KeyHandler.repo (PgKeyRepo.create
    { kind := .user, parentId := userId, keyId := keyId, algo := algo, publicKey := publicKey })
  return keyToProto stored

/-- Unlike its sibling it does not look whether the parent is deleted. -/
def revokeUserKey (subject : Subject) (request : RevokeUserKeyRequest) : KeyHandler ProtoUserKey := do
  let userId ← KeyHandler.check (parseUuid service.parsers "user_id" request.userId)
  let keyId ← KeyHandler.check (parseUuid service.parsers "key_id" request.keyId)
  Throwing.require (permittedUser subject userId "users.admin") (.domain (.userNotFound userId))
  let active ← KeyHandler.repo (PgKeyRepo.listActive .user userId)
  Throwing.require (!(lastActive active keyId && !subject.hasScope "admin.*")) (.domain .lastActiveKey)
  let revoked ← KeyHandler.repo (PgKeyRepo.revoke .user userId keyId)
  return keyToProto revoked

end UserService

/-- A request of the key handlers, with the subject it was authenticated as. -/
inductive KeyRequest where
  | addAccountKey (subject : Subject) (request : AddAccountKeyRequest)
  | revokeAccountKey (subject : Subject) (request : RevokeAccountKeyRequest)
  | addUserKey (subject : Subject) (request : AddUserKeyRequest)
  | revokeUserKey (subject : Subject) (request : RevokeUserKeyRequest)

def KeyRequest.subject : KeyRequest → Subject
  | .addAccountKey subject _ | .revokeAccountKey subject _ | .addUserKey subject _ | .revokeUserKey subject _ =>
      subject

inductive KeyResponse where
  | accountKey (key : ProtoAccountKey)
  | userKey (key : ProtoUserKey)

namespace KeyService

/-- The handler of a request. -/
def handle : KeyRequest → KeyHandler KeyResponse
  | .addAccountKey subject request => .accountKey <$> AccountService.addAccountKey service subject request
  | .revokeAccountKey subject request => .accountKey <$> AccountService.revokeAccountKey service subject request
  | .addUserKey subject request => .userKey <$> UserService.addUserKey service subject request
  | .revokeUserKey subject request => .userKey <$> UserService.revokeUserKey service subject request

/-- The statements and the handlers. -/
def system : System KeyStatement.Result Answer KeyRequest (Except Status KeyResponse) KeyStore where
  execute := KeyStatement.execute
  program request := (handle service request).run

end KeyService

end Headlines.Api
