import Headlines.Api.Keys
import Headlines.Store.Registry

/-! # `AccountServiceImpl` and `UserServiceImpl`

Registration, look-up, update and deletion of accounts and users, beside the key handlers. A caller who may not
act on an account or user is told it does not exist.
-/

namespace Headlines.Api

open Core Rust Autocommit Store

/-- Handler code over the statements of the registry. -/
abbrev RegistryHandler (ρ : Type) := Throwing RegistryStatement.Result Answer Status ρ

/-- Who may register: anyone, or systems only. -/
inductive BootstrapMode where
  | open
  | systemOnly
deriving DecidableEq, Repr

structure ProtoAccount where
  id : String
  shortName : String
  authorName : String
  authorUrl : String
  status : AccountStatus
  deletedAt : Option ProtoTimestamp
  createdAt : Option ProtoTimestamp
  updatedAt : Option ProtoTimestamp

structure CreateAccountRequest where
  shortName : String
  authorName : String
  authorUrl : String
  initialKey : Option ProtoPublicKey

structure CreateAccountResponse where
  account : Option ProtoAccount
  keyId : String

structure GetAccountRequest where
  id : String

structure UpdateAccountRequest where
  account : Option ProtoAccount
  updateMask : Option (List String)

structure DeleteAccountRequest where
  id : String

structure ProtoUser where
  id : String
  displayName : String
  status : UserStatus
  deletedAt : Option ProtoTimestamp
  createdAt : Option ProtoTimestamp

structure CreateUserRequest where
  displayName : String
  initialKey : Option ProtoPublicKey

structure CreateUserResponse where
  user : Option ProtoUser
  keyId : String

structure GetUserRequest where
  id : String

structure UpdateUserRequest where
  user : Option ProtoUser
  updateMask : Option (List String)

structure DeleteUserRequest where
  id : String

/-- What the two services are built with. -/
structure RegistryService extends KeyService where
  bootstrap : BootstrapMode

namespace RegistryHandler

/-- A repository call. -/
def repo (call : RegistryDb ρ) : RegistryHandler ρ := ExceptT.adapt .domain call

/-- A validation. -/
def check (outcome : Except HeadlinesError ρ) : RegistryHandler ρ := Throwing.ofExcept (outcome.mapError .domain)

end RegistryHandler

/-- An anonymous caller registers only where registration is open. -/
def registrationAllowed (bootstrap : BootstrapMode) (subject : Subject) : Bool :=
  !(subject == .anonymous && bootstrap == .systemOnly)

/-- The paths of a mask, which may not be empty. -/
def nonEmptyMask (mask : Option (List String)) : Except HeadlinesError (List String) :=
  match mask with
  | none => .error .emptyUpdateMask
  | some paths => if paths.isEmpty then .error .emptyUpdateMask else .ok paths

variable (service : RegistryService)

namespace AccountService

def shortNameMin : ℕ := 1
def shortNameMax : ℕ := 32
def authorNameMin : ℕ := 1

/-- A character of `[A-Za-z0-9 _-]`. -/
def shortNameChar (c : Char) : Bool := c.isAlphanum || c == ' ' || c == '_' || c == '-'

def validateShortName (raw : String) : Except HeadlinesError String :=
  let trimmed := trim raw
  if ¬(shortNameMin ≤ trimmed.length ∧ trimmed.length ≤ shortNameMax) then
    .error (.invalidArgument "short_name" "length must be 1..=32 characters")
  else if ¬trimmed.toList.all shortNameChar then
    .error (.invalidArgument "short_name" "must match [A-Za-z0-9 _-]")
  else .ok trimmed

def validateAuthorName (raw : String) : Except HeadlinesError String :=
  let trimmed := trim raw
  if authorNameMin ≤ trimmed.length ∧ trimmed.length ≤ authorNameMax then .ok trimmed
  else .error (.invalidArgument "author_name" "length must be 1..=128 characters")

def accountToProto (account : Account) : ProtoAccount where
  id := account.id.display
  shortName := account.shortName
  authorName := account.authorName
  authorUrl := account.authorUrl
  status := account.status
  deletedAt := account.deletedAt.map tsToProto
  createdAt := some (tsToProto account.createdAt)
  updatedAt := some (tsToProto account.updatedAt)

def createAccount (subject : Subject) (request : CreateAccountRequest) : RegistryHandler CreateAccountResponse := do
  Throwing.require (registrationAllowed service.bootstrap subject) (.domain (.registrationDisabled "accounts"))
  let shortName ← RegistryHandler.check (validateShortName request.shortName)
  let authorName ← RegistryHandler.check (validateAuthorName request.authorName)
  let authorUrl ← RegistryHandler.check (validateAuthorUrl service.parsers request.authorUrl)
  let initialKey ← Throwing.okOr request.initialKey (.domain (.invalidArgument "initial_key" "required"))
  let (algo, publicKey) ← RegistryHandler.check (validatePublicKey service.toKeyService initialKey)
  let accountId ← Throwing.ask Question.nowV7
  let keyId ← Throwing.ask Question.nowV7
  let account ← RegistryHandler.repo (PgAccountRepo.create
    { id := accountId, shortName := shortName, authorName := authorName, authorUrl := authorUrl })
  let _ ← RegistryHandler.repo (RegistryDb.ofKeys (PgKeyRepo.create
    { kind := .account, parentId := accountId, keyId := keyId, algo := algo, publicKey := publicKey }))
  return { account := some (accountToProto account), keyId := keyId.display }

def getAccount (request : GetAccountRequest) : RegistryHandler ProtoAccount := do
  let id ← RegistryHandler.check (parseUuid service.parsers "id" request.id)
  let account ← RegistryHandler.repo (RegistryDb.ofKeys (KeyDb.getAccount id))
  return accountToProto account

/-- One path of the mask: its field is validated and set. -/
def maskField (account : ProtoAccount) (update : AccountUpdate) (path : String) : Except HeadlinesError AccountUpdate := do
  if path = "short_name" then
    let shortName ← validateShortName account.shortName
    return { update with shortName := some shortName }
  else if path = "author_name" then
    let authorName ← validateAuthorName account.authorName
    return { update with authorName := some authorName }
  else if path = "author_url" then
    let authorUrl ← validateAuthorUrl service.parsers account.authorUrl
    return { update with authorUrl := some authorUrl }
  else throw (.unallowedMaskPath path)

/-- The fields the paths name, validated path by path. -/
def accountUpdate (account : ProtoAccount) (paths : List String) : Except HeadlinesError AccountUpdate :=
  paths.foldlM (maskField service account) { shortName := none, authorName := none, authorUrl := none }

def updateAccount (subject : Subject) (request : UpdateAccountRequest) : RegistryHandler ProtoAccount := do
  let account ← Throwing.okOr request.account (.domain (.invalidArgument "account" "required"))
  let id ← RegistryHandler.check (parseUuid service.parsers "account.id" account.id)
  Throwing.require (permitted subject id "accounts.admin") (.domain (.accountNotFound id))
  let paths ← RegistryHandler.check (nonEmptyMask request.updateMask)
  let update ← RegistryHandler.check (accountUpdate service account paths)
  let updated ← RegistryHandler.repo (PgAccountRepo.update id update)
  return accountToProto updated

def deleteAccount (subject : Subject) (request : DeleteAccountRequest) : RegistryHandler ProtoAccount := do
  let id ← RegistryHandler.check (parseUuid service.parsers "id" request.id)
  Throwing.require (permitted subject id "accounts.delete") (.domain (.accountNotFound id))
  let deleted ← RegistryHandler.repo (PgAccountRepo.softDelete id)
  return accountToProto deleted

end AccountService

namespace UserService

def displayNameMax : ℕ := 64

def validateDisplayName (raw : String) : Except HeadlinesError String :=
  let trimmed := trim raw
  if trimmed.isEmpty then .ok ""
  else if trimmed.length > displayNameMax then
    .error (.invalidArgument "display_name" "length must be <= 64 characters")
  else .ok trimmed

def userToProto (user : User) : ProtoUser where
  id := user.id.display
  displayName := user.displayName
  status := user.status
  deletedAt := user.deletedAt.map tsToProto
  createdAt := some (tsToProto user.createdAt)

def createUser (subject : Subject) (request : CreateUserRequest) : RegistryHandler CreateUserResponse := do
  Throwing.require (registrationAllowed service.bootstrap subject) (.domain (.registrationDisabled "users"))
  let displayName ← RegistryHandler.check (validateDisplayName request.displayName)
  let initialKey ← Throwing.okOr request.initialKey (.domain (.invalidArgument "initial_key" "required"))
  let (algo, publicKey) ← RegistryHandler.check (validatePublicKey service.toKeyService initialKey)
  let userId ← Throwing.ask Question.nowV7
  let keyId ← Throwing.ask Question.nowV7
  let user ← RegistryHandler.repo (PgUserRepo.create { id := userId, displayName := displayName })
  let _ ← RegistryHandler.repo (RegistryDb.ofKeys (PgKeyRepo.create
    { kind := .user, parentId := userId, keyId := keyId, algo := algo, publicKey := publicKey }))
  return { user := some (userToProto user), keyId := keyId.display }

def getUser (subject : Subject) (request : GetUserRequest) : RegistryHandler ProtoUser := do
  let id ← RegistryHandler.check (parseUuid service.parsers "id" request.id)
  Throwing.require (permittedUser subject id "users.read") (.domain (.userNotFound id))
  let user ← RegistryHandler.repo (RegistryDb.ofKeys (KeyDb.getUser id))
  return userToProto user

/-- The field the paths name, validated path by path. -/
def userUpdate (user : ProtoUser) (paths : List String) : Except HeadlinesError UserUpdate :=
  paths.foldlM (fun _ path => do
    if path = "display_name" then
      let displayName ← validateDisplayName user.displayName
      return { displayName := some displayName }
    else throw (.unallowedMaskPath path)) { displayName := none }

def updateUser (subject : Subject) (request : UpdateUserRequest) : RegistryHandler ProtoUser := do
  let user ← Throwing.okOr request.user (.domain (.invalidArgument "user" "required"))
  let id ← RegistryHandler.check (parseUuid service.parsers "user.id" user.id)
  Throwing.require (permittedUser subject id "users.admin") (.domain (.userNotFound id))
  let paths ← RegistryHandler.check (nonEmptyMask request.updateMask)
  let update ← RegistryHandler.check (userUpdate user paths)
  let updated ← RegistryHandler.repo (PgUserRepo.update id update)
  return userToProto updated

def deleteUser (subject : Subject) (request : DeleteUserRequest) : RegistryHandler ProtoUser := do
  let id ← RegistryHandler.check (parseUuid service.parsers "id" request.id)
  Throwing.require (permittedUser subject id "users.delete") (.domain (.userNotFound id))
  let deleted ← RegistryHandler.repo (PgUserRepo.softDelete id)
  return userToProto deleted

end UserService

/-- A request to one of the two services, with the subject it was authenticated as. -/
inductive RegistryRequest where
  | createAccount (subject : Subject) (request : CreateAccountRequest)
  | getAccount (request : GetAccountRequest)
  | updateAccount (subject : Subject) (request : UpdateAccountRequest)
  | deleteAccount (subject : Subject) (request : DeleteAccountRequest)
  | createUser (subject : Subject) (request : CreateUserRequest)
  | getUser (subject : Subject) (request : GetUserRequest)
  | updateUser (subject : Subject) (request : UpdateUserRequest)
  | deleteUser (subject : Subject) (request : DeleteUserRequest)
  | keys (request : KeyRequest)

inductive RegistryResponse where
  | createdAccount (response : CreateAccountResponse)
  | account (account : ProtoAccount)
  | createdUser (response : CreateUserResponse)
  | user (user : ProtoUser)
  | key (response : KeyResponse)

namespace RegistryService

/-- The handler of a request. -/
def handle : RegistryRequest → RegistryHandler RegistryResponse
  | .createAccount subject request => .createdAccount <$> AccountService.createAccount service subject request
  | .getAccount request => .account <$> AccountService.getAccount service request
  | .updateAccount subject request => .account <$> AccountService.updateAccount service subject request
  | .deleteAccount subject request => .account <$> AccountService.deleteAccount service subject request
  | .createUser subject request => .createdUser <$> UserService.createUser service subject request
  | .getUser subject request => .user <$> UserService.getUser service subject request
  | .updateUser subject request => .user <$> UserService.updateUser service subject request
  | .deleteUser subject request => .user <$> UserService.deleteUser service subject request
  | .keys request => .key <$> Throwing.embed RegistryStatement.keys (KeyService.handle service.toKeyService request)

/-- The statements and the handlers. -/
def system : System RegistryStatement.Result Answer RegistryRequest (Except Status RegistryResponse) KeyStore where
  execute := RegistryStatement.execute
  program request := (handle service request).run

end RegistryService

end Headlines.Api
