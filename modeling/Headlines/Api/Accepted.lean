import Headlines.Api.Registry

/-! # What a registry request comes to

A handler refuses a request by what it says and by who makes it, before it looks at the database; one that it
does not refuse is a call of the repositories.
-/

namespace Headlines.Api

open Core Autocommit Store

variable (service : RegistryService)

@[simp] theorem RegistryHandler.check_ok_bind {next : σ → RegistryHandler ρ} (value : σ) :
    (RegistryHandler.check (.ok value) >>= next) = next value := rfl

@[simp] theorem RegistryHandler.check_error_bind {next : σ → RegistryHandler ρ} (error : HeadlinesError) :
    (RegistryHandler.check (.error error : Except _ σ) >>= next) = throw (.domain error) := rfl

@[simp] theorem KeyHandler.check_ok_bind {next : σ → KeyHandler ρ} (value : σ) :
    (KeyHandler.check (.ok value) >>= next) = next value := rfl

@[simp] theorem KeyHandler.check_error_bind {next : σ → KeyHandler ρ} (error : HeadlinesError) :
    (KeyHandler.check (.error error : Except _ σ) >>= next) = throw (.domain error) := rfl

namespace AccountService

/-- The registration of an account that passes the checks. -/
def register (account : NewAccount) (key : NewKey) : RegistryHandler CreateAccountResponse := do
  let created ← RegistryHandler.repo (PgAccountRepo.create account)
  let _ ← RegistryHandler.repo (RegistryDb.ofKeys (PgKeyRepo.create key))
  return { account := some (accountToProto created), keyId := key.keyId.display }

theorem createAccount_cases (subject : Subject) (request : CreateAccountRequest) :
    Throwing.Refused (createAccount service subject request) ∨
      ∃ shortName authorName authorUrl algo publicKey, createAccount service subject request = (do
        let accountId ← Throwing.ask Question.nowV7
        let keyId ← Throwing.ask Question.nowV7
        register { id := accountId, shortName := shortName, authorName := authorName, authorUrl := authorUrl }
          { kind := .account, parentId := accountId, keyId := keyId, algo := algo, publicKey := publicKey }) := by
  simp only [createAccount]
  cases registrationAllowed service.bootstrap subject with
  | false => exact .inl ⟨_, rfl⟩
  | true =>
    rw [Throwing.require_true_bind]
    cases validateShortName request.shortName with
    | error error => exact .inl ⟨_, rfl⟩
    | ok shortName =>
      rw [RegistryHandler.check_ok_bind]
      cases validateAuthorName request.authorName with
      | error error => exact .inl ⟨_, rfl⟩
      | ok authorName =>
        rw [RegistryHandler.check_ok_bind]
        cases validateAuthorUrl service.parsers request.authorUrl with
        | error error => exact .inl ⟨_, rfl⟩
        | ok authorUrl =>
          rw [RegistryHandler.check_ok_bind]
          cases request.initialKey with
          | none => exact .inl ⟨_, rfl⟩
          | some initialKey =>
            rw [Throwing.okOr_some_bind]
            cases validatePublicKey service.toKeyService initialKey with
            | error error => exact .inl ⟨_, rfl⟩
            | ok key => exact .inr ⟨shortName, authorName, authorUrl, key.1, key.2, rfl⟩

theorem updateAccount_cases (subject : Subject) (request : UpdateAccountRequest) :
    Throwing.Refused (updateAccount service subject request) ∨
      ∃ account id paths update, request.account = some account ∧
        parseUuid service.parsers "account.id" account.id = .ok id ∧
        nonEmptyMask request.updateMask = .ok paths ∧ accountUpdate service account paths = .ok update ∧
        updateAccount service subject request =
          accountToProto <$> RegistryHandler.repo (PgAccountRepo.update id update) := by
  simp only [updateAccount]
  cases request.account with
  | none => exact .inl ⟨_, rfl⟩
  | some account =>
    rw [Throwing.okOr_some_bind]
    cases parsed : parseUuid service.parsers "account.id" account.id with
    | error error => exact .inl ⟨_, rfl⟩
    | ok id =>
      rw [RegistryHandler.check_ok_bind]
      cases permitted subject id "accounts.admin" with
      | false => exact .inl ⟨_, rfl⟩
      | true =>
        rw [Throwing.require_true_bind]
        cases nonEmptyMask request.updateMask with
        | error error => exact .inl ⟨_, rfl⟩
        | ok paths =>
          rw [RegistryHandler.check_ok_bind]
          cases built : accountUpdate service account paths with
          | error error => exact .inl ⟨_, rfl⟩
          | ok update => exact .inr ⟨account, id, paths, update, rfl, parsed, rfl, built, rfl⟩

theorem deleteAccount_cases (subject : Subject) (request : DeleteAccountRequest) :
    Throwing.Refused (deleteAccount service subject request) ∨
      ∃ id, parseUuid service.parsers "id" request.id = .ok id ∧ permitted subject id "accounts.delete" ∧
        deleteAccount service subject request = accountToProto <$> RegistryHandler.repo (PgAccountRepo.softDelete id) := by
  simp only [deleteAccount]
  cases parseUuid service.parsers "id" request.id with
  | error error => exact .inl ⟨_, rfl⟩
  | ok id =>
    rw [RegistryHandler.check_ok_bind]
    cases allowed : permitted subject id "accounts.delete" with
    | false => exact .inl ⟨_, rfl⟩
    | true => exact .inr ⟨id, rfl, allowed, rfl⟩

end AccountService

namespace UserService

/-- The registration of a user that passes the checks. -/
def register (user : NewUser) (key : NewKey) : RegistryHandler CreateUserResponse := do
  let created ← RegistryHandler.repo (PgUserRepo.create user)
  let _ ← RegistryHandler.repo (RegistryDb.ofKeys (PgKeyRepo.create key))
  return { user := some (userToProto created), keyId := key.keyId.display }

theorem createUser_cases (subject : Subject) (request : CreateUserRequest) :
    Throwing.Refused (createUser service subject request) ∨
      ∃ displayName algo publicKey, createUser service subject request = (do
        let userId ← Throwing.ask Question.nowV7
        let keyId ← Throwing.ask Question.nowV7
        register { id := userId, displayName := displayName }
          { kind := .user, parentId := userId, keyId := keyId, algo := algo, publicKey := publicKey }) := by
  simp only [createUser]
  cases registrationAllowed service.bootstrap subject with
  | false => exact .inl ⟨_, rfl⟩
  | true =>
    rw [Throwing.require_true_bind]
    cases validateDisplayName request.displayName with
    | error error => exact .inl ⟨_, rfl⟩
    | ok displayName =>
      rw [RegistryHandler.check_ok_bind]
      cases request.initialKey with
      | none => exact .inl ⟨_, rfl⟩
      | some initialKey =>
        rw [Throwing.okOr_some_bind]
        cases validatePublicKey service.toKeyService initialKey with
        | error error => exact .inl ⟨_, rfl⟩
        | ok key => exact .inr ⟨displayName, key.1, key.2, rfl⟩

theorem updateUser_cases (subject : Subject) (request : UpdateUserRequest) :
    Throwing.Refused (updateUser service subject request) ∨
      ∃ user id update, request.user = some user ∧ parseUuid service.parsers "user.id" user.id = .ok id ∧
        updateUser service subject request = userToProto <$> RegistryHandler.repo (PgUserRepo.update id update) := by
  simp only [updateUser]
  cases request.user with
  | none => exact .inl ⟨_, rfl⟩
  | some user =>
    rw [Throwing.okOr_some_bind]
    cases parsed : parseUuid service.parsers "user.id" user.id with
    | error error => exact .inl ⟨_, rfl⟩
    | ok id =>
      rw [RegistryHandler.check_ok_bind]
      cases permittedUser subject id "users.admin" with
      | false => exact .inl ⟨_, rfl⟩
      | true =>
        rw [Throwing.require_true_bind]
        cases nonEmptyMask request.updateMask with
        | error error => exact .inl ⟨_, rfl⟩
        | ok paths =>
          rw [RegistryHandler.check_ok_bind]
          cases userUpdate user paths with
          | error error => exact .inl ⟨_, rfl⟩
          | ok update => exact .inr ⟨user, id, update, rfl, parsed, rfl⟩

theorem deleteUser_cases (subject : Subject) (request : DeleteUserRequest) :
    Throwing.Refused (deleteUser service subject request) ∨
      ∃ id, parseUuid service.parsers "id" request.id = .ok id ∧ permittedUser subject id "users.delete" ∧
        deleteUser service subject request = userToProto <$> RegistryHandler.repo (PgUserRepo.softDelete id) := by
  simp only [deleteUser]
  cases parseUuid service.parsers "id" request.id with
  | error error => exact .inl ⟨_, rfl⟩
  | ok id =>
    rw [RegistryHandler.check_ok_bind]
    cases allowed : permittedUser subject id "users.delete" with
    | false => exact .inl ⟨_, rfl⟩
    | true => exact .inr ⟨id, rfl, allowed, rfl⟩

end UserService

end Headlines.Api
