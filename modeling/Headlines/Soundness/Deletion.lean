import Headlines.Api.Accepted
import Headlines.Api.Server
import Headlines.Store.Owner

/-! # Deleted accounts and users

Calls that are served one after the other leave a deleted account or user as it is: an update, a new key and the
revocation of an account's key look at the status first. A deletion does not, and stamps the row again; the
revocation of a user's key does not either.
-/

namespace Headlines.Soundness.Deletion

open Core Autocommit Store Api Owner

variable {service : RegistryService} {owner : Owner} {store after : KeyStore} {ρ : Type}

/-- A call, with the answers it gets when it asks for the time or a fresh identifier. -/
structure Call where
  request : RegistryRequest
  answers : ℕ → (question : Question) → Answer question

/-- What a call that is served alone answers, and the store it leaves. -/
def serve (service : RegistryService) (call : Call) (store : KeyStore) : Except Status RegistryResponse × KeyStore :=
  (service.system.program call.request).alone service.system.execute call.answers store

/-- The owner that a request names in a field. -/
def named (service : RegistryService) (owner : Uuid → Owner) (field raw : String) : Option Owner :=
  (parseUuid service.parsers field raw).toOption.map owner

/-- The account or user that a call updates, deletes, or adds or revokes a key of. -/
def writes (service : RegistryService) : RegistryRequest → Option Owner
  | .updateAccount _ request => request.account.bind fun account => named service .account "account.id" account.id
  | .deleteAccount _ request => named service .account "id" request.id
  | .updateUser _ request => request.user.bind fun user => named service .user "user.id" user.id
  | .deleteUser _ request => named service .user "id" request.id
  | .keys (.addAccountKey _ request) => named service .account "account_id" request.accountId
  | .keys (.revokeAccountKey _ request) => named service .account "account_id" request.accountId
  | .keys (.addUserKey _ request) => named service .user "user_id" request.userId
  | .keys (.revokeUserKey _ request) => named service .user "user_id" request.userId
  | _ => none

/-- The request is refused with this error whatever the database holds. -/
def Denied (service : RegistryService) (request : RegistryRequest) (error : Status) : Prop :=
  ∀ answers store, (serve service ⟨request, answers⟩ store).1 = .error error

/-- The answer says that the owner is deleted, or the request is denied. -/
def Rejected (service : RegistryService) (owner : Owner) (request : RegistryRequest)
    (response : Except Status RegistryResponse) : Prop :=
  response = .error (.domain owner.deletedError) ∨ ∃ error, response = .error error ∧ Denied service request error

/-- Every call of a sequence leaves the owner as it is, and is rejected if it is about the owner. -/
def Frozen (service : RegistryService) (owner : Owner) : KeyStore → List Call → Prop
  | _, [] => True
  | store, call :: rest => owner.Unchanged store (serve service call store).2 ∧
      (writes service call.request = some owner →
        Rejected service owner call.request (serve service call store).1) ∧
      Frozen service owner (serve service call store).2 rest

/-- A well-formed and permitted request to delete the owner, or to revoke a key of the user. -/
def Overwrites (service : RegistryService) (owner : Owner) : RegistryRequest → Prop
  | .deleteAccount subject request => ∃ id, owner = .account id ∧ parseUuid service.parsers "id" request.id = .ok id ∧
      permitted subject id "accounts.delete"
  | .deleteUser subject request => ∃ id, owner = .user id ∧ parseUuid service.parsers "id" request.id = .ok id ∧
      permittedUser subject id "users.delete"
  | .keys (.revokeUserKey subject request) => ∃ id keyId, owner = .user id ∧
      parseUuid service.parsers "user_id" request.userId = .ok id ∧
      parseUuid service.parsers "key_id" request.keyId = .ok keyId ∧ permittedUser subject id "users.admin"
  | _ => False

section Steps

/-- The call leaves the owner as it is, and is rejected if it is about the owner. -/
private def Harmless (service : RegistryService) (owner : Owner) (store : KeyStore) (request : RegistryRequest) : Prop :=
  (service.handle request).Always RegistryStatement.execute (fun response after =>
    owner.Unchanged store after ∧ (writes service request = some owner → Rejected service owner request response)) store

private theorem Harmless.refused {request : RegistryRequest} (refused : Throwing.Refused (service.handle request)) :
    Harmless service owner store request := by
  obtain ⟨error, same⟩ := refused
  have denied : Denied service request error := by
    intro answers store
    simp only [serve, RegistryService.system, same]
    rfl
  rw [Harmless, same]
  exact ⟨.refl owner store, fun _ => .inr ⟨error, rfl, denied⟩⟩

private theorem Harmless.spared {request : RegistryRequest} (other : writes service request ≠ some owner)
    (kept : (service.handle request).Preserves RegistryStatement.execute (owner.Unchanged store)) :
    Harmless service owner store request :=
  (kept store (.refl owner store)).mono fun _ _ same => ⟨same, fun own => absurd own other⟩

/-- The status of the row is looked at, and it says deleted. -/
private theorem Harmless.rejected {request : RegistryRequest}
    (rejected : (service.handle request).Always RegistryStatement.execute
      (fun response after => response = .error (.domain owner.deletedError) ∧ after = store) store) :
    Harmless service owner store request :=
  rejected.mono fun _ _ ⟨response, same⟩ => ⟨same ▸ .refl owner store, fun _ => .inl response⟩

private theorem named_ok {make : Uuid → Owner} {field raw : String} {id : Uuid}
    (parsed : parseUuid service.parsers field raw = .ok id) : named service make field raw = some (make id) := by
  rw [named, parsed]
  rfl

private theorem always_get {post : Except HeadlinesError Unit → KeyStore → Prop} :
    RegistryDb.get.Always RegistryStatement.execute post store ↔ post (.ok ()) store := .rfl

private theorem always_selectAccount {id : Uuid} {context : String}
    {post : Except HeadlinesError (Option AccountRow) → KeyStore → Prop} :
    (RegistryDb.selectAccount id context).Always RegistryStatement.execute post store ↔
      post (.ok (store.accounts id)) store := .rfl

private theorem always_selectUser {id : Uuid} {context : String}
    {post : Except HeadlinesError (Option UserRow) → KeyStore → Prop} :
    (RegistryDb.selectUser id context).Always RegistryStatement.execute post store ↔
      post (.ok (store.users id)) store := .rfl

private theorem always_keysGet {post : Except HeadlinesError Unit → KeyStore → Prop} :
    KeyDb.get.Always KeyStatement.execute post store ↔ post (.ok ()) store := .rfl

private theorem always_getAccount {id : Uuid} {row : AccountRow} {post : Except HeadlinesError Account → KeyStore → Prop}
    (found : store.accounts id = some row) (holds : post (.ok (row.intoDomain id)) store) :
    (KeyDb.getAccount id).Always KeyStatement.execute post store := by
  refine Throwing.always_bind.mpr (always_keysGet.mpr (Throwing.always_bind.mpr (.statement (KeyStatement.selectAccount id) ?_ fun _ => nofun)))
  rintro _ _ ⟨⟩
  simp only [found, Throwing.okOr_some_bind]
  exact holds

private theorem always_getUser {id : Uuid} {row : UserRow} {post : Except HeadlinesError User → KeyStore → Prop}
    (found : store.users id = some row) (holds : post (.ok (row.intoDomain id)) store) :
    (KeyDb.getUser id).Always KeyStatement.execute post store := by
  refine Throwing.always_bind.mpr (always_keysGet.mpr (Throwing.always_bind.mpr (.statement (KeyStatement.selectUser id) ?_ fun _ => nofun)))
  rintro _ _ ⟨⟩
  simp only [found, Throwing.okOr_some_bind]
  exact holds

private theorem updateAccount_deleted {id : Uuid} (deleted : (Owner.account id).Deleted store) (update : AccountUpdate) :
    (PgAccountRepo.update id update).Always RegistryStatement.execute
      (fun outcome after => outcome = .error (.accountDeleted id) ∧ after = store) store := by
  obtain ⟨row, found, status⟩ := deleted
  simp only [PgAccountRepo.update, Throwing.always_bind, always_get, always_selectAccount, found, Throwing.always_okOr,
    Option.elim_some, Throwing.always_require, status]
  exact ⟨rfl, rfl⟩

private theorem updateUser_deleted {id : Uuid} (deleted : (Owner.user id).Deleted store) (update : UserUpdate) :
    (PgUserRepo.update id update).Always RegistryStatement.execute
      (fun outcome after => outcome = .error (.userDeleted id) ∧ after = store) store := by
  obtain ⟨row, found, status⟩ := deleted
  simp only [PgUserRepo.update, Throwing.always_bind, always_get, always_selectUser, found, Throwing.always_okOr,
    Option.elim_some, Throwing.always_require, status]
  exact ⟨rfl, rfl⟩

/-- A registration that meets the row of an owner under its fresh identifier inserts nothing. -/
private theorem insertAccount_apart (deleted : owner.Deleted store) (new : NewAccount) :
    (PgAccountRepo.create new).Always RegistryStatement.execute (fun outcome after => owner.Unchanged store after ∧
      ∀ account, outcome = .ok account → owner ≠ .account new.id) store := by
  by_cases own : owner = .account new.id
  · subst own
    obtain ⟨row, found, _⟩ := deleted
    refine Throwing.always_bind.mpr (always_get.mpr (Throwing.always_bind.mpr fun now => Throwing.always_bind.mpr ?_))
    refine .statement (RegistryStatement.insertAccount new.id _) (fun result after ran => ?_) fun _ _ => ⟨.refl _ store, nofun⟩
    simp [RegistryStatement.execute, found] at ran
  · have kept : (PgAccountRepo.create new).Preserves RegistryStatement.execute (owner.Unchanged store) :=
      .bind get_spares fun _ => .bind (.ask _) fun _ =>
        .bind (execute_spares fun same => own (Option.some.inj same).symm) fun _ => .pure _
    exact (kept store (.refl owner store)).mono fun _ _ same => ⟨same, fun _ _ => own⟩

private theorem insertUser_apart (deleted : owner.Deleted store) (new : NewUser) :
    (PgUserRepo.create new).Always RegistryStatement.execute (fun outcome after => owner.Unchanged store after ∧
      ∀ user, outcome = .ok user → owner ≠ .user new.id) store := by
  by_cases own : owner = .user new.id
  · subst own
    obtain ⟨row, found, _⟩ := deleted
    refine Throwing.always_bind.mpr (always_get.mpr (Throwing.always_bind.mpr fun now => Throwing.always_bind.mpr ?_))
    refine .statement (RegistryStatement.insertUser new.id _) (fun result after ran => ?_) fun _ _ => ⟨.refl _ store, nofun⟩
    simp [RegistryStatement.execute, found] at ran
  · have kept : (PgUserRepo.create new).Preserves RegistryStatement.execute (owner.Unchanged store) :=
      .bind get_spares fun _ => .bind (.ask _) fun _ =>
        .bind (execute_spares fun same => own (Option.some.inj same).symm) fun _ => .pure _
    exact (kept store (.refl owner store)).mono fun _ _ same => ⟨same, fun _ _ => own⟩

private theorem createAccount_harmless (deleted : owner.Deleted store) (subject : Subject)
    (request : CreateAccountRequest) : Harmless service owner store (.createAccount subject request) := by
  rcases AccountService.createAccount_cases service subject request with refused | ⟨_, _, _, _, _, same⟩
  · exact .refused (refused.map _)
  rw [Harmless, RegistryService.handle, same]
  refine Throwing.always_map.mpr (Throwing.always_bind.mpr fun id => Throwing.always_bind.mpr fun keyId => ?_)
  refine Throwing.always_bind.mpr (Throwing.always_adapt.mpr ?_)
  refine (insertAccount_apart deleted _).mono fun outcome after ⟨kept, apart⟩ => ?_
  cases outcome with
  | error error => exact ⟨kept, nofun⟩
  | ok account =>
    refine (show Throwing.Always RegistryStatement.execute (fun _ last => owner.Unchanged store last) _ after from ?_).mono
      fun _ _ same => ⟨same, nofun⟩
    refine Throwing.Preserves.bind (.adapt (ofKeys_spares (createKey_spares ?_))) (fun _ => .pure _) after kept
    exact fun own => apart _ rfl (Option.some.inj own).symm

private theorem createUser_harmless (deleted : owner.Deleted store) (subject : Subject)
    (request : CreateUserRequest) : Harmless service owner store (.createUser subject request) := by
  rcases UserService.createUser_cases service subject request with refused | ⟨_, _, _, same⟩
  · exact .refused (refused.map _)
  rw [Harmless, RegistryService.handle, same]
  refine Throwing.always_map.mpr (Throwing.always_bind.mpr fun id => Throwing.always_bind.mpr fun keyId => ?_)
  refine Throwing.always_bind.mpr (Throwing.always_adapt.mpr ?_)
  refine (insertUser_apart deleted _).mono fun outcome after ⟨kept, apart⟩ => ?_
  cases outcome with
  | error error => exact ⟨kept, nofun⟩
  | ok user =>
    refine (show Throwing.Always RegistryStatement.execute (fun _ last => owner.Unchanged store last) _ after from ?_).mono
      fun _ _ same => ⟨same, nofun⟩
    refine Throwing.Preserves.bind (.adapt (ofKeys_spares (createKey_spares ?_))) (fun _ => .pure _) after kept
    exact fun own => apart _ rfl (Option.some.inj own).symm

private theorem updateAccount_harmless (deleted : owner.Deleted store) (subject : Subject)
    (request : UpdateAccountRequest) : Harmless service owner store (.updateAccount subject request) := by
  rcases AccountService.updateAccount_cases service subject request with
    refused | ⟨account, id, _, update, given, parsed, _, _, same⟩
  · exact .refused (refused.map _)
  by_cases own : owner = .account id
  · subst own
    refine .rejected ?_
    rw [RegistryService.handle, same]
    refine Throwing.always_map.mpr (Throwing.always_map.mpr (Throwing.always_adapt.mpr ?_))
    exact (updateAccount_deleted deleted update).mono fun _ _ ⟨outcome, kept⟩ => ⟨by rw [outcome]; rfl, kept⟩
  · refine .spared ?_ ?_
    · rw [writes, given, Option.bind_some, named_ok parsed]
      exact fun same => own (Option.some.inj same).symm
    · rw [RegistryService.handle, same]
      exact .map (.map (.adapt (updateAccount_spares own update)))

private theorem updateUser_harmless (deleted : owner.Deleted store) (subject : Subject)
    (request : UpdateUserRequest) : Harmless service owner store (.updateUser subject request) := by
  rcases UserService.updateUser_cases service subject request with
    refused | ⟨user, id, update, given, parsed, same⟩
  · exact .refused (refused.map _)
  by_cases own : owner = .user id
  · subst own
    refine .rejected ?_
    rw [RegistryService.handle, same]
    refine Throwing.always_map.mpr (Throwing.always_map.mpr (Throwing.always_adapt.mpr ?_))
    exact (updateUser_deleted deleted update).mono fun _ _ ⟨outcome, kept⟩ => ⟨by rw [outcome]; rfl, kept⟩
  · refine .spared ?_ ?_
    · rw [writes, given, Option.bind_some, named_ok parsed]
      exact fun same => own (Option.some.inj same).symm
    · rw [RegistryService.handle, same]
      exact .map (.map (.adapt (updateUser_spares own update)))

private theorem deleteAccount_harmless (subject : Subject) (request : DeleteAccountRequest)
    (other : ¬ Overwrites service owner (.deleteAccount subject request)) :
    Harmless service owner store (.deleteAccount subject request) := by
  rcases AccountService.deleteAccount_cases service subject request with
    refused | ⟨id, parsed, allowed, same⟩
  · exact .refused (refused.map _)
  have apart : owner ≠ .account id := fun own => other ⟨id, own, parsed, allowed⟩
  refine .spared ?_ ?_
  · rw [writes, named_ok parsed]
    exact fun same => apart (Option.some.inj same).symm
  · rw [RegistryService.handle, same]
    exact .map (.map (.adapt (deleteAccount_spares apart)))

private theorem deleteUser_harmless (subject : Subject) (request : DeleteUserRequest)
    (other : ¬ Overwrites service owner (.deleteUser subject request)) :
    Harmless service owner store (.deleteUser subject request) := by
  rcases UserService.deleteUser_cases service subject request with refused | ⟨id, parsed, allowed, same⟩
  · exact .refused (refused.map _)
  have apart : owner ≠ .user id := fun own => other ⟨id, own, parsed, allowed⟩
  refine .spared ?_ ?_
  · rw [writes, named_ok parsed]
    exact fun same => apart (Option.some.inj same).symm
  · rw [RegistryService.handle, same]
    exact .map (.map (.adapt (deleteUser_spares apart)))

section Keys

variable {request : KeyRequest}

private theorem Harmless.keysRefused (refused : Throwing.Refused (KeyService.handle service.toKeyService request)) :
    Harmless service owner store (.keys request) := by
  obtain ⟨error, same⟩ := refused
  exact .refused ⟨error, by rw [RegistryService.handle, same]; rfl⟩

private theorem Harmless.keysSpared (other : writes service (.keys request) ≠ some owner)
    (kept : (KeyService.handle service.toKeyService request).Preserves KeyStatement.execute (owner.Unchanged store)) :
    Harmless service owner store (.keys request) :=
  .spared other (.map (.embed kept))

private theorem Harmless.keysRejected
    (rejected : (KeyService.handle service.toKeyService request).Always KeyStatement.execute
      (fun response after => response = .error (.domain owner.deletedError) ∧ after = store) store) :
    Harmless service owner store (.keys request) := by
  refine .rejected (Throwing.always_map.mpr (Throwing.always_embed.mpr ?_))
  exact rejected.mono fun _ _ ⟨outcome, kept⟩ => ⟨by rw [outcome]; rfl, kept⟩

end Keys

private theorem addAccountKey_harmless (deleted : owner.Deleted store) (subject : Subject)
    (request : AddAccountKeyRequest) : Harmless service owner store (.keys (.addAccountKey subject request)) := by
  cases parsed : parseUuid service.parsers "account_id" request.accountId with
  | error error =>
    refine .keysRefused (Throwing.Refused.map ⟨.domain error, ?_⟩ _)
    rw [AccountService.addAccountKey, parsed, KeyHandler.check_error_bind]
  | ok id =>
    cases allowed : permitted subject id "accounts.admin" with
    | false =>
      refine .keysRefused (Throwing.Refused.map ⟨.domain (.accountNotFound id), ?_⟩ _)
      rw [AccountService.addAccountKey, parsed, KeyHandler.check_ok_bind, allowed, Throwing.require_false_bind]
    | true =>
      by_cases own : owner = .account id
      · subst own
        obtain ⟨row, found, status⟩ := deleted
        refine .keysRejected (Throwing.always_map.mpr ?_)
        rw [AccountService.addAccountKey, parsed, KeyHandler.check_ok_bind, allowed, Throwing.require_true_bind]
        refine Throwing.always_bind.mpr (Throwing.always_adapt.mpr (always_getAccount found ?_))
        simp only [Except.mapError, AccountRow.intoDomain, status]
        exact ⟨rfl, rfl⟩
      · refine .keysSpared ?_ ?_
        · rw [writes, named_ok parsed]
          exact fun same => own (Option.some.inj same).symm
        · rw [KeyService.handle, AccountService.addAccountKey, parsed, KeyHandler.check_ok_bind]
          refine .map (.bind (.require _ _) fun _ => .bind (.adapt (getAccount_spares id)) fun _ => ?_)
          refine .bind (.require _ _) fun _ => .bind (.okOr _ _) fun _ => .bind (.ofExcept _) fun _ => ?_
          refine .bind (.ask _) fun _ => .bind (.adapt (createKey_spares ?_)) fun _ => .pure _
          exact fun same => own (Option.some.inj same).symm

private theorem addUserKey_harmless (deleted : owner.Deleted store) (subject : Subject)
    (request : AddUserKeyRequest) : Harmless service owner store (.keys (.addUserKey subject request)) := by
  cases parsed : parseUuid service.parsers "user_id" request.userId with
  | error error =>
    refine .keysRefused (Throwing.Refused.map ⟨.domain error, ?_⟩ _)
    rw [UserService.addUserKey, parsed, KeyHandler.check_error_bind]
  | ok id =>
    cases allowed : permittedUser subject id "users.admin" with
    | false =>
      refine .keysRefused (Throwing.Refused.map ⟨.domain (.userNotFound id), ?_⟩ _)
      rw [UserService.addUserKey, parsed, KeyHandler.check_ok_bind, allowed, Throwing.require_false_bind]
    | true =>
      by_cases own : owner = .user id
      · subst own
        obtain ⟨row, found, status⟩ := deleted
        refine .keysRejected (Throwing.always_map.mpr ?_)
        rw [UserService.addUserKey, parsed, KeyHandler.check_ok_bind, allowed, Throwing.require_true_bind]
        refine Throwing.always_bind.mpr (Throwing.always_adapt.mpr (always_getUser found ?_))
        simp only [Except.mapError, UserRow.intoDomain, status]
        exact ⟨rfl, rfl⟩
      · refine .keysSpared ?_ ?_
        · rw [writes, named_ok parsed]
          exact fun same => own (Option.some.inj same).symm
        · rw [KeyService.handle, UserService.addUserKey, parsed, KeyHandler.check_ok_bind]
          refine .map (.bind (.require _ _) fun _ => .bind (.adapt (getUser_spares id)) fun _ => ?_)
          refine .bind (.require _ _) fun _ => .bind (.okOr _ _) fun _ => .bind (.ofExcept _) fun _ => ?_
          refine .bind (.ask _) fun _ => .bind (.adapt (createKey_spares ?_)) fun _ => .pure _
          exact fun same => own (Option.some.inj same).symm

private theorem revokeAccountKey_harmless (deleted : owner.Deleted store) (subject : Subject)
    (request : RevokeAccountKeyRequest) : Harmless service owner store (.keys (.revokeAccountKey subject request)) := by
  cases parsed : parseUuid service.parsers "account_id" request.accountId with
  | error error =>
    refine .keysRefused (Throwing.Refused.map ⟨.domain error, ?_⟩ _)
    rw [AccountService.revokeAccountKey, parsed, KeyHandler.check_error_bind]
  | ok id =>
    cases key : parseUuid service.parsers "key_id" request.keyId with
    | error error =>
      refine .keysRefused (Throwing.Refused.map ⟨.domain error, ?_⟩ _)
      rw [AccountService.revokeAccountKey, parsed, KeyHandler.check_ok_bind, key, KeyHandler.check_error_bind]
    | ok keyId =>
      cases allowed : permitted subject id "accounts.admin" with
      | false =>
        refine .keysRefused (Throwing.Refused.map ⟨.domain (.accountNotFound id), ?_⟩ _)
        rw [AccountService.revokeAccountKey, parsed, KeyHandler.check_ok_bind, key, KeyHandler.check_ok_bind, allowed,
          Throwing.require_false_bind]
      | true =>
        by_cases own : owner = .account id
        · subst own
          obtain ⟨row, found, status⟩ := deleted
          refine .keysRejected (Throwing.always_map.mpr ?_)
          rw [AccountService.revokeAccountKey, parsed, KeyHandler.check_ok_bind, key, KeyHandler.check_ok_bind,
            allowed, Throwing.require_true_bind]
          refine Throwing.always_bind.mpr (Throwing.always_adapt.mpr (always_getAccount found ?_))
          simp only [Except.mapError, AccountRow.intoDomain, status]
          exact ⟨rfl, rfl⟩
        · refine .keysSpared ?_ ?_
          · rw [writes, named_ok parsed]
            exact fun same => own (Option.some.inj same).symm
          · rw [KeyService.handle, AccountService.revokeAccountKey, parsed, KeyHandler.check_ok_bind]
            refine .map (.bind (.ofExcept _) fun _ => .bind (.require _ _) fun _ => ?_)
            refine .bind (.adapt (getAccount_spares id)) fun _ => .bind (.require _ _) fun _ => ?_
            refine .bind (.adapt listActive_spares) fun _ => .bind (.require _ _) fun _ => ?_
            refine .bind (.adapt (revoke_spares ?_)) fun _ => .pure _
            exact fun same => own (Option.some.inj same).symm

/-- The status of the user is not looked at. -/
private theorem revokeUserKey_harmless (subject : Subject) (request : RevokeUserKeyRequest)
    (other : ¬ Overwrites service owner (.keys (.revokeUserKey subject request))) :
    Harmless service owner store (.keys (.revokeUserKey subject request)) := by
  cases parsed : parseUuid service.parsers "user_id" request.userId with
  | error error =>
    refine .keysRefused (Throwing.Refused.map ⟨.domain error, ?_⟩ _)
    rw [UserService.revokeUserKey, parsed, KeyHandler.check_error_bind]
  | ok id =>
    cases key : parseUuid service.parsers "key_id" request.keyId with
    | error error =>
      refine .keysRefused (Throwing.Refused.map ⟨.domain error, ?_⟩ _)
      rw [UserService.revokeUserKey, parsed, KeyHandler.check_ok_bind, key, KeyHandler.check_error_bind]
    | ok keyId =>
      cases allowed : permittedUser subject id "users.admin" with
      | false =>
        refine .keysRefused (Throwing.Refused.map ⟨.domain (.userNotFound id), ?_⟩ _)
        rw [UserService.revokeUserKey, parsed, KeyHandler.check_ok_bind, key, KeyHandler.check_ok_bind, allowed,
          Throwing.require_false_bind]
      | true =>
        have apart : owner ≠ .user id := fun own => other ⟨id, keyId, own, parsed, key, allowed⟩
        refine .keysSpared ?_ ?_
        · rw [writes, named_ok parsed]
          exact fun same => apart (Option.some.inj same).symm
        · rw [KeyService.handle, UserService.revokeUserKey, parsed, KeyHandler.check_ok_bind]
          refine .map (.bind (.ofExcept _) fun _ => .bind (.require _ _) fun _ => ?_)
          refine .bind (.adapt listActive_spares) fun _ => .bind (.require _ _) fun _ => ?_
          refine .bind (.adapt (revoke_spares ?_)) fun _ => .pure _
          exact fun same => apart (Option.some.inj same).symm

/-- A call that does not overwrite the deleted owner leaves it frozen. -/
private theorem harmless (deleted : owner.Deleted store) {request : RegistryRequest}
    (other : ¬ Overwrites service owner request) : Harmless service owner store request := by
  cases request with
  | createAccount subject request => exact createAccount_harmless deleted subject request
  | createUser subject request => exact createUser_harmless deleted subject request
  | updateAccount subject request => exact updateAccount_harmless deleted subject request
  | updateUser subject request => exact updateUser_harmless deleted subject request
  | deleteAccount subject request => exact deleteAccount_harmless subject request other
  | deleteUser subject request => exact deleteUser_harmless subject request other
  | getAccount request =>
    refine .spared nofun (.map (.bind (.ofExcept _) fun id => ?_))
    exact .bind (.adapt (ofKeys_spares (getAccount_spares id))) fun _ => .pure _
  | getUser subject request =>
    refine .spared nofun (.map (.bind (.ofExcept _) fun id => .bind (.require _ _) fun _ => ?_))
    exact .bind (.adapt (ofKeys_spares (getUser_spares id))) fun _ => .pure _
  | keys request =>
    cases request with
    | addAccountKey subject request => exact addAccountKey_harmless deleted subject request
    | addUserKey subject request => exact addUserKey_harmless deleted subject request
    | revokeAccountKey subject request => exact revokeAccountKey_harmless deleted subject request
    | revokeUserKey subject request => exact revokeUserKey_harmless subject request other

end Steps

section Overwriting

/-- What a call answers when it is served alone. -/
private theorem serve_always (call : Call) {post : Except Status RegistryResponse → KeyStore → Prop}
    (always : (service.handle call.request).Always RegistryStatement.execute post store) :
    post (serve service call store).1 (serve service call store).2 := Program.Always.alone always call.answers

private theorem softDeleteAccount_ok {id : Uuid} (deleted : (Owner.account id).Deleted store) :
    (PgAccountRepo.softDelete id).Always RegistryStatement.execute (fun outcome _ => ∃ account, outcome = .ok account)
      store := by
  obtain ⟨row, found, _⟩ := deleted
  refine Throwing.always_bind.mpr (always_get.mpr (Throwing.always_bind.mpr fun now => Throwing.always_bind.mpr ?_))
  refine .statement (RegistryStatement.deleteAccount id now) (fun result after ran => ?_) fun fault refused => ?_
  · simp only [RegistryStatement.execute, found] at ran
    cases ran
    exact ⟨_, rfl⟩
  · simp [RegistryStatement.execute, found] at refused

private theorem softDeleteUser_ok {id : Uuid} (deleted : (Owner.user id).Deleted store) :
    (PgUserRepo.softDelete id).Always RegistryStatement.execute (fun outcome _ => ∃ user, outcome = .ok user) store := by
  obtain ⟨row, found, _⟩ := deleted
  refine Throwing.always_bind.mpr (always_get.mpr (Throwing.always_bind.mpr fun now => Throwing.always_bind.mpr ?_))
  refine .statement (RegistryStatement.deleteUser id now) (fun result after ran => ?_) fun fault refused => ?_
  · simp only [RegistryStatement.execute, found] at ran
    cases ran
    exact ⟨_, rfl⟩
  · simp [RegistryStatement.execute, found] at refused

private theorem always_listActive {id : Uuid} {post : Except HeadlinesError (List StoredKey) → KeyStore → Prop} :
    (PgKeyRepo.listActive .user id).Always KeyStatement.execute post store ↔
      post (.ok (((store.keys .user).active id).map (KeyRow.intoDomain .user))) store := .rfl

/-- A revocation tells nothing of the user's status. -/
private theorem revoke_error (id keyId : Uuid) :
    (PgKeyRepo.revoke .user id keyId).Always KeyStatement.execute
      (fun outcome _ => outcome ≠ .error (.userDeleted id)) store := by
  refine Throwing.always_bind.mpr (always_keysGet.mpr (Throwing.always_bind.mpr ?_))
  refine .statement (KeyStatement.selectKey .user id keyId) (fun existing after _ => ?_) nofun
  refine Throwing.always_bind.mpr (Throwing.always_okOr.mpr ?_)
  cases existing with
  | none => exact nofun
  | some existing =>
    refine Throwing.always_bind.mpr (Throwing.always_require.mpr ?_)
    cases existing.status != .revoked with
    | false => exact nofun
    | true =>
      refine Throwing.always_bind.mpr fun now => Throwing.always_bind.mpr ?_
      refine .statement (KeyStatement.revokeKey .user id keyId now) (fun updated last _ => ?_) nofun
      refine Throwing.always_bind.mpr (Throwing.always_okOr.mpr ?_)
      cases updated <;> exact nofun

/-- What is left of a revocation of a user's key that passes the checks. -/
private theorem revokeUserKey_eq {subject : Subject} {request : RevokeUserKeyRequest} {id keyId : Uuid}
    (parsed : parseUuid service.parsers "user_id" request.userId = .ok id)
    (key : parseUuid service.parsers "key_id" request.keyId = .ok keyId)
    (allowed : permittedUser subject id "users.admin") :
    UserService.revokeUserKey service.toKeyService subject request = (do
      let active ← KeyHandler.repo (PgKeyRepo.listActive .user id)
      Throwing.require (!(lastActive active keyId && !subject.hasScope "admin.*")) (.domain .lastActiveKey)
      let revoked ← KeyHandler.repo (PgKeyRepo.revoke .user id keyId)
      return UserService.keyToProto revoked) := by
  rw [UserService.revokeUserKey, parsed, KeyHandler.check_ok_bind, key, KeyHandler.check_ok_bind, allowed,
    Throwing.require_true_bind]

/-- It is never refused because the user is deleted. -/
private theorem revokeUserKey_error {subject : Subject} {request : RevokeUserKeyRequest} {id keyId : Uuid}
    (parsed : parseUuid service.parsers "user_id" request.userId = .ok id)
    (key : parseUuid service.parsers "key_id" request.keyId = .ok keyId)
    (allowed : permittedUser subject id "users.admin") :
    (service.handle (.keys (.revokeUserKey subject request))).Always RegistryStatement.execute
      (fun response _ => response ≠ .error (.domain (.userDeleted id))) store := by
  refine Throwing.always_map.mpr (Throwing.always_embed.mpr (Throwing.always_map.mpr ?_))
  rw [revokeUserKey_eq parsed key allowed]
  refine Throwing.always_bind.mpr (Throwing.always_adapt.mpr (always_listActive.mpr ?_))
  refine Throwing.always_bind.mpr (Throwing.always_require.mpr ?_)
  cases !(lastActive (((store.keys .user).active id).map (KeyRow.intoDomain .user)) keyId &&
    !subject.hasScope "admin.*") with
  | false => exact nofun
  | true =>
    refine Throwing.always_bind.mpr (Throwing.always_adapt.mpr ((revoke_error id keyId).mono fun outcome _ other => ?_))
    cases outcome with
    | ok revoked => exact nofun
    | error error =>
      intro same
      cases same
      exact other rfl

/-- A store that holds these keys and nothing else. -/
private def keyStore (table : KeyTable) : KeyStore where
  accounts _ := none
  users _ := none
  keys _ := table

/-- Where the user has no active key, the key itself decides. -/
private theorem revokeUserKey_inactive {table : KeyTable} {subject : Subject} {request : RevokeUserKeyRequest}
    {id keyId : Uuid} {error : HeadlinesError} (parsed : parseUuid service.parsers "user_id" request.userId = .ok id)
    (key : parseUuid service.parsers "key_id" request.keyId = .ok keyId)
    (allowed : permittedUser subject id "users.admin") (inactive : table.active id = [])
    (found : (table.find id keyId).elim (error = .keyNotFound keyId)
      fun row => row.status = .revoked ∧ error = .keyAlreadyRevoked keyId) :
    (service.handle (.keys (.revokeUserKey subject request))).Always RegistryStatement.execute
      (fun response _ => response = .error (.domain error)) (keyStore table) := by
  refine Throwing.always_map.mpr (Throwing.always_embed.mpr (Throwing.always_map.mpr ?_))
  rw [revokeUserKey_eq parsed key allowed]
  refine Throwing.always_bind.mpr (Throwing.always_adapt.mpr (always_listActive.mpr ?_))
  refine Throwing.always_bind.mpr (Throwing.always_require.mpr ?_)
  simp only [keyStore, inactive, List.map_nil, lastActive, List.any_nil, Bool.false_and, Bool.not_false, if_true]
  refine Throwing.always_bind.mpr (Throwing.always_adapt.mpr ?_)
  refine Throwing.always_bind.mpr (always_keysGet.mpr (Throwing.always_bind.mpr ?_))
  refine .statement (KeyStatement.selectKey .user id keyId) (fun existing after ran => ?_) nofun
  cases ran
  refine Throwing.always_bind.mpr (Throwing.always_okOr.mpr ?_)
  cases held : table.find id keyId with
  | none =>
    rw [held] at found
    exact congrArg (fun error => Except.error (Status.domain error)) (Eq.symm found)
  | some row =>
    rw [held] at found
    obtain ⟨revoked, rfl⟩ := found
    refine Throwing.always_bind.mpr (Throwing.always_require.mpr ?_)
    simp only [revoked]
    rfl

/-- A call that overwrites a deleted owner is not rejected. -/
private theorem accepted {call : Call} (deleted : owner.Deleted store) (overwrites : Overwrites service owner call.request) :
    writes service call.request = some owner ∧
      ¬ Rejected service owner call.request (serve service call store).1 := by
  obtain ⟨request, answers⟩ := call
  have answered (always : (service.handle request).Always RegistryStatement.execute
      (fun response _ => ∃ result, response = .ok result) store) :
      ¬ Rejected service owner request (serve service ⟨request, answers⟩ store).1 := by
    obtain ⟨result, same⟩ := serve_always ⟨request, answers⟩ always
    rw [same]
    rintro (told | ⟨_, told, _⟩) <;> contradiction
  cases request with
  | deleteAccount subject request =>
    obtain ⟨id, rfl, parsed, allowed⟩ := overwrites
    refine ⟨by rw [writes, named_ok parsed], answered ?_⟩
    rw [RegistryService.handle, AccountService.deleteAccount, parsed, RegistryHandler.check_ok_bind, allowed,
      Throwing.require_true_bind]
    refine Throwing.always_map.mpr (Throwing.always_bind.mpr (Throwing.always_adapt.mpr ?_))
    exact (softDeleteAccount_ok deleted).mono (by
      rintro outcome after ⟨_, same⟩
      subst same
      exact ⟨_, rfl⟩)
  | deleteUser subject request =>
    obtain ⟨id, rfl, parsed, allowed⟩ := overwrites
    refine ⟨by rw [writes, named_ok parsed], answered ?_⟩
    rw [RegistryService.handle, UserService.deleteUser, parsed, RegistryHandler.check_ok_bind, allowed,
      Throwing.require_true_bind]
    refine Throwing.always_map.mpr (Throwing.always_bind.mpr (Throwing.always_adapt.mpr ?_))
    exact (softDeleteUser_ok deleted).mono (by
      rintro outcome after ⟨_, same⟩
      subst same
      exact ⟨_, rfl⟩)
  | keys request =>
    cases request with
    | revokeUserKey subject request =>
      obtain ⟨id, keyId, rfl, parsed, key, allowed⟩ := overwrites
      refine ⟨by rw [writes, named_ok parsed], ?_⟩
      have refused (table : KeyTable) (error : HeadlinesError) (inactive : table.active id = [])
          (found : (table.find id keyId).elim (error = .keyNotFound keyId)
            fun row => row.status = .revoked ∧ error = .keyAlreadyRevoked keyId) :
          (serve service ⟨.keys (.revokeUserKey subject request), answers⟩ (keyStore table)).1 =
            .error (.domain error) :=
        serve_always ⟨_, answers⟩ (revokeUserKey_inactive parsed key allowed inactive found)
      rintro (told | ⟨error, _, denied⟩)
      · exact serve_always ⟨_, answers⟩ (revokeUserKey_error parsed key allowed) told
      · -- A missing key and a revoked one are refused with different errors.
        let key : KeyRow := ⟨id, keyId, "", "", .revoked, 0, none⟩
        have missing := refused .empty _ rfl rfl
        have revoked := refused ⟨[key], List.nodup_singleton _⟩ (.keyAlreadyRevoked keyId)
          (by simp [KeyTable.active, key]) (by simp [KeyTable.find, key])
        rw [denied answers] at missing revoked
        cases missing.symm.trans revoked
    | _ => exact overwrites.elim
  | _ => exact overwrites.elim

end Overwriting

/-- A deleted owner stays as it is exactly as long as nobody deletes it again or revokes a key of the user. -/
theorem frozen_iff (service : RegistryService) (owner : Owner) (store : KeyStore) (calls : List Call)
    (deleted : owner.Deleted store) :
    Frozen service owner store calls ↔ ∀ call ∈ calls, ¬ Overwrites service owner call.request := by
  induction calls generalizing store with
  | nil => exact ⟨fun _ call member => absurd member List.not_mem_nil, fun _ => trivial⟩
  | cons call rest ih =>
    constructor
    · rintro ⟨same, rejected, others⟩ other member
      rcases List.mem_cons.mp member with rfl | later
      · intro overwrites
        obtain ⟨own, accepted⟩ := accepted deleted overwrites
        exact accepted (rejected own)
      · exact (ih _ (same.deleted deleted)).mp others other later
    · intro none
      have step : owner.Unchanged store (serve service call store).2 ∧ (writes service call.request = some owner →
          Rejected service owner call.request (serve service call store).1) :=
        serve_always call (harmless deleted (none call List.mem_cons_self))
      have others := (ih _ (step.1.deleted deleted)).mpr fun other member => none other (List.mem_cons_of_mem _ member)
      exact ⟨step.1, step.2, others⟩

/-- Serving calls one after the other is what the system does with sessions that do not overlap. -/
theorem serve_reached (service : RegistryService) (call : Call) {initial : KeyStore → Prop}
    {s : State RegistryStatement.Result Answer RegistryRequest (Except Status RegistryResponse) KeyStore} {id : ℕ}
    (unused : s.sessions id = none) :
    ∃ labels after past, (service.system.machine initial).Run Machine.anything s labels after ∧
      after.store = (serve service call s.store).2 ∧
      after.sessions id = some ⟨call.request, .done (serve service call s.store).1, past⟩ ∧
      ∀ other, other ≠ id → after.sessions other = s.sessions other :=
  System.run_alone service.system initial call.answers unused call.request

/-- A service without algorithms. -/
def bare : RegistryService where
  parsers := Sample.parsers
  algorithms _ := none
  decode _ := .error ""
  bootstrap := .open

/-- One active account without keys. -/
def oneAccount : KeyStore where
  accounts id := Sample.registered (.account id)
  users _ := none
  keys _ := .empty

/-- The account deletes itself. -/
def deletion (now : Timestamp) : Call where
  request := .deleteAccount Sample.author ⟨Sample.accountText⟩
  answers
    | _, .now => now
    | _, .nowV7 => ⟨0⟩

/-- The account gives itself another name. -/
def relabel : Call where
  request := .updateAccount Sample.author
    { account := some { id := Sample.accountText, shortName := "", authorName := "b", authorUrl := "", status := .active,
                        deletedAt := none, createdAt := none, updatedAt := none }
      updateMask := some ["author_name"] }
  answers
    | _, .now => 0
    | _, .nowV7 => ⟨0⟩

/-- The store after the account was deleted. -/
def oneDeleted : KeyStore := (serve bare (deletion 0) oneAccount).2

private theorem deleted_once : (Owner.account Sample.account).Deleted oneDeleted := by
  have evaluated : (oneDeleted.accounts Sample.account).any (fun row => row.status = .deleted) := by decide +kernel
  obtain ⟨row, found, status⟩ := Option.any_eq_true _ _ |>.mp evaluated
  exact ⟨row, found, of_decide_eq_true status⟩

theorem frozen_renamed : Frozen bare (.account Sample.account) oneDeleted [relabel] :=
  (frozen_iff bare (.account Sample.account) oneDeleted [relabel] deleted_once).mpr fun call member overwrites => by
    rw [List.mem_singleton.mp member] at overwrites
    exact overwrites

/-- A second deletion of an account gives it another time of deletion. -/
theorem deleted_again : (Owner.account Sample.account).Deleted oneDeleted ∧
    ¬ Frozen bare (.account Sample.account) oneDeleted [deletion 1000] := by
  refine ⟨deleted_once, fun ⟨⟨same, _⟩, _⟩ => ?_⟩
  have stamped : (oneDeleted.accounts Sample.account).map AccountRow.deletedAt ≠
      ((serve bare (deletion 1000) oneDeleted).2.accounts Sample.account).map AccountRow.deletedAt := by
    decide +kernel
  exact stamped (congrArg _ same.symm)

end Headlines.Soundness.Deletion
