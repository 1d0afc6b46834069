import Headlines.Autocommit.Alone
import Headlines.Store.Registry

/-! # What a statement can change of an account or user

An account or user owns its row and its key rows. A statement changes what it is addressed to, and repository code
that is addressed to others leaves an owner alone.
-/

namespace Headlines.Store

open Core Autocommit

/-- An account or a user. -/
inductive Owner where
  | account (id : Uuid)
  | user (id : Uuid)
deriving DecidableEq

/-- The owner of the keys in a key table. -/
def KeyKind.owner (id : Uuid) : KeyKind → Option Owner
  | .account => some (.account id)
  | .user => some (.user id)
  | .system => none

namespace Owner

def Deleted (store : KeyStore) : Owner → Prop
  | .account id => ∃ row, store.accounts id = some row ∧ row.status = .deleted
  | .user id => ∃ row, store.users id = some row ∧ row.status = .deleted

/-- The row and all key rows are the same in both stores. -/
def Unchanged : Owner → KeyStore → KeyStore → Prop
  | .account id, store, after => after.accounts id = store.accounts id ∧
      (after.keys .account).rows.filter (·.parentId = id) = (store.keys .account).rows.filter (·.parentId = id)
  | .user id, store, after => after.users id = store.users id ∧
      (after.keys .user).rows.filter (·.parentId = id) = (store.keys .user).rows.filter (·.parentId = id)

/-- The row is there. -/
def Present (store : KeyStore) : Owner → Prop
  | .account id => (store.accounts id).isSome
  | .user id => (store.users id).isSome

/-- Some key row is there. -/
def Keyed (store : KeyStore) : Owner → Prop
  | .account id => ∃ row ∈ (store.keys .account).rows, row.parentId = id
  | .user id => ∃ row ∈ (store.keys .user).rows, row.parentId = id

def deletedError : Owner → HeadlinesError
  | .account id => .accountDeleted id
  | .user id => .userDeleted id

theorem Unchanged.refl (owner : Owner) (store : KeyStore) : owner.Unchanged store store := by
  cases owner <;> exact ⟨rfl, rfl⟩

theorem Unchanged.trans {owner : Owner} {store middle after : KeyStore} (first : owner.Unchanged store middle)
    (second : owner.Unchanged middle after) : owner.Unchanged store after := by
  cases owner <;> exact ⟨second.1.trans first.1, second.2.trans first.2⟩

theorem Unchanged.deleted {owner : Owner} {store after : KeyStore} (same : owner.Unchanged store after)
    (deleted : owner.Deleted store) : owner.Deleted after := by
  cases owner <;>
  · obtain ⟨row, found, status⟩ := deleted
    exact ⟨row, same.1.trans found, status⟩

end Owner

/-- What a statement may change. -/
def touches : RegistryStatement → Option Owner
  | .insertAccount id _ | .updateAccount id .. | .deleteAccount id _ => some (.account id)
  | .insertUser id _ | .updateUser id _ | .deleteUser id _ => some (.user id)
  | .keys (.insertKey kind row) => KeyKind.owner row.parentId kind
  | .keys (.revokeKey kind parentId ..) => KeyKind.owner parentId kind
  | .keys _ => none

variable {owner : Owner} {store after : KeyStore} {ρ : Type}

private theorem filter_insert {table inserted : KeyTable} {row : KeyRow} {id : Uuid}
    (added : table.insert row = some inserted) (apart : row.parentId ≠ id) :
    inserted.rows.filter (·.parentId = id) = table.rows.filter (·.parentId = id) := by
  rw [KeyTable.insert] at added
  split at added
  · cases added
    simp [apart]
  · contradiction

private theorem filter_revoke {table : KeyTable} {parentId id : Uuid} (apart : parentId ≠ id) (keyId : Uuid)
    (now : Timestamp) :
    (table.revoke parentId keyId now).rows.filter (·.parentId = id) = table.rows.filter (·.parentId = id) := by
  rw [KeyTable.revoke, List.filter_map]
  have same : List.filter ((fun row => decide (row.parentId = id)) ∘ fun row : KeyRow =>
      if row.parentId = parentId ∧ row.keyId = keyId then { row with status := .revoked, revokedAt := some now.stored }
      else row) table.rows = table.rows.filter (·.parentId = id) := by
    refine List.filter_congr fun row _ => ?_
    simp only [Function.comp_apply]
    split <;> rfl
  rw [same]
  refine (List.map_congr_left fun row member => if_neg ?_).trans (List.map_id _)
  rintro ⟨rfl, _⟩
  exact apart (of_decide_eq_true (List.mem_filter.mp member).2)

/-- A new table of keys leaves an owner alone if its rows of that owner are the old ones. -/
private theorem unchanged_setKeys {kind : KeyKind} {table : KeyTable} (same : ∀ id, KeyKind.owner id kind = some owner →
    table.rows.filter (·.parentId = id) = (store.keys kind).rows.filter (·.parentId = id)) :
    owner.Unchanged store (store.setKeys kind table) := by
  cases owner with
  | account id =>
    refine ⟨rfl, ?_⟩
    rcases eq_or_ne .account kind with rfl | differs
    · rw [KeyStore.setKeys_self]
      exact same id rfl
    · rw [KeyStore.setKeys_of_ne _ differs]
  | user id =>
    refine ⟨rfl, ?_⟩
    rcases eq_or_ne .user kind with rfl | differs
    · rw [KeyStore.setKeys_self]
      exact same id rfl
    · rw [KeyStore.setKeys_of_ne _ differs]

private theorem unchanged_setAccount {id : Uuid} {row : AccountRow} (apart : owner ≠ .account id) :
    owner.Unchanged store (store.setAccount id row) := by
  cases owner with
  | account other => exact ⟨Function.update_of_ne (fun same => apart (congrArg _ same)) .., rfl⟩
  | user other => exact ⟨rfl, rfl⟩

private theorem unchanged_setUser {id : Uuid} {row : UserRow} (apart : owner ≠ .user id) :
    owner.Unchanged store (store.setUser id row) := by
  cases owner with
  | account other => exact ⟨rfl, rfl⟩
  | user other => exact ⟨Function.update_of_ne (fun same => apart (congrArg _ same)) .., rfl⟩

private theorem owner_ne {kind : KeyKind} {parentId id : Uuid} (apart : KeyKind.owner parentId kind ≠ some owner)
    (own : KeyKind.owner id kind = some owner) : parentId ≠ id := by
  rintro rfl
  exact apart own

/-- A statement changes only what it touches. -/
theorem execute_unchanged (statement : RegistryStatement) {result : statement.Result}
    (apart : touches statement ≠ some owner) (ran : statement.execute store = .ok (result, after)) :
    owner.Unchanged store after := by
  cases statement with
  | keys statement =>
    cases statement with
    | acquire | selectAccount | selectUser | selectKey | selectActive =>
      cases ran
      exact .refl owner store
    | insertKey kind row =>
      simp only [RegistryStatement.execute, KeyStatement.execute] at ran
      split at ran
      · contradiction
      · next table inserted =>
        split at ran
        · cases ran
          exact unchanged_setKeys fun id own => filter_insert inserted (owner_ne apart own)
        · contradiction
    | revokeKey kind parentId keyId now =>
      cases ran
      exact unchanged_setKeys fun id own => filter_revoke (owner_ne apart own) keyId now
  | insertAccount id row =>
    simp only [RegistryStatement.execute] at ran
    split at ran
    · contradiction
    · split at ran
      · cases ran
        exact unchanged_setAccount fun same => apart (congrArg some same.symm)
      · contradiction
  | updateAccount id field now =>
    simp only [RegistryStatement.execute] at ran
    split at ran
    · split at ran <;> cases ran
      · exact .refl owner store
      · exact unchanged_setAccount fun same => apart (congrArg some same.symm)
    · contradiction
  | deleteAccount id now =>
    simp only [RegistryStatement.execute] at ran
    split at ran <;> cases ran
    · exact .refl owner store
    · exact unchanged_setAccount fun same => apart (congrArg some same.symm)
  | insertUser id row =>
    simp only [RegistryStatement.execute] at ran
    split at ran
    · contradiction
    · split at ran
      · cases ran
        exact unchanged_setUser fun same => apart (congrArg some same.symm)
      · contradiction
  | updateUser id displayName =>
    simp only [RegistryStatement.execute] at ran
    split at ran
    · split at ran <;> cases ran
      · exact .refl owner store
      · exact unchanged_setUser fun same => apart (congrArg some same.symm)
    · contradiction
  | deleteUser id now =>
    simp only [RegistryStatement.execute] at ran
    split at ran <;> cases ran
    · exact .refl owner store
    · exact unchanged_setUser fun same => apart (congrArg some same.symm)

/-- The account or user whose row a statement inserts. -/
def inserts : RegistryStatement → Option Owner
  | .insertAccount id _ => some (.account id)
  | .insertUser id _ => some (.user id)
  | _ => none

private theorem present_setAccount {id : Uuid} {row : AccountRow} :
    owner.Present (store.setAccount id row) ↔ owner.Present store ∨ Owner.account id = owner := by
  cases owner with
  | account other =>
    rcases eq_or_ne other id with rfl | differs
    · simp [Owner.Present, KeyStore.setAccount]
    · simp [Owner.Present, KeyStore.setAccount, differs, differs.symm]
  | user other => simp [Owner.Present, KeyStore.setAccount]

private theorem present_setUser {id : Uuid} {row : UserRow} :
    owner.Present (store.setUser id row) ↔ owner.Present store ∨ Owner.user id = owner := by
  cases owner with
  | account other => simp [Owner.Present, KeyStore.setUser]
  | user other =>
    rcases eq_or_ne other id with rfl | differs
    · simp [Owner.Present, KeyStore.setUser]
    · simp [Owner.Present, KeyStore.setUser, differs, differs.symm]

/-- A statement inserts the rows it says, and takes none away. -/
theorem present_of_execute (statement : RegistryStatement) {result : statement.Result}
    (ran : statement.execute store = .ok (result, after)) :
    owner.Present after ↔ owner.Present store ∨ inserts statement = some owner := by
  -- An update or a deletion finds its row.
  have found {Row : Type} {rows : Uuid → Option Row} {id : Uuid} {row : Row} {make : Uuid → Owner}
      (there : rows id = some row) (held : (rows id).isSome → (make id).Present store)
      (same : make id = owner) : owner.Present store := by
    rw [← same]
    exact held (by rw [there]; rfl)
  cases statement with
  | keys statement =>
    have same : after.accounts = store.accounts ∧ after.users = store.users := by
      cases statement with
      | insertKey kind row =>
        simp only [RegistryStatement.execute, KeyStatement.execute] at ran
        split at ran
        · contradiction
        · split at ran
          · cases ran
            exact ⟨rfl, rfl⟩
          · contradiction
      | _ =>
        cases ran
        exact ⟨rfl, rfl⟩
    rw [or_iff_left (by simp [inserts])]
    cases owner <;> simp only [Owner.Present, same]
  | insertAccount id row =>
    simp only [RegistryStatement.execute] at ran
    split at ran
    · contradiction
    · split at ran
      · cases ran
        simp [present_setAccount, inserts]
      · contradiction
  | insertUser id row =>
    simp only [RegistryStatement.execute] at ran
    split at ran
    · contradiction
    · split at ran
      · cases ran
        simp [present_setUser, inserts]
      · contradiction
  | updateAccount id field now =>
    rw [or_iff_left (by simp [inserts])]
    simp only [RegistryStatement.execute] at ran
    split at ran
    · split at ran <;> cases ran
      · rfl
      · next row there => exact present_setAccount.trans (or_iff_left_of_imp (found there fun held => held))
    · contradiction
  | deleteAccount id now =>
    rw [or_iff_left (by simp [inserts])]
    simp only [RegistryStatement.execute] at ran
    split at ran <;> cases ran
    · rfl
    · next row there => exact present_setAccount.trans (or_iff_left_of_imp (found there fun held => held))
  | updateUser id displayName =>
    rw [or_iff_left (by simp [inserts])]
    simp only [RegistryStatement.execute] at ran
    split at ran
    · split at ran <;> cases ran
      · rfl
      · next row there => exact present_setUser.trans (or_iff_left_of_imp (found there fun held => held))
    · contradiction
  | deleteUser id now =>
    rw [or_iff_left (by simp [inserts])]
    simp only [RegistryStatement.execute] at ran
    split at ran <;> cases ran
    · rfl
    · next row there => exact present_setUser.trans (or_iff_left_of_imp (found there fun held => held))

private theorem setAccount_account {id : Uuid} {old : AccountRow} (other : Uuid) (row : AccountRow) (found : store.accounts id = some old) :
    ∃ last, (store.setAccount other row).accounts id = some last ∧ (last = old ∨ id = other ∧ last = row) := by
  rcases eq_or_ne id other with rfl | differs
  · exact ⟨row, Function.update_self .., .inr ⟨rfl, rfl⟩⟩
  · exact ⟨old, (Function.update_of_ne differs ..).trans found, .inl rfl⟩

/-- Only a deletion changes the status of an account. -/
theorem status_of_execute (statement : RegistryStatement) {result : statement.Result} {id : Uuid} {row : AccountRow}
    (found : store.accounts id = some row) (ran : statement.execute store = .ok (result, after)) :
    ∃ last, after.accounts id = some last ∧
      (last.status = row.status ∨ (∃ now, statement = .deleteAccount id now) ∧ last.status = .deleted) := by
  cases statement with
  | keys statement =>
    refine ⟨row, ?_, .inl rfl⟩
    cases statement with
    | insertKey kind added =>
      simp only [RegistryStatement.execute, KeyStatement.execute] at ran
      split at ran
      · contradiction
      · split at ran
        · cases ran
          exact found
        · contradiction
    | _ =>
      cases ran
      exact found
  | insertAccount other added =>
    simp only [RegistryStatement.execute] at ran
    split at ran
    · contradiction
    · next unused =>
      split at ran
      · cases ran
        obtain ⟨last, there, rfl | ⟨rfl, rfl⟩⟩ := setAccount_account other added found
        · exact ⟨_, there, .inl rfl⟩
        · simp [found] at unused
      · contradiction
  | updateAccount other field now =>
    simp only [RegistryStatement.execute] at ran
    split at ran
    · split at ran <;> cases ran
      · exact ⟨row, found, .inl rfl⟩
      · next old there =>
        obtain ⟨last, there', rfl | ⟨rfl, rfl⟩⟩ := setAccount_account other (field.apply now old) found
        · exact ⟨_, there', .inl rfl⟩
        · cases found.symm.trans there
          exact ⟨_, there', .inl (by cases field <;> rfl)⟩
    · contradiction
  | deleteAccount other now =>
    simp only [RegistryStatement.execute] at ran
    split at ran <;> cases ran
    · exact ⟨row, found, .inl rfl⟩
    · next old there =>
      obtain ⟨last, there', rfl | ⟨rfl, rfl⟩⟩ := setAccount_account other (old.delete now) found
      · exact ⟨_, there', .inl rfl⟩
      · exact ⟨_, there', .inr ⟨⟨now, rfl⟩, rfl⟩⟩
  | insertUser other added =>
    simp only [RegistryStatement.execute] at ran
    split at ran
    · contradiction
    · split at ran
      · cases ran
        exact ⟨row, found, .inl rfl⟩
      · contradiction
  | updateUser other displayName =>
    simp only [RegistryStatement.execute] at ran
    split at ran
    · split at ran <;> cases ran <;> exact ⟨row, found, .inl rfl⟩
    · contradiction
  | deleteUser other now =>
    simp only [RegistryStatement.execute] at ran
    split at ran <;> cases ran <;> exact ⟨row, found, .inl rfl⟩

namespace Owner

theorem execute_spares {statement : RegistryStatement} {context : String}
    (apart : touches statement ≠ some owner) :
    (RegistryDb.execute statement context).Preserves RegistryStatement.execute (owner.Unchanged store) :=
  .statement fun _ _ _ same ran => same.trans (execute_unchanged statement apart ran)

theorem keys_spare {statement : KeyStatement} {context : String}
    (apart : touches (.keys statement) ≠ some owner) :
    (KeyDb.execute statement context).Preserves KeyStatement.execute (owner.Unchanged store) :=
  .statement fun _ _ _ same ran => same.trans (execute_unchanged (.keys statement) apart ran)

theorem getAccount_spares (id : Uuid) :
    (KeyDb.getAccount id).Preserves KeyStatement.execute (owner.Unchanged store) :=
  .bind (keys_spare nofun) fun _ => .bind (keys_spare nofun) fun _ => .bind (.okOr _ _) fun _ => .pure _

theorem getUser_spares (id : Uuid) :
    (KeyDb.getUser id).Preserves KeyStatement.execute (owner.Unchanged store) :=
  .bind (keys_spare nofun) fun _ => .bind (keys_spare nofun) fun _ => .bind (.okOr _ _) fun _ => .pure _

theorem createKey_spares {new : NewKey} (apart : KeyKind.owner new.parentId new.kind ≠ some owner) :
    (PgKeyRepo.create new).Preserves KeyStatement.execute (owner.Unchanged store) := by
  obtain ⟨kind, parentId, keyId, algo, publicKey⟩ := new
  cases kind with
  | system => exact .throw _
  | account | user =>
    exact .bind (keys_spare nofun) fun _ => .bind (.ask _) fun _ => .bind (keys_spare apart) fun _ => .pure _

theorem listActive_spares {kind : KeyKind} {parentId : Uuid} :
    (PgKeyRepo.listActive kind parentId).Preserves KeyStatement.execute (owner.Unchanged store) := by
  cases kind with
  | system => exact .pure _
  | account | user => exact .bind (keys_spare nofun) fun _ => .bind (keys_spare nofun) fun _ => .pure _

theorem revoke_spares {kind : KeyKind} {parentId keyId : Uuid}
    (apart : KeyKind.owner parentId kind ≠ some owner) :
    (PgKeyRepo.revoke kind parentId keyId).Preserves KeyStatement.execute (owner.Unchanged store) := by
  cases kind with
  | system => exact .throw _
  | account | user =>
    refine .bind (keys_spare nofun) fun _ => .bind (keys_spare nofun) fun _ => ?_
    refine .bind (.okOr _ _) fun _ => .bind (.require _ _) fun _ => .bind (.ask _) fun _ => ?_
    exact .bind (keys_spare apart) fun _ => .bind (.okOr _ _) fun _ => .pure _

theorem ofKeys_spares {call : KeyDb ρ} (kept : call.Preserves KeyStatement.execute (owner.Unchanged store)) :
    (RegistryDb.ofKeys call).Preserves RegistryStatement.execute (owner.Unchanged store) := .embed kept

theorem get_spares : RegistryDb.get.Preserves RegistryStatement.execute (owner.Unchanged store) :=
  .embed (keys_spare nofun)

theorem updateAccount_spares {id : Uuid} (apart : owner ≠ .account id) (update : AccountUpdate) :
    (PgAccountRepo.update id update).Preserves RegistryStatement.execute (owner.Unchanged store) := by
  have set (now : Timestamp) (field : AccountField) (context : String) :
      (PgAccountRepo.setField id now field context).Preserves RegistryStatement.execute (owner.Unchanged store) :=
    .bind (execute_spares fun same => apart (Option.some.inj same).symm) fun _ => .pure _
  refine .bind get_spares fun _ => .bind (execute_spares nofun) fun _ => .bind (.okOr _ _) fun _ => ?_
  refine .bind (.require _ _) fun _ => .bind (.ask _) fun now => ?_
  refine .bind (.whenSome _ fun _ => set _ _ _) fun _ => .bind (.whenSome _ fun _ => set _ _ _) fun _ => ?_
  refine .bind (.whenSome _ fun _ => set _ _ _) fun _ => .bind (execute_spares nofun) fun _ => ?_
  exact .bind (.okOr _ _) fun _ => .pure _

theorem updateUser_spares {id : Uuid} (apart : owner ≠ .user id) (update : UserUpdate) :
    (PgUserRepo.update id update).Preserves RegistryStatement.execute (owner.Unchanged store) := by
  refine .bind get_spares fun _ => .bind (execute_spares nofun) fun _ => .bind (.okOr _ _) fun _ => ?_
  refine .bind (.require _ _) fun _ => ?_
  refine .bind (.whenSome _ fun _ => .bind (execute_spares fun same => apart (Option.some.inj same).symm)
    fun _ => .pure _) fun _ => ?_
  exact .bind (execute_spares nofun) fun _ => .bind (.okOr _ _) fun _ => .pure _

theorem deleteAccount_spares {id : Uuid} (apart : owner ≠ .account id) :
    (PgAccountRepo.softDelete id).Preserves RegistryStatement.execute (owner.Unchanged store) :=
  .bind get_spares fun _ => .bind (.ask _) fun _ =>
    .bind (execute_spares fun same => apart (Option.some.inj same).symm) fun _ => .bind (.okOr _ _) fun _ => .pure _

theorem deleteUser_spares {id : Uuid} (apart : owner ≠ .user id) :
    (PgUserRepo.softDelete id).Preserves RegistryStatement.execute (owner.Unchanged store) :=
  .bind get_spares fun _ => .bind (.ask _) fun _ =>
    .bind (execute_spares fun same => apart (Option.some.inj same).symm) fun _ => .bind (.okOr _ _) fun _ => .pure _

end Owner

end Headlines.Store
