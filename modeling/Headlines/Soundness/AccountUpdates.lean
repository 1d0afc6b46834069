import Headlines.Api.Accepted
import Headlines.Api.Server
import Headlines.Autocommit.Trace
import Headlines.Soundness.Deletion
import Headlines.Store.Owner

/-! # Updates of an account

An update looks at the status, runs one `UPDATE` for each field of its mask and reads the row back, each statement
committing on its own. A statement that fails after an `UPDATE` makes the call an error that has changed the row, and
a deletion that commits after the look at the status does not stop the `UPDATE`s.
-/

namespace Headlines.Soundness.AccountUpdates

open Core Autocommit Store Api

abbrev Event := Autocommit.Event RegistryStatement.Result Answer
abbrev Entry := Autocommit.Entry RegistryStatement.Result KeyStore
abbrev Happening := Autocommit.Happening RegistryStatement.Result RegistryRequest (Except Status RegistryResponse) KeyStore
abbrev State := Autocommit.Traced RegistryStatement.Result Answer RegistryRequest (Except Status RegistryResponse) KeyStore
abbrev Label := Autocommit.Traced.Label Answer RegistryRequest

/-- The mask of the request names the field, and this is the valid value the request gives it. -/
def Masks (service : RegistryService) (request : UpdateAccountRequest) (id : Uuid) (field : AccountField) : Prop :=
  ∃ account paths, request.account = some account ∧ parseUuid service.parsers "account.id" account.id = .ok id ∧
    request.updateMask = some paths ∧
    match field with
    | .shortName value => "short_name" ∈ paths ∧ AccountService.validateShortName account.shortName = .ok value
    | .authorName value => "author_name" ∈ paths ∧ AccountService.validateAuthorName account.authorName = .ok value
    | .authorUrl value => ∃ url, "author_url" ∈ paths ∧ validateAuthorUrl service.parsers account.authorUrl = .ok url ∧
        value = nonEmpty url

/-- The statement has set a field of the account's row. -/
def Sets (id : Uuid) (field : AccountField) (entry : Entry) : Prop :=
  (∃ now, entry.statement = .updateAccount id field now) ∧ entry.effect.isSome ∧ (entry.before.accounts id).isSome

/-- The statement has soft-deleted the account. -/
def Deletes (id : Uuid) (entry : Entry) : Prop :=
  (∃ now, entry.statement = .deleteAccount id now) ∧ entry.effect.isSome ∧ (entry.before.accounts id).isSome

/-- A failed update has set nothing, one that succeeded has set all fields of its mask, and no update has set a field
of a deleted account. -/
structure AllOrNothing (service : RegistryService) (s : State) : Prop where
  failed : ∀ call subject request error, .began call (.updateAccount subject request) ∈ s.trace →
    .returned call (.error error) ∈ s.trace → ∀ entry id field, .ran entry ∈ s.trace → entry.session = call →
    ¬ Sets id field entry
  succeeded : ∀ call subject request response, .began call (.updateAccount subject request) ∈ s.trace →
    .returned call (.ok response) ∈ s.trace → ∀ id field, Masks service request id field →
    ∃ entry, .ran entry ∈ s.trace ∧ entry.session = call ∧ Sets id field entry
  live : ∀ entry id field, .ran entry ∈ s.trace → Sets id field entry → ¬ (Owner.account id).Deleted entry.before

/-- No statement of an update fails, and none of its answers is lost, at or after an `UPDATE` of the call that took
effect; and no deletion takes effect between the call's look at the account and one of its `UPDATE`s. -/
structure Undisturbed (s : State) : Prop where
  smooth : ∀ later entry earlier fault, s.trace = later ++ .ran entry :: earlier → entry.told = .error fault →
    ∀ set id field, .ran set ∈ .ran entry :: earlier → set.session = entry.session → ¬ Sets id field set
  apart : ∀ later set between look earlier id field, s.trace = later ++ .ran set :: (between ++ .ran look :: earlier) →
    Sets id field set → look.session = set.session → look.statement = .keys (.selectAccount id) →
    ∀ deletion, .ran deletion ∈ between → ¬ Deletes id deletion

/-! ## What an update is told -/

/-- The session has seen the account, and it was not deleted. -/
def Looked (past : List Event) (id : Uuid) : Prop :=
  ∃ row : AccountRow, .ran (.keys (.selectAccount id)) (.ok (some row)) ∈ past ∧ row.status ≠ .deleted

/-- The session was told that the field is set. -/
def Told (past : List Event) (id : Uuid) (field : AccountField) : Prop :=
  ∃ now count, .ran (.updateAccount id field now) (.ok count) ∈ past

/-- A field is set by updates only, after a look at the account. -/
def Justified (request : RegistryRequest) (past : List Event) (statement : RegistryStatement) : Prop :=
  ∀ id field now, statement = .updateAccount id field now →
    (∃ subject update, request = .updateAccount subject update) ∧ Looked past id

/-- An error comes before any field was set, from a failed statement, or from a row that has vanished. -/
def Explained (past : List Event) : Prop :=
  (∀ id field, ¬ Told past id field) ∨ (∃ statement fault rest, past = .ran statement (.error fault) :: rest) ∨
    ∃ id rest, past = .ran (.keys (.selectAccount id)) (.ok none) :: rest ∧ Looked rest id

/-- What an update has been told when it returns. -/
def Ended (service : RegistryService) (request : RegistryRequest) (result : Except Status RegistryResponse)
    (past : List Event) : Prop :=
  ∀ subject update, request = .updateAccount subject update →
    match result with
    | .ok _ => ∀ id field, Masks service update id field → Told past id field
    | .error _ => Explained past

/-- What the mask makes of the request. -/
def fields (update : AccountUpdate) : List AccountField :=
  update.shortName.toList.map .shortName ++ update.authorName.toList.map .authorName ++
    update.authorUrl.toList.map fun url => .authorUrl (nonEmpty url)

variable {service : RegistryService} {past : List Event} {request : RegistryRequest} {id : Uuid}

theorem Looked.cons (looked : Looked past id) (event : Event) : Looked (event :: past) id :=
  looked.imp fun _ seen => ⟨List.mem_cons_of_mem _ seen.1, seen.2⟩

theorem Told.cons {field : AccountField} (told : Told past id field) (event : Event) : Told (event :: past) id field := by
  obtain ⟨now, count, member⟩ := told
  exact ⟨now, count, List.mem_cons_of_mem _ member⟩

section Masks

variable {account : ProtoAccount} {β : Type} {get : AccountUpdate → Option β} {name : String} {value : β}

/-- A field that some path of the mask sets is set in the end. -/
private theorem foldlM_sets (step : ∀ update path after, AccountService.maskField service account update path = .ok after →
    path = name ∨ get update = some value → get after = some value) (paths : List String) {update after : AccountUpdate}
    (folded : paths.foldlM (AccountService.maskField service account) update = .ok after)
    (sets : name ∈ paths ∨ get update = some value) : get after = some value := by
  induction paths generalizing update with
  | nil =>
    cases folded
    exact sets.resolve_left List.not_mem_nil
  | cons path paths ih =>
    rw [List.foldlM_cons] at folded
    cases first : AccountService.maskField service account update path with
    | error error =>
      rw [first] at folded
      contradiction
    | ok middle =>
      rw [first] at folded
      refine ih folded ?_
      rcases sets with member | already
      · rcases List.mem_cons.mp member with rfl | later
        · exact .inr (step update name middle first (.inl rfl))
        · exact .inl later
      · exact .inr (step update path middle first (.inr already))

/-- A path of the mask sets its field to the valid value the request gives it. -/
private theorem maskField_cases {update after : AccountUpdate} {path : String}
    (set : AccountService.maskField service account update path = .ok after) :
    (path = "short_name" ∧ ∃ value, AccountService.validateShortName account.shortName = .ok value ∧
      after = { update with shortName := some value }) ∨
    (path = "author_name" ∧ ∃ value, AccountService.validateAuthorName account.authorName = .ok value ∧
      after = { update with authorName := some value }) ∨
    (path = "author_url" ∧ ∃ value, validateAuthorUrl service.parsers account.authorUrl = .ok value ∧
      after = { update with authorUrl := some value }) := by
  simp only [AccountService.maskField] at set
  split at set
  · next named =>
    cases valid : AccountService.validateShortName account.shortName with
    | error error => simp [valid, bind, Except.bind] at set
    | ok value =>
      rw [valid] at set
      exact .inl ⟨named, value, rfl, (Except.ok.inj set).symm⟩
  · split at set
    · next named =>
      cases valid : AccountService.validateAuthorName account.authorName with
      | error error => simp [valid, bind, Except.bind] at set
      | ok value =>
        rw [valid] at set
        exact .inr (.inl ⟨named, value, rfl, (Except.ok.inj set).symm⟩)
    · split at set
      · next named =>
        cases valid : validateAuthorUrl service.parsers account.authorUrl with
        | error error => simp [valid, bind, Except.bind] at set
        | ok value =>
          rw [valid] at set
          exact .inr (.inr ⟨named, value, rfl, (Except.ok.inj set).symm⟩)
      · contradiction

/-- What the mask names is among the fields that are set. -/
private theorem mem_fields {paths : List String} {update : AccountUpdate} {request : UpdateAccountRequest}
    {field : AccountField} (given : request.account = some account)
    (mask : nonEmptyMask request.updateMask = .ok paths)
    (built : AccountService.accountUpdate service account paths = .ok update) (masks : Masks service request id field) :
    field ∈ fields update := by
  obtain ⟨other, named, same, _, masked, field_of⟩ := masks
  cases given.symm.trans same
  have paths_eq : named = paths := by
    rw [masked] at mask
    simp only [nonEmptyMask] at mask
    split at mask
    · contradiction
    · exact Except.ok.inj mask
  subst paths_eq
  cases field with
  | shortName value =>
    have set : update.shortName = some value := by
      refine foldlM_sets (fun update path after set given => ?_) named built (.inl field_of.1)
      rcases maskField_cases set with ⟨_, value', valid, rfl⟩ | ⟨rfl, _, _, rfl⟩ | ⟨rfl, _, _, rfl⟩
      · cases valid.symm.trans field_of.2
        rfl
      · exact given.resolve_left (by decide)
      · exact given.resolve_left (by decide)
    simp [fields, set]
  | authorName value =>
    have set : update.authorName = some value := by
      refine foldlM_sets (fun update path after set given => ?_) named built (.inl field_of.1)
      rcases maskField_cases set with ⟨rfl, _, _, rfl⟩ | ⟨_, value', valid, rfl⟩ | ⟨rfl, _, _, rfl⟩
      · exact given.resolve_left (by decide)
      · cases valid.symm.trans field_of.2
        rfl
      · exact given.resolve_left (by decide)
    simp [fields, set]
  | authorUrl value =>
    obtain ⟨url, path_mem, valid_url, rfl⟩ := field_of
    have set : update.authorUrl = some url := by
      refine foldlM_sets (fun update path after set given => ?_) named built (.inl path_mem)
      rcases maskField_cases set with ⟨rfl, _, _, rfl⟩ | ⟨rfl, _, _, rfl⟩ | ⟨_, value', valid, rfl⟩
      · exact given.resolve_left (by decide)
      · exact given.resolve_left (by decide)
      · cases valid.symm.trans valid_url
        rfl
    simp [fields, set]

end Masks

section Handlers

variable {ρ : Type} {update : AccountUpdate}

/-- Statements of the key repository set no field. -/
private theorem justified_keys (statement : KeyStatement) : Justified request past (.keys statement) :=
  fun _ _ _ same => nomatch same

/-- A statement of the registry; its failure explains an error. -/
private theorem execute_ends (statement : RegistryStatement) {context : String}
    {post : statement.Result → List Event → Prop} (allowed : Justified request past statement)
    (ran : ∀ result, post result (.ran statement (.ok result) :: past)) :
    Throwing.Ends (Justified request) post (fun _ past => Explained past) (RegistryDb.execute statement context) past :=
  .execute statement allowed ran fun _ => .inr (.inl ⟨_, _, _, rfl⟩)

/-- One `UPDATE` adds its field to those the session was told are set. -/
private theorem setField_ends {now : Timestamp} {field : AccountField} {context : String} {done : List AccountField}
    (updates : ∃ subject update, request = .updateAccount subject update) (looked : Looked past id)
    (told : ∀ field ∈ done, Told past id field) :
    Throwing.Ends (Justified request) (fun _ past => Looked past id ∧ ∀ other ∈ done ++ [field], Told past id other)
      (fun _ past => Explained past) (PgAccountRepo.setField id now field context) past := by
  have allowed : Justified request past (.updateAccount id field now) := by
    rintro _ _ _ ⟨⟩
    exact ⟨updates, looked⟩
  refine .bind (execute_ends (.updateAccount id field now) allowed fun count => ⟨looked.cons _, fun other member => ?_⟩)
    fun _ _ holds => .pure holds
  · rcases List.mem_append.mp member with before | own
    · exact (told other before).cons _
    · cases List.mem_singleton.mp own
      exact ⟨now, count, List.mem_cons_self⟩

/-- And so does an optional one. -/
private theorem whenSome_ends {τ : Type} {value : Option τ} {make : τ → AccountField} {now : Timestamp} {context : String}
    (done : List AccountField) (updates : ∃ subject update, request = .updateAccount subject update)
    (known : Looked past id ∧ ∀ field ∈ done, Told past id field) :
    Throwing.Ends (Justified request)
      (fun _ past => Looked past id ∧ ∀ other ∈ done ++ value.toList.map make, Told past id other)
      (fun _ past => Explained past)
      (Throwing.whenSome value fun value => PgAccountRepo.setField id now (make value) context) past := by
  cases value with
  | none => exact .pure (by simpa using known)
  | some value => exact setField_ends updates known.1 known.2

/-- An update of the repository. -/
private theorem update_ends (id : Uuid) (update : AccountUpdate)
    (updates : ∃ subject update, request = .updateAccount subject update) :
    Throwing.Ends (Justified request) (fun _ past => ∀ field ∈ fields update, Told past id field)
      (fun _ past => Explained past) (PgAccountRepo.update id update) [] := by
  have acquired : Throwing.Ends (Justified request) (fun _ past => ∀ id field, ¬ Told past id field)
      (fun _ past => Explained past) RegistryDb.get [] := by
    refine execute_ends (.keys .acquire) (justified_keys _) fun _ id field => ?_
    rintro ⟨now, count, member⟩
    simp at member
  refine acquired.bind fun _ past untold => ?_
  have looks : Throwing.Ends (Justified request) (fun row past => (∀ id field, ¬ Told past id field) ∧
        ∀ found, row = some found → found.status ≠ .deleted → Looked past id)
      (fun _ past => Explained past) (RegistryDb.selectAccount id "select account") past := by
    refine execute_ends (.keys (.selectAccount id)) (justified_keys _) fun row => ⟨fun other field => ?_, fun found same active => ?_⟩
    · rintro ⟨now, count, member⟩
      exact untold other field ⟨now, count, (List.mem_cons.mp member).resolve_left nofun⟩
    · subst same
      exact ⟨found, List.mem_cons_self, active⟩
  refine looks.bind fun row past ⟨untold, seen⟩ => ?_
  have found : Throwing.Ends (Justified request)
      (fun found past => (∀ id field, ¬ Told past id field) ∧ (found.status ≠ .deleted → Looked past id))
      (fun _ past => Explained past) (Throwing.okOr row (HeadlinesError.accountNotFound id)) past :=
    .okOr (fun found same => ⟨untold, seen found same⟩) fun _ => .inl untold
  refine found.bind fun found past ⟨untold, seen⟩ => ?_
  have active : Throwing.Ends (Justified request) (fun _ past => Looked past id) (fun _ past => Explained past)
      (Throwing.require (found.status != .deleted) (HeadlinesError.accountDeleted id)) past :=
    .require (fun active => seen (by simpa using active)) (.inl untold)
  refine active.bind fun _ past looked => ?_
  have clock : Throwing.Ends (Justified request) (fun _ past => Looked past id) (fun _ past => Explained past)
      (Throwing.ask Question.now : RegistryDb Timestamp) past := .ask Question.now fun _ => looked.cons _
  refine clock.bind fun now past looked => ?_
  refine .bind (whenSome_ends [] updates ⟨looked, nofun⟩) fun _ past known => ?_
  refine .bind (whenSome_ends _ updates known) fun _ past known => ?_
  refine .bind (whenSome_ends _ updates known) fun _ past ⟨looked, told⟩ => ?_
  have reads : Throwing.Ends (Justified request)
      (fun row past => (∀ field ∈ fields update, Told past id field) ∧ (row = none → Explained past))
      (fun _ past => Explained past) (RegistryDb.selectAccount id "re-read after update") past := by
    refine execute_ends (.keys (.selectAccount id)) (justified_keys _) fun row => ⟨fun field member => (told field member).cons _, ?_⟩
    rintro rfl
    exact .inr (.inr ⟨id, past, rfl, looked⟩)
  refine reads.bind fun row past ⟨told, vanished⟩ => ?_
  exact .bind (.okOr (fun _ _ => told) vanished) fun _ _ told => .pure told

/-- Code of the key repository sets no field. -/
private theorem keys_safe {call : KeyDb ρ} : Throwing.Safe (Justified request) (fun _ _ => True) (RegistryDb.ofKeys call) past :=
  .embed fun _ => justified_keys

private theorem execute_safe (statement : RegistryStatement) {context : String}
    (other : ∀ id field now, statement ≠ .updateAccount id field now) :
    Throwing.Safe (Justified request) (fun _ _ => True) (RegistryDb.execute statement context) past :=
  .execute statement (fun id field now same => absurd same (other id field now)) fun _ => trivial

private theorem get_safe : Throwing.Safe (Justified request) (fun _ _ => True) RegistryDb.get past := keys_safe

private theorem createAccount_safe (new : NewAccount) :
    Throwing.Safe (Justified request) (fun _ _ => True) (PgAccountRepo.create new) past := by
  refine .skip get_safe fun _ _ => .skip (.ask _ fun _ => trivial) fun _ _ => ?_
  exact .skip (execute_safe (.insertAccount new.id _) nofun) fun _ _ => .pure trivial

private theorem createUser_safe (new : NewUser) :
    Throwing.Safe (Justified request) (fun _ _ => True) (PgUserRepo.create new) past := by
  refine .skip get_safe fun _ _ => .skip (.ask _ fun _ => trivial) fun _ _ => ?_
  exact .skip (execute_safe (.insertUser new.id _) nofun) fun _ _ => .pure trivial

private theorem deleteAccount_safe (id : Uuid) :
    Throwing.Safe (Justified request) (fun _ _ => True) (PgAccountRepo.softDelete id) past := by
  refine .skip get_safe fun _ _ => .skip (.ask _ fun _ => trivial) fun now _ => ?_
  refine .skip (execute_safe (.deleteAccount id now) nofun) fun _ _ => .skip (.okOr fun _ _ => trivial) fun _ _ => ?_
  exact .pure trivial

private theorem deleteUser_safe (id : Uuid) :
    Throwing.Safe (Justified request) (fun _ _ => True) (PgUserRepo.softDelete id) past := by
  refine .skip get_safe fun _ _ => .skip (.ask _ fun _ => trivial) fun now _ => ?_
  refine .skip (execute_safe (.deleteUser id now) nofun) fun _ _ => .skip (.okOr fun _ _ => trivial) fun _ _ => ?_
  exact .pure trivial

private theorem updateUser_safe (id : Uuid) (update : UserUpdate) :
    Throwing.Safe (Justified request) (fun _ _ => True) (PgUserRepo.update id update) past := by
  have reads (context : String) {past : List Event} :
      Throwing.Safe (Justified request) (fun _ _ => True) (RegistryDb.selectUser id context) past :=
    execute_safe (.keys (.selectUser id)) nofun
  refine .skip get_safe fun _ _ => .skip (reads _) fun _ _ => .skip (.okOr fun _ _ => trivial) fun _ _ => ?_
  refine .skip (.require fun _ => trivial) fun _ _ => .skip (.whenSome fun displayName _ => ?_) fun _ _ => ?_
  · exact .skip (execute_safe (.updateUser id (nonEmpty displayName)) nofun) fun _ _ => .pure trivial
  · exact .skip (reads _) fun _ _ => .skip (.okOr fun _ _ => trivial) fun _ _ => .pure trivial

/-- A handler passes the call of a repository on. -/
private theorem repo_safe {call : RegistryDb ρ} (safe : Throwing.Safe (Justified request) (fun _ _ => True) call past) :
    Throwing.Safe (Justified request) (fun _ _ => True) (RegistryHandler.repo call) past :=
  .adapt safe

/-- The other handlers set no field. -/
private theorem others_safe (other : ∀ subject update, request ≠ .updateAccount subject update) :
    Throwing.Safe (Justified request) (fun _ _ => True) (service.handle request) [] := by
  cases request with
  | updateAccount subject update => exact absurd rfl (other subject update)
  | createAccount subject request =>
    rcases AccountService.createAccount_cases service subject request with ⟨_, same⟩ | ⟨_, _, _, _, _, same⟩ <;>
      rw [RegistryService.handle, same]
    · exact .map .throw
    · refine .map (.skip (.ask _ fun _ => trivial) fun _ _ => .skip (.ask _ fun _ => trivial) fun _ _ => ?_)
      refine .skip (repo_safe (createAccount_safe _)) fun _ _ => ?_
      exact .skip (repo_safe keys_safe) fun _ _ => .pure trivial
  | createUser subject request =>
    rcases UserService.createUser_cases service subject request with ⟨_, same⟩ | ⟨_, _, _, same⟩ <;>
      rw [RegistryService.handle, same]
    · exact .map .throw
    · refine .map (.skip (.ask _ fun _ => trivial) fun _ _ => .skip (.ask _ fun _ => trivial) fun _ _ => ?_)
      refine .skip (repo_safe (createUser_safe _)) fun _ _ => ?_
      exact .skip (repo_safe keys_safe) fun _ _ => .pure trivial
  | getAccount request =>
    exact .map (.skip (.ofExcept fun _ _ => trivial) fun _ _ => .skip (repo_safe keys_safe) fun _ _ => .pure trivial)
  | getUser subject request =>
    refine .map (.skip (.ofExcept fun _ _ => trivial) fun _ _ => .skip (.require fun _ => trivial) fun _ _ => ?_)
    exact .skip (repo_safe keys_safe) fun _ _ => .pure trivial
  | deleteAccount subject request =>
    refine .map (.skip (.ofExcept fun _ _ => trivial) fun _ _ => .skip (.require fun _ => trivial) fun _ _ => ?_)
    exact .skip (repo_safe (deleteAccount_safe _)) fun _ _ => .pure trivial
  | deleteUser subject request =>
    refine .map (.skip (.ofExcept fun _ _ => trivial) fun _ _ => .skip (.require fun _ => trivial) fun _ _ => ?_)
    exact .skip (repo_safe (deleteUser_safe _)) fun _ _ => .pure trivial
  | updateUser subject request =>
    refine .map (.skip (.okOr fun _ _ => trivial) fun _ _ => .skip (.ofExcept fun _ _ => trivial) fun _ _ => ?_)
    refine .skip (.require fun _ => trivial) fun _ _ => .skip (.ofExcept fun _ _ => trivial) fun _ _ => ?_
    refine .skip (.ofExcept fun _ _ => trivial) fun _ _ => .skip (repo_safe (updateUser_safe _ _)) fun _ _ => .pure trivial
  | keys request => exact .map (.embed fun _ => justified_keys)

/-- The handlers keep to the order of look, `UPDATE`s and answer. -/
theorem handlers_safe (request : RegistryRequest) :
    (service.system.program request).Safe (Justified request) (Ended service request) [] := by
  by_cases updates : ∃ subject update, request = .updateAccount subject update
  · obtain ⟨subject, update, rfl⟩ := updates
    have untold : Explained [] := by
      left
      rintro _ _ ⟨_, _, member⟩
      exact absurd member List.not_mem_nil
    rcases AccountService.updateAccount_cases service subject update with
      ⟨error, same⟩ | ⟨account, id, paths, fields, given, parsed, mask, built, same⟩
    · have refused : service.handle (.updateAccount subject update) = throw error := by rw [RegistryService.handle, same]; rfl
      change Program.Safe _ _ (service.handle (.updateAccount subject update)).run []
      rw [refused]
      exact fun _ _ _ => untold
    · have ends : Throwing.Ends (Justified (.updateAccount subject update))
          (fun _ past => ∀ other field, Masks service update other field → Told past other field)
          (fun _ past => Explained past) (service.handle (.updateAccount subject update)) [] := by
        rw [RegistryService.handle, same]
        refine .map (.map (.adapt ((update_ends id fields ⟨subject, update, rfl⟩).mono ?_ fun _ _ holds => holds)))
        intro _ past told other field masks
        have named := mem_fields given mask built masks
        obtain ⟨_, _, again, same, _⟩ := masks
        cases given.symm.trans again
        cases parsed.symm.trans same
        exact told field named
      refine Program.Safe.mono ends fun result past holds => ?_
      rintro _ _ ⟨⟩
      cases result <;> exact holds
  · refine Program.Safe.mono (others_safe fun subject update same => updates ⟨subject, update, same⟩) ?_
    exact fun _ _ _ subject update same => absurd ⟨subject, update, same⟩ updates

/-- A failed statement ends an update. -/
theorem updates_strict (subject : Subject) (update : UpdateAccountRequest) :
    (service.system.program (.updateAccount subject update)).Strict := by
  have get : Throwing.Strict RegistryDb.get := .embed (.execute ..)
  have set (id : Uuid) (now : Timestamp) (field : AccountField) (context : String) :
      Throwing.Strict (PgAccountRepo.setField id now field context) := .bind (.execute ..) fun _ => .pure _
  have repo (id : Uuid) (update : AccountUpdate) : Throwing.Strict (PgAccountRepo.update id update) := by
    refine .bind get fun _ => .bind (.execute ..) fun _ => .bind (.okOr ..) fun _ => .bind (.require ..) fun _ => ?_
    refine .bind (.ask _) fun now => .bind (.whenSome _ fun _ => set ..) fun _ => .bind (.whenSome _ fun _ => set ..) fun _ => ?_
    exact .bind (.whenSome _ fun _ => set ..) fun _ => .bind (.execute ..) fun _ => .bind (.okOr ..) fun _ => .pure _
  have handled : Throwing.Strict (service.handle (.updateAccount subject update)) := by
    rcases AccountService.updateAccount_cases service subject update with ⟨error, same⟩ | ⟨_, _, _, _, _, _, _, _, same⟩ <;>
      rw [RegistryService.handle, same]
    · exact .map (.throw error)
    · exact .map (.map (.adapt (repo ..)))
  exact handled

end Handlers

section Runs

variable {initial : KeyStore → Prop} {guard : State → Label → Prop} {s : State}

/-- The account is there, and not deleted. -/
def Live (id : Uuid) (store : KeyStore) : Prop := ∃ row, store.accounts id = some row ∧ row.status ≠ .deleted

/-- What a statement of the trace does to the status of an account. -/
private theorem status_after (reached : (Traced.machine service.system initial).Reachable guard s) {entry : Entry}
    (member : .ran entry ∈ s.trace) {row : AccountRow} (found : entry.before.accounts id = some row) :
    ∃ last, entry.after.accounts id = some last ∧
      (last.status = row.status ∨ Deletes id entry ∧ last.status = .deleted) := by
  cases effect : entry.effect with
  | none =>
    refine ⟨row, ?_, .inl rfl⟩
    rw [Entry.after, effect]
    exact found
  | some outcome =>
    have ran := (Traced.genuine reached member).effect _ _ effect
    have same : entry.after = outcome.2 := by
      rw [Entry.after, effect]
      rfl
    rw [same]
    obtain ⟨last, there, kept | ⟨deletes, gone⟩⟩ := status_of_execute entry.statement found ran
    · exact ⟨last, there, .inl kept⟩
    · exact ⟨last, there, .inr ⟨⟨deletes, by rw [effect]; rfl, by rw [found]; rfl⟩, gone⟩⟩

/-- A session that sets a field runs an update, and has looked at the account before. -/
private theorem looked (reached : (Traced.machine service.system initial).Reachable guard s)
    {later earlier : List Happening}
    {set : Entry} {field : AccountField} {now : Timestamp} (split : s.trace = later ++ .ran set :: earlier)
    (sets : set.statement = .updateAccount id field now) :
    (∃ subject update, .began set.session (.updateAccount subject update) ∈ s.trace) ∧
      ∃ look, .ran look ∈ earlier ∧ look.session = set.session ∧ look.statement = .keys (.selectAccount id) ∧
        look.after = look.before ∧ Live id look.before := by
  obtain ⟨request, past, began, told, justified⟩ :=
    Traced.each_iff.mp (Traced.each_justified handlers_safe reached) later set earlier split
  obtain ⟨⟨subject, update, rfl⟩, row, seen, active⟩ := justified id field now sets
  have inside {happening} (member : happening ∈ earlier) : happening ∈ s.trace := by
    rw [split]
    exact List.mem_append_right _ (List.mem_cons_of_mem _ member)
  refine ⟨⟨subject, update, inside began⟩, ?_⟩
  obtain ⟨look, member, own, heard⟩ := Traced.mem_own.mp (told ▸ Traced.mem_toldOf.mpr seen)
  obtain ⟨statement, _, ran⟩ := (Traced.genuine reached (inside member)).ran heard
  have both : look.before.accounts id = some row ∧ look.before = look.after := Prod.mk.inj (Except.ok.inj ran)
  exact ⟨look, member, own, statement, both.2.symm, row, both.1, active⟩

/-- The row of an account never vanishes. -/
private theorem there (reached : (Traced.machine service.system initial).Reachable guard s) {store : KeyStore}
    {later earlier : List Happening}
    {entry : Entry} (chained : Traced.Chained store (later ++ .ran entry :: earlier))
    (inside : ∀ other, .ran other ∈ later → .ran other ∈ s.trace) (held : (entry.after.accounts id).isSome) :
    (store.accounts id).isSome := by
  refine chained.keeps (p := fun store => (store.accounts id).isSome) held fun other member held => ?_
  obtain ⟨row, found⟩ := Option.isSome_iff_exists.mp held
  obtain ⟨last, after, _⟩ := status_after reached (inside other member) found
  rw [after]
  rfl

/-- What an update sets is a row. -/
private theorem present_of_set (reached : (Traced.machine service.system initial).Reachable guard s) {set : Entry}
    (member : .ran set ∈ s.trace) {field : AccountField} {now : Timestamp}
    (sets : set.statement = .updateAccount id field now) : (set.before.accounts id).isSome := by
  obtain ⟨later, earlier, split⟩ := List.append_of_mem member
  obtain ⟨_, look, before, _, _, same, row, found, _⟩ := looked reached split sets
  obtain ⟨between, first, divided⟩ := List.append_of_mem before
  have chained := Traced.chained reached
  rw [split] at chained
  have held := chained.before
  rw [divided] at held
  refine there reached held (fun other inside => ?_) (by rw [same, found]; rfl)
  rw [split, divided]
  simp [inside]

private theorem smooth_of_failed (reached : (Traced.machine service.system initial).Reachable guard s)
    (all : AllOrNothing service s) {later earlier : List Happening}
    {entry set : Entry} {fault : ReadCommitted.Fault} {field : AccountField} (split : s.trace = later ++ .ran entry :: earlier)
    (failed : entry.told = .error fault) (member : .ran set ∈ .ran entry :: earlier) (own : set.session = entry.session) :
    ¬ Sets id field set := by
  intro sets
  have inside {happening} (member : happening ∈ .ran entry :: earlier) : happening ∈ s.trace := by
    rw [split]
    exact List.mem_append_right _ member
  obtain ⟨now, statement⟩ := sets.1
  obtain ⟨later, earlier, divided⟩ := List.append_of_mem (inside member)
  obtain ⟨⟨subject, update, began⟩, _⟩ := looked reached divided statement
  obtain ⟨error, returned⟩ := Traced.failed_returned (updates_strict subject update) reached
    (inside List.mem_cons_self) (own ▸ began) failed
  exact all.failed entry.session subject update error (own ▸ began) returned set id field (inside member) own sets

/-- After a deletion the row is deleted. -/
private theorem deleted_after (reached : (Traced.machine service.system initial).Reachable guard s) {deletion : Entry}
    (member : .ran deletion ∈ s.trace) (deletes : Deletes id deletion) : (Owner.account id).Deleted deletion.after := by
  obtain ⟨⟨now, statement⟩, effective, present⟩ := deletes
  obtain ⟨outcome, effect⟩ := Option.isSome_iff_exists.mp effective
  obtain ⟨row, found⟩ := Option.isSome_iff_exists.mp present
  have ran := (Traced.genuine reached member).effect _ _ effect
  have after : deletion.after = outcome.2 := by
    rw [Entry.after, effect]
    rfl
  rw [after]
  obtain ⟨session, own, told, before, effect⟩ := deletion
  subst statement
  change before.accounts id = some row at found
  simp only [RegistryService.system, RegistryStatement.execute, found] at ran
  rw [← (Prod.mk.inj (Except.ok.inj ran)).2]
  exact ⟨row.delete now, Function.update_self .., rfl⟩

private theorem apart_of_live (reached : (Traced.machine service.system initial).Reachable guard s)
    (all : AllOrNothing service s) {later between earlier : List Happening} {set deletion : Entry} {field : AccountField}
    (split : s.trace = later ++ .ran set :: (between ++ earlier))
    (sets : Sets id field set) (member : .ran deletion ∈ between) : ¬ Deletes id deletion := by
  intro deletes
  have chained := Traced.chained reached
  rw [split] at chained
  obtain ⟨last, first, divided⟩ := List.append_of_mem member
  have inside (other : Entry) (among : .ran other ∈ last ∨ other = deletion) : .ran other ∈ s.trace := by
    rw [split, divided]
    rcases among with among | rfl <;> simp [*]
  have ended := chained.before
  rw [divided, List.append_assoc] at ended
  refine all.live set id field (by simp [split]) sets (ended.keeps (p := fun store => (Owner.account id).Deleted store)
    (deleted_after reached (inside deletion (.inr rfl)) deletes) fun other among ⟨row, found, deleted⟩ => ?_)
  obtain ⟨row', after, same | ⟨_, gone⟩⟩ := status_after reached (inside other (.inl among)) found
  · exact ⟨row', after, same.trans deleted⟩
  · exact ⟨row', after, gone⟩

/-- A call that ended in an error has set nothing, if no statement failed after one that set something. -/
private theorem nothing_set (reached : (Traced.machine service.system initial).Reachable guard s)
    (undisturbed : Undisturbed s) {set : Entry} {field : AccountField} {past : List Event} (member : .ran set ∈ s.trace)
    (told : Traced.own set.session s.trace = Traced.toldOf past) (explained : Explained past) : ¬ Sets id field set := by
  intro sets
  rcases explained with untold | ⟨statement, fault, rest, rfl⟩ | ⟨other, rest, rfl, row, seen, active⟩
  · obtain ⟨now, statement⟩ := sets.1
    rcases Traced.heard_or_failed member statement with ⟨count, heard⟩ | ⟨fault, failed⟩
    · exact untold id field ⟨now, count, Traced.mem_toldOf.mp (told ▸ heard)⟩
    · obtain ⟨later, earlier, split⟩ := List.append_of_mem member
      exact undisturbed.smooth later set earlier fault split failed set id field List.mem_cons_self rfl sets
  · obtain ⟨later, last, earlier, split, own, heard, _, others⟩ := Traced.own_eq_cons told
    have before : .ran set ∈ .ran last :: earlier := by
      rw [split] at member
      exact (List.mem_append.mp member).resolve_left fun among => others set among rfl
    exact undisturbed.smooth later last earlier fault split (Entry.failed heard) set id field before own.symm sets
  · -- The row that the call looked at is still there when it is read back.
    obtain ⟨later, last, earlier, split, _, heard, before, _⟩ := Traced.own_eq_cons told
    have inside {happening} (among : happening ∈ .ran last :: earlier) : happening ∈ s.trace := by
      rw [split]
      exact List.mem_append_right _ among
    obtain ⟨_, _, ran⟩ := (Traced.genuine reached (inside List.mem_cons_self)).ran heard
    have gone : last.before.accounts other = none := congrArg Prod.fst (Except.ok.inj ran)
    have known : Traced.own set.session earlier = Traced.toldOf rest := before
    obtain ⟨look, among, _, saw⟩ := Traced.mem_own.mp (known ▸ Traced.mem_toldOf.mpr seen)
    obtain ⟨_, _, looked⟩ := (Traced.genuine reached (inside (List.mem_cons_of_mem _ among))).ran saw
    have both : look.before.accounts other = some row ∧ look.before = look.after := Prod.mk.inj (Except.ok.inj looked)
    obtain ⟨between, first, divided⟩ := List.append_of_mem among
    have chained := Traced.chained reached
    rw [split] at chained
    have held := chained.before
    rw [divided] at held
    have present : (last.before.accounts other).isSome := there reached held
      (fun entry among => inside (List.mem_cons_of_mem _ (by rw [divided]; exact List.mem_append_left _ among)))
      (by rw [← both.2, both.1]; rfl)
    rw [gone] at present
    contradiction

/-- An account that was live when a call looked at it, and is deleted when the call sets a field, was deleted between. -/
private theorem live_of_apart (reached : (Traced.machine service.system initial).Reachable guard s)
    (undisturbed : Undisturbed s) {set : Entry} {field : AccountField} (member : .ran set ∈ s.trace)
    (sets : Sets id field set) : ¬ (Owner.account id).Deleted set.before := by
  rintro ⟨row, found, deleted⟩
  obtain ⟨now, statement⟩ := sets.1
  obtain ⟨later, earlier, split⟩ := List.append_of_mem member
  obtain ⟨_, look, before, own, selects, same, live⟩ := looked reached split statement
  obtain ⟨between, first, divided⟩ := List.append_of_mem before
  have chained := Traced.chained reached
  rw [split] at chained
  have held := chained.before
  rw [divided] at held
  have ended : ¬ Live id set.before := fun ⟨other, there, active⟩ => by
    cases found.symm.trans there
    exact active deleted
  obtain ⟨deletion, among, ⟨old, there, active⟩, gone⟩ := held.crossing (same ▸ live) ended
  have inside : .ran deletion ∈ s.trace := by
    rw [split, divided]
    simp [among]
  obtain ⟨last, after, kept | ⟨deletes, _⟩⟩ := status_after reached inside there
  · exact gone ⟨last, after, kept ▸ active⟩
  · exact undisturbed.apart later set between look first id field (by rw [split, divided]) sets own selects deletion among deletes

/-- Updates are all or nothing in the runs that disturb none of them, and in no others. -/
theorem update_all_or_nothing (service : RegistryService) {initial : KeyStore → Prop} {guard : State → Label → Prop}
    (reached : (Traced.machine service.system initial).Reachable guard s) : AllOrNothing service s ↔ Undisturbed s := by
  constructor
  · intro all
    constructor
    · intro later entry earlier fault split failed set id field member own
      exact smooth_of_failed reached all split failed member own
    · intro later set between look earlier id field split sets _ _ deletion member
      exact apart_of_live reached all split sets member
  · intro undisturbed
    constructor
    · intro call subject request error began returned entry id field member own
      obtain ⟨other, past, begun, told, ended⟩ := Traced.returned_post handlers_safe reached returned
      obtain rfl := Traced.began_unique reached began begun
      exact nothing_set reached undisturbed member (own ▸ told) (ended subject request rfl)
    · intro call subject request response began returned id field masks
      obtain ⟨other, past, begun, told, ended⟩ := Traced.returned_post handlers_safe reached returned
      obtain rfl := Traced.began_unique reached began begun
      obtain ⟨now, count, heard⟩ := ended subject request rfl id field masks
      obtain ⟨entry, member, own, same⟩ := Traced.mem_own.mp (told ▸ Traced.mem_toldOf.mpr heard)
      obtain ⟨statement, effective, _⟩ := (Traced.genuine reached member).ran same
      exact ⟨entry, member, own, ⟨now, statement⟩, effective, present_of_set reached member statement⟩
    · intro entry id field member sets
      exact live_of_apart reached undisturbed member sets

end Runs

def opening : State := ⟨⟨Deletion.oneAccount, fun _ => none⟩, []⟩

/-- One session runs to its end on its own. -/
def alone (request : RegistryRequest) : List Label :=
  [.begin 0 request, .run 0 .heard, .run 0 .heard, .answer 0 .now 0, .run 0 .heard, .run 0 .heard]

/-- No statement failed, and none deletes an account. -/
private def smoothly : Happening → Bool
  | .ran entry => entry.told.isOk && match entry.statement with
    | .deleteAccount .. => false
    | _ => true
  | _ => true

theorem update_all_or_nothing_relabel : ∃ s,
    (Traced.machine Deletion.bare.system (· = Deletion.oneAccount)).Reachable Machine.anything s ∧
      s.trace.length = 6 ∧ AllOrNothing Deletion.bare s := by
  obtain ⟨s, replayed, shown⟩ := Option.any_eq_true _ _ |>.mp (show
    ((Traced.machine Deletion.bare.system (· = Deletion.oneAccount)).replay Machine.anything opening
      (alone Deletion.relabel.request)).any (fun s => s.trace.length = 6 ∧ s.trace.all smoothly) from by decide +kernel)
  obtain ⟨length, smooth⟩ := of_decide_eq_true shown
  have reached := Machine.reachable_of_replay opening _
    (m := Traced.machine Deletion.bare.system (· = Deletion.oneAccount)) ⟨rfl, rfl, rfl⟩ replayed
  have fine {entry : Entry} (member : .ran entry ∈ s.trace) : entry.told.isOk ∧
      ∀ id now, entry.statement ≠ .deleteAccount id now := by
    have checked := List.all_eq_true.mp smooth _ member
    obtain ⟨heard, other⟩ := Bool.and_eq_true_iff.mp checked
    refine ⟨heard, fun id now same => ?_⟩
    simp only [same] at other
    contradiction
  refine ⟨s, reached, length, (update_all_or_nothing Deletion.bare reached).mpr ⟨?_, ?_⟩⟩
  · intro later entry earlier fault split failed
    have member : .ran entry ∈ s.trace := by simp [split]
    have heard := (fine member).1
    rw [failed] at heard
    contradiction
  · rintro later set between look earlier id field split - - - deletion among ⟨⟨now, same⟩, _⟩
    exact (fine (by simp [split, among])).2 id now same

/-- A short name, and an author name that the database refuses. -/
def halfRefused : RegistryRequest := .updateAccount Sample.author
  { account := some { id := Sample.accountText, shortName := "s", authorName := "b\u0000", authorUrl := "",
                      status := .active, deletedAt := none, createdAt := none, updatedAt := none }
    updateMask := some ["short_name", "author_name"] }

private def returnedError : Happening → Bool
  | .returned 0 (.error _) => true
  | _ => false

private def beganUpdate : Happening → Bool
  | .began 0 (.updateAccount ..) => true
  | _ => false

private def appliedUpdate : Happening → Bool
  | .ran entry => entry.session = 0 && entry.effect.isSome && (entry.before.accounts Sample.account).isSome &&
    match entry.statement with
    | .updateAccount id .. => id = Sample.account
    | _ => false
  | _ => false

/-- The call returns an error, and has set the short name. -/
theorem half_applied : ∃ s,
    (Traced.machine Deletion.bare.system (· = Deletion.oneAccount)).Reachable Machine.anything s ∧
      ¬ AllOrNothing Deletion.bare s := by
  obtain ⟨s, replayed, shown⟩ := Option.any_eq_true _ _ |>.mp (show
    ((Traced.machine Deletion.bare.system (· = Deletion.oneAccount)).replay Machine.anything opening
      (alone halfRefused)).any (fun s => s.trace.any returnedError ∧ s.trace.any beganUpdate ∧
        s.trace.any appliedUpdate) from by decide +kernel)
  obtain ⟨failed, began, applied⟩ := of_decide_eq_true shown
  have reached := Machine.reachable_of_replay opening _
    (m := Traced.machine Deletion.bare.system (· = Deletion.oneAccount)) ⟨rfl, rfl, rfl⟩ replayed
  refine ⟨s, reached, fun all => ?_⟩
  obtain ⟨_, ended, told⟩ := List.any_eq_true.mp failed
  obtain ⟨_, begun, named⟩ := List.any_eq_true.mp began
  obtain ⟨_, member, set⟩ := List.any_eq_true.mp applied
  unfold returnedError at told
  split at told <;> try contradiction
  unfold beganUpdate at named
  split at named <;> try contradiction
  unfold appliedUpdate at set
  split at set <;> try contradiction
  next entry =>
  simp only [Bool.and_eq_true, decide_eq_true_eq] at set
  obtain ⟨⟨⟨own, effective⟩, present⟩, updates⟩ := set
  split at updates <;> try contradiction
  next id field now same =>
  obtain rfl := of_decide_eq_true updates
  exact all.failed 0 _ _ _ begun ended entry _ field member own ⟨⟨now, same⟩, effective, present⟩

end Headlines.Soundness.AccountUpdates
