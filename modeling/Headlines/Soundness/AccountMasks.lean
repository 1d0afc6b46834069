import Headlines.Patching.Patch
import Headlines.Soundness.Deletion
import Headlines.Soundness.Served

/-! # Updates of accounts by a field mask

`UpdateAccount` sets the columns that its mask names one by one, each by a statement that commits on its own. Alone, it is
the update by its mask up to the first column that cannot hold its value: there it fails, with the columns before set.
-/

namespace Headlines.Soundness.AccountMasks

open Core Store Api Patching Autocommit
open Deletion (serve)
open DraftPublication (parseUuid_of_uuid)

/-- What a request gives the fields of an account: the values that the validators accept. -/
def given (service : RegistryService) (account : ProtoAccount) (path : String) : Option String :=
  if path = "short_name" then (AccountService.validateShortName account.shortName).toOption
  else if path = "author_name" then (AccountService.validateAuthorName account.authorName).toOption
  else if path = "author_url" then (validateAuthorUrl service.parsers account.authorUrl).toOption
  else none

/-- The fields as they are read: no URL is an empty URL. -/
def ofAccount (row : AccountRow) (path : String) : String :=
  if path = "short_name" then row.shortName
  else if path = "author_name" then row.authorName
  else if path = "author_url" then row.authorUrl.getD ""
  else ""

/-- The columns in the order in which they are set. -/
def columns : List String := ["short_name", "author_name", "author_url"]

/-- The columns that an update sets: those of its mask, up to the first that cannot hold its value. -/
def written (given : String → Option String) (mask : List String) : List String :=
  (columns.filter (· ∈ mask)).takeWhile fun path => (given path).all storableText

section Masks

variable {service : RegistryService} {account : ProtoAccount} {mask : List String} {update : AccountUpdate} {path : String}

/-- The fields that an update asks to set. -/
def asked (update : AccountUpdate) (path : String) : Option String :=
  if path = "short_name" then update.shortName
  else if path = "author_name" then update.authorName
  else if path = "author_url" then update.authorUrl
  else none

/-- One path of the mask puts its field. -/
theorem maskField_puts (update : AccountUpdate) (path : String) :
    (AccountService.maskField service account update path).toOption.map asked =
      put (fun path => (given service account path).map some) (asked update) path := by
  have set {validated : Except HeadlinesError String} {make : String → AccountUpdate}
      (named : given service account path = validated.toOption)
      (made : ∀ value, asked (make value) = Function.update (asked update) path (some value)) :
      (validated >>= fun value => pure (make value)).toOption.map asked =
        put (fun path => (given service account path).map some) (asked update) path := by
    rw [put, named]
    cases validated with
    | error error => rfl
    | ok value => exact congrArg some (made value)
  unfold AccountService.maskField
  split
  · next isShort =>
    subst isShort
    refine set rfl fun value => funext fun other => ?_
    rcases eq_or_ne other "short_name" with rfl | differs
    · rw [Function.update_self]
      rfl
    · simp only [Function.update_of_ne differs, asked, if_neg differs]
  split
  · next isName =>
    subst isName
    refine set rfl fun value => funext fun other => ?_
    rcases eq_or_ne other "author_name" with rfl | differs
    · rw [Function.update_self]
      rfl
    · simp only [Function.update_of_ne differs, asked, if_neg differs]
  split
  · next isUrl =>
    subst isUrl
    refine set rfl fun value => funext fun other => ?_
    rcases eq_or_ne other "author_url" with rfl | differs
    · rw [Function.update_self]
      rfl
    · simp only [Function.update_of_ne differs, asked, if_neg differs]
  · next notShort notName notUrl =>
    rw [put, given, if_neg notShort, if_neg notName, if_neg notUrl]
    rfl

/-- A mask builds an update that asks to set what the mask names, to what is given. -/
theorem accountUpdate_asks {after : String → Option String} :
    (∃ update, AccountService.accountUpdate service account mask = .ok update ∧ asked update = after) ↔
      (∀ path ∈ mask, ∃ value, given service account path = some value) ∧
        ∀ path, after path = if path ∈ mask then given service account path else none := by
  have same : (AccountService.accountUpdate service account mask).toOption.map asked =
      mask.foldlM (put fun path => (given service account path).map some) (asked ⟨none, none, none⟩) :=
    foldlM_view asked maskField_puts _
  have nothing (path : String) : asked ⟨none, none, none⟩ path = none := by
    unfold asked
    split_ifs <;> rfl
  have made : (∃ update, AccountService.accountUpdate service account mask = .ok update ∧ asked update = after) ↔
      (AccountService.accountUpdate service account mask).toOption.map asked = some after := by
    cases AccountService.accountUpdate service account mask <;> simp [Except.toOption]
  rw [made, same, foldlM_put, Follows]
  simp only [nothing]
  constructor
  · intro follows
    refine ⟨fun path member => ?_, fun path => ?_⟩
    · have set := follows path
      rw [if_pos member] at set
      obtain ⟨value, found, -⟩ := Option.map_eq_some_iff.mp set
      exact ⟨value, found⟩
    · have set := follows path
      split at set
      · next member =>
        obtain ⟨value, found, same⟩ := Option.map_eq_some_iff.mp set
        rw [if_pos member, found, same]
      · next missing => rwa [if_neg missing]
  · rintro ⟨valid, set⟩ path
    rw [set]
    split
    · next member =>
      obtain ⟨value, found⟩ := valid path member
      rw [found]
      rfl
    · rfl

end Masks

/-! ## The statements -/

section Statements

variable {id : Uuid} {row : AccountRow} {store : KeyStore} {now : Timestamp} {update : AccountUpdate}

theorem setAccount_same (found : store.accounts id = some row) : store.setAccount id row = store := by
  rw [KeyStore.setAccount, ← found, Function.update_eq_self]

theorem setAccount_setAccount (other : AccountRow) : (store.setAccount id row).setAccount id other = store.setAccount id other := by
  simp only [KeyStore.setAccount, Function.update_idem]

theorem setAccount_accounts : (store.setAccount id row).accounts id = some row := Function.update_self ..

/-- One column is set, if the mask names it and it can hold its value. -/
theorem always_setSome {τ : Type} {value : Option τ} {make : τ → AccountField} {context : String}
    {post : Except HeadlinesError Unit → KeyStore → Prop}
    (set : value.all (fun value => (make value).storable) →
      post (.ok ()) (store.setAccount id (value.elim row fun value => (make value).apply now row)))
    (refused : value.all (fun value => (make value).storable) = false →
      post (.error (Db.internal context .constraint)) (store.setAccount id row)) :
    (Throwing.whenSome value fun value => PgAccountRepo.setField id now (make value) context : RegistryDb Unit).Always
      RegistryStatement.execute post (store.setAccount id row) := by
  cases value with
  | none => exact set rfl
  | some value =>
    have ran : RegistryStatement.execute (.updateAccount id (make value) now) (store.setAccount id row) =
        if (make value).storable then .ok (1, store.setAccount id ((make value).apply now row)) else .error .constraint := by
      simp only [RegistryStatement.execute, setAccount_accounts, setAccount_setAccount]
    refine Throwing.always_bind.mpr (.statement _ (fun result after done => ?_) fun fault failed => ?_)
    · rw [ran] at done
      split at done
      · next fits =>
        cases done
        exact set fits
      · contradiction
    · rw [ran] at failed
      split at failed
      · contradiction
      · next misfit =>
        cases failed
        exact refused (by simpa using misfit)

/-- The columns that an update asks to set. -/
theorem filter_asked : columns.filter (fun path => (asked update path).isSome) =
    update.shortName.toList.map (fun _ => "short_name") ++ (update.authorName.toList.map (fun _ => "author_name") ++
      update.authorUrl.toList.map fun _ => "author_url") := by
  rcases update with ⟨_ | shortName, _ | authorName, _ | authorUrl⟩ <;> rfl

/-- What is left of them, column by column. -/
theorem takeWhile_asked :
    (columns.filter fun path => (asked update path).isSome).takeWhile (fun path => (asked update path).all storableText) =
      if update.shortName.all storableText then
        update.shortName.toList.map (fun _ => "short_name") ++
          if update.authorName.all storableText then
            update.authorName.toList.map (fun _ => "author_name") ++
              if update.authorUrl.all storableText then update.authorUrl.toList.map fun _ => "author_url" else []
          else []
      else [] := by
  have single (path : String) (value : Option String) (rest : List String) (same : asked update path = value) :
      (value.toList.map (fun _ => path) ++ rest).takeWhile (fun path => (asked update path).all storableText) =
        if value.all storableText then
          value.toList.map (fun _ => path) ++ rest.takeWhile fun path => (asked update path).all storableText
        else [] := by
    cases value with
    | none => rfl
    | some value =>
      simp only [Option.toList_some, List.map_cons, List.map_nil, List.singleton_append, List.takeWhile_cons, same]
  have last : update.authorUrl.toList.map (fun _ => "author_url") = update.authorUrl.toList.map (fun _ => "author_url") ++ [] :=
    (List.append_nil _).symm
  rw [filter_asked, single "short_name" update.shortName _ rfl, single "author_name" update.authorName _ rfl, last,
    single "author_url" update.authorUrl _ rfl]
  simp only [List.takeWhile_nil, List.append_nil]

/-- The row is the same but for its fields and its watermark. -/
structure Beside (row after : AccountRow) : Prop where
  status : after.status = row.status
  deletedAt : after.deletedAt = row.deletedAt
  createdAt : after.createdAt = row.createdAt

/-- What an update of the repository comes to, from the row it finds. -/
structure Comes (update : AccountUpdate) (id : Uuid) (row : AccountRow) (store : KeyStore)
    (outcome : Except HeadlinesError Account) (last : KeyStore) (paths : List String) (after : AccountRow) : Prop where
  stored : last = store.setAccount id after
  fields : Follows (asked update) paths (ofAccount row) (ofAccount after)
  beside : Beside row after
  accepted : paths = columns.filter (fun path => (asked update path).isSome) → outcome = .ok (after.intoDomain id)
  refused : paths ≠ columns.filter (fun path => (asked update path).isSome) → ∃ error, outcome = .error error

section Columns

variable {paths : List String} {value : Option String}

/-- A column follows the mask. -/
theorem follows_column {path : String} {make : String → AccountField} (same : asked update path = value)
    (set : ∀ given, ofAccount ((make given).apply now row) = Function.update (ofAccount row) path given) :
    Follows (asked update) (value.toList.map fun _ => path) (ofAccount row)
      (ofAccount (value.elim row fun given => (make given).apply now row)) := by
  cases value with
  | none => exact Follows.nil.mpr rfl
  | some given => exact Follows.cons.mpr ⟨given, same, Follows.nil.mpr (set given).symm⟩

theorem ofAccount_shortName (given : String) :
    ofAccount ((AccountField.shortName given).apply now row) = Function.update (ofAccount row) "short_name" given := by
  funext path
  rcases eq_or_ne path "short_name" with rfl | differs
  · rw [Function.update_self]
    rfl
  · simp only [Function.update_of_ne differs, ofAccount, if_neg differs, AccountField.apply]

theorem ofAccount_authorName (given : String) :
    ofAccount ((AccountField.authorName given).apply now row) = Function.update (ofAccount row) "author_name" given := by
  funext path
  rcases eq_or_ne path "author_name" with rfl | differs
  · rw [Function.update_self]
    rfl
  · simp only [Function.update_of_ne differs, ofAccount, if_neg differs, AccountField.apply]

theorem ofAccount_authorUrl (given : String) :
    ofAccount ((AccountField.authorUrl (nonEmpty given)).apply now row) = Function.update (ofAccount row) "author_url" given := by
  funext path
  rcases eq_or_ne path "author_url" with rfl | differs
  · rw [Function.update_self]
    exact getD_nonEmpty given
  · simp only [Function.update_of_ne differs, ofAccount, if_neg differs, AccountField.apply]

end Columns

theorem Beside.elim {middle : AccountRow} (beside : Beside row middle) (value : Option String) (make : String → AccountField) :
    Beside row (value.elim middle fun given => (make given).apply now middle) := by
  cases value with
  | none => exact beside
  | some given =>
    rw [Option.elim_some]
    cases make given <;> exact ⟨beside.status, beside.deletedAt, beside.createdAt⟩

theorem always_get {post : Except HeadlinesError Unit → KeyStore → Prop} (holds : post (.ok ()) store) :
    RegistryDb.get.Always RegistryStatement.execute post store := holds

theorem always_select {context : String} {post : Except HeadlinesError (Option AccountRow) → KeyStore → Prop}
    (holds : post (.ok (store.accounts id)) store) :
    (RegistryDb.selectAccount id context).Always RegistryStatement.execute post store := holds

/-- The update sets the columns one by one, up to the first that cannot hold its value. -/
theorem always_update (found : store.accounts id = some row) (active : row.status ≠ .deleted) :
    (PgAccountRepo.update id update).Always RegistryStatement.execute (fun outcome last => ∃ after,
      Comes update id row store outcome last ((columns.filter fun path => (asked update path).isSome).takeWhile
        fun path => (asked update path).all storableText) after) store := by
  have active : (row.status != .deleted) = true := by simpa using active
  refine Throwing.always_bind.mpr (always_get ?_)
  refine Throwing.always_bind.mpr (always_select ?_)
  refine Throwing.always_bind.mpr (Throwing.always_okOr.mpr ?_)
  rw [found]
  refine Throwing.always_bind.mpr (Throwing.always_require.mpr ?_)
  rw [if_pos active]
  refine Throwing.always_bind.mpr (Throwing.always_ask.mpr fun now => ?_)
  refine Eq.mp (congrArg (Throwing.Always _ _ _) (setAccount_same found)) ?_
  have given {τ : Type} {value : Option τ} {fits : τ → Bool} (misfit : value.all fits = false) : ∃ value', value = some value' := by
    cases value with
    | none => contradiction
    | some value => exact ⟨value, rfl⟩
  have url : update.authorUrl.all (fun url => (AccountField.authorUrl (nonEmpty url)).storable) =
      update.authorUrl.all storableText := by
    cases update.authorUrl with
    | none => rfl
    | some url => exact Served.all_nonEmpty url
  rw [takeWhile_asked]
  refine Throwing.always_bind.mpr (always_setSome (fun (fits : update.shortName.all storableText = true) => ?_)
    fun (misfit : update.shortName.all storableText = false) => ?_)
  swap
  · obtain ⟨value, named⟩ := given misfit
    rw [if_neg (Bool.eq_false_iff.mp misfit)]
    refine ⟨row, rfl, Follows.nil.mpr rfl, ⟨rfl, rfl, rfl⟩, fun same => absurd same ?_, fun _ => ⟨_, rfl⟩⟩
    rw [filter_asked, named]
    exact (List.cons_ne_nil _ _).symm
  rw [if_pos fits]
  have follows : Follows (asked update) (update.shortName.toList.map fun _ => "short_name") (ofAccount row)
      (ofAccount (update.shortName.elim row fun given => (AccountField.shortName given).apply now row)) :=
    follows_column rfl ofAccount_shortName
  have beside : Beside row (update.shortName.elim row fun given => (AccountField.shortName given).apply now row) :=
    Beside.elim ⟨rfl, rfl, rfl⟩ _ _
  generalize update.shortName.elim row (fun given => (AccountField.shortName given).apply now row) = first at follows beside ⊢
  refine Throwing.always_bind.mpr (always_setSome (fun (fits : update.authorName.all storableText = true) => ?_)
    fun (misfit : update.authorName.all storableText = false) => ?_)
  swap
  · obtain ⟨value, named⟩ := given misfit
    rw [if_neg (Bool.eq_false_iff.mp misfit), List.append_nil]
    refine ⟨first, rfl, follows, beside, fun same => absurd same ?_, fun _ => ⟨_, rfl⟩⟩
    rw [filter_asked, named]
    simp
  rw [if_pos fits]
  have named : Follows (asked update) (update.authorName.toList.map fun _ => "author_name") (ofAccount first)
      (ofAccount (update.authorName.elim first fun given => (AccountField.authorName given).apply now first)) :=
    follows_column rfl ofAccount_authorName
  have follows := follows.append named
  have beside : Beside row (update.authorName.elim first fun given => (AccountField.authorName given).apply now first) :=
    beside.elim _ _
  generalize update.authorName.elim first (fun given => (AccountField.authorName given).apply now first) = second
    at follows beside ⊢
  refine Throwing.always_bind.mpr (always_setSome (fun fits => ?_) fun misfit => ?_)
  swap
  · rw [url] at misfit
    obtain ⟨value, named⟩ := given misfit
    rw [if_neg (Bool.eq_false_iff.mp misfit), List.append_nil]
    refine ⟨second, rfl, follows, beside, fun same => absurd same ?_, fun _ => ⟨_, rfl⟩⟩
    rw [filter_asked, named]
    simp
  rw [url] at fits
  rw [if_pos fits, ← filter_asked]
  have last : Follows (asked update) (update.authorUrl.toList.map fun _ => "author_url") (ofAccount second)
      (ofAccount (update.authorUrl.elim second fun given => (AccountField.authorUrl (nonEmpty given)).apply now second)) :=
    follows_column rfl ofAccount_authorUrl
  have follows := follows.append last
  have beside : Beside row (update.authorUrl.elim second fun given => (AccountField.authorUrl (nonEmpty given)).apply now second) :=
    beside.elim _ fun given => AccountField.authorUrl (nonEmpty given)
  generalize update.authorUrl.elim second (fun given => (AccountField.authorUrl (nonEmpty given)).apply now second) = third
    at follows beside ⊢
  refine Throwing.always_bind.mpr (always_select ?_)
  refine Throwing.always_bind.mpr (Throwing.always_okOr.mpr ?_)
  rw [setAccount_accounts]
  refine ⟨third, rfl, ?_, beside, fun _ => rfl, fun differs => absurd rfl differs⟩
  rwa [filter_asked, ← List.append_assoc]

/-- A row that is not there, or deleted, is not updated. -/
theorem always_update_refused (absent : ∀ row, store.accounts id = some row → row.status = .deleted) :
    (PgAccountRepo.update id update).Always RegistryStatement.execute
      (fun outcome last => (∃ error, outcome = .error error) ∧ last = store) store := by
  refine Throwing.always_bind.mpr (always_get ?_)
  refine Throwing.always_bind.mpr (always_select ?_)
  refine Throwing.always_bind.mpr (Throwing.always_okOr.mpr ?_)
  cases found : store.accounts id with
  | none => exact ⟨⟨_, rfl⟩, rfl⟩
  | some row =>
    refine Throwing.always_bind.mpr (Throwing.always_require.mpr ?_)
    rw [absent row found]
    exact ⟨⟨_, rfl⟩, rfl⟩

end Statements

/-! ## The handler -/

section Handler

variable {service : RegistryService} {subject : Subject} {request : UpdateAccountRequest} {account : ProtoAccount} {id : Uuid}
  {row after : AccountRow} {store : KeyStore} {mask paths : List String} {update : AccountUpdate}

/-- The request names an account that the caller administers and that is not deleted, and fields with valid values. -/
structure Target (service : RegistryService) (subject : Subject) (request : UpdateAccountRequest) (store : KeyStore)
    (account : ProtoAccount) (id : Uuid) (row : AccountRow) (mask : List String) : Prop where
  sent : request.account = some account
  named : service.parsers.uuid account.id = .ok id
  allowed : permitted subject id "accounts.admin"
  masked : request.updateMask = some mask
  found : store.accounts id = some row
  active : row.status ≠ .deleted
  valid : (patch (given service account) mask (ofAccount row)).isSome

/-- The row after the update of the columns of the mask, up to the first that cannot hold its value. -/
structure Changes (service : RegistryService) (account : ProtoAccount) (mask : List String) (row after : AccountRow) : Prop where
  fields : Follows (given service account) (written (given service account) mask) (ofAccount row) (ofAccount after)
  beside : Beside row after

theorem nonEmptyMask_ok_iff {mask : Option (List String)} : nonEmptyMask mask = .ok paths ↔ mask = some paths ∧ paths ≠ [] := by
  cases mask with
  | none => simp [nonEmptyMask]
  | some named =>
    cases named with
    | nil =>
      simp only [nonEmptyMask, List.isEmpty_nil, if_true, reduceCtorEq, Option.some.injEq, false_iff]
      rintro ⟨rfl, present⟩
      exact present rfl
    | cons path rest =>
      simp only [nonEmptyMask, List.isEmpty_cons, Bool.false_eq_true, if_false, Except.ok.injEq, Option.some.injEq]
      constructor
      · rintro rfl
        exact ⟨rfl, List.cons_ne_nil _ _⟩
      · exact And.left

/-- The mask is accepted with its values exactly if there is an update by it. -/
theorem valid_iff : (patch (given service account) mask (ofAccount row)).isSome ↔
    mask ≠ [] ∧ ∃ update, AccountService.accountUpdate service account mask = .ok update := by
  have built : (∃ update, AccountService.accountUpdate service account mask = .ok update) ↔
      ∀ path ∈ mask, ∃ value, given service account path = some value := by
    constructor
    · rintro ⟨update, built⟩
      exact (accountUpdate_asks.mp ⟨update, built, rfl⟩).1
    · intro valid
      obtain ⟨update, built, -⟩ := accountUpdate_asks.mpr ⟨valid, fun path => rfl⟩
      exact ⟨update, built⟩
  rw [built, patch_isSome_iff]

theorem given_of_not_column {path : String} (unlisted : path ∉ columns) : given service account path = none := by
  simp only [columns, List.mem_cons, List.not_mem_nil, or_false, not_or] at unlisted
  obtain ⟨notShort, notName, notUrl⟩ := unlisted
  rw [given, if_neg notShort, if_neg notName, if_neg notUrl]

/-- The columns that the update sets are those of the mask. -/
theorem filter_eq (built : AccountService.accountUpdate service account mask = .ok update) :
    columns.filter (fun path => (asked update path).isSome) = columns.filter (· ∈ mask) := by
  obtain ⟨valid, set⟩ := accountUpdate_asks.mp ⟨update, built, rfl⟩
  refine List.filter_congr fun path _ => ?_
  rw [set]
  split
  · next member =>
    obtain ⟨value, found⟩ := valid path member
    simp [found, member]
  · next missing => simp [missing]

theorem written_eq (built : AccountService.accountUpdate service account mask = .ok update) :
    (columns.filter fun path => (asked update path).isSome).takeWhile (fun path => (asked update path).all storableText) =
      written (given service account) mask := by
  obtain ⟨-, set⟩ := accountUpdate_asks.mp ⟨update, built, rfl⟩
  rw [written, filter_eq built, List.takeWhile_filter, List.takeWhile_filter]
  refine congrArg (fun keep => (columns.takeWhile keep).filter (· ∈ mask)) (funext fun path => ?_)
  rw [set]
  split
  · rfl
  · next missing => simp [missing]

theorem mem_of_written {path : String} (set : path ∈ written (given service account) mask) : path ∈ mask :=
  of_decide_eq_true (List.mem_filter.mp (List.takeWhile_sublist _ |>.subset set)).2

/-- Nothing of the mask is left out exactly if the columns can hold all its values. -/
theorem written_all_iff (valid : ∀ path ∈ mask, ∃ value, given service account path = some value) :
    written (given service account) mask = columns.filter (· ∈ mask) ↔
      ∀ path ∈ mask, (given service account path).all storableText := by
  rw [written, List.takeWhile_eq_self_iff]
  constructor
  · intro fits path member
    by_cases listed : path ∈ columns
    · exact fits path (List.mem_filter.mpr ⟨listed, decide_eq_true member⟩)
    · obtain ⟨value, found⟩ := valid path member
      rw [given_of_not_column listed] at found
      contradiction
  · intro fits path kept
    exact fits path (of_decide_eq_true (List.mem_filter.mp kept).2)

/-- The update of a target comes to what the repository comes to. -/
theorem always_target (target : Target service subject request store account id row mask) :
    (service.handle (.updateAccount subject request)).Always RegistryStatement.execute (fun outcome last => ∃ after,
      Changes service account mask row after ∧ last = store.setAccount id after ∧
      ((∀ path ∈ mask, (given service account path).all storableText) →
        outcome = .ok (.account (AccountService.accountToProto (after.intoDomain id)))) ∧
      ((∃ path ∈ mask, (given service account path).all storableText = false) → ∃ status, outcome = .error status)) store := by
  obtain ⟨named, update, built⟩ := valid_iff.mp target.valid
  obtain ⟨valid, set⟩ := accountUpdate_asks.mp ⟨update, built, rfl⟩
  have masks : nonEmptyMask request.updateMask = .ok mask := nonEmptyMask_ok_iff.mpr ⟨target.masked, named⟩
  refine Throwing.always_map.mpr ?_
  simp only [AccountService.updateAccount, target.sent, parseUuid_of_uuid target.named, target.allowed, masks, built,
    RegistryHandler.check, Except.mapError, Throwing.okOr_some_bind, Throwing.ofExcept_ok_bind, Throwing.require_true_bind]
  refine Throwing.always_bind.mpr (Throwing.always_adapt.mpr ((always_update target.found target.active).mono ?_))
  rintro outcome last ⟨after, comes⟩
  rw [written_eq built] at comes
  have follows := comes.fields.congr fun path set' => by rw [set, if_pos (mem_of_written set')]
  have changes : Changes service account mask row after := ⟨follows, comes.beside⟩
  have accepts := written_all_iff valid
  rw [← filter_eq built] at accepts
  by_cases fits : ∀ path ∈ mask, (given service account path).all storableText
  · rw [comes.accepted (accepts.mpr fits)]
    refine ⟨after, changes, comes.stored, fun _ => rfl, ?_⟩
    rintro ⟨path, member, misfit⟩
    rw [fits path member] at misfit
    contradiction
  · obtain ⟨error, refused⟩ := comes.refused fun same => fits (accepts.mp same)
    rw [refused]
    exact ⟨after, changes, comes.stored, fun all => absurd all fits, fun _ => ⟨_, rfl⟩⟩

/-- Without a target the request is refused, and changes nothing. -/
theorem always_no_target (never : ∀ account id row mask, ¬ Target service subject request store account id row mask) :
    (service.handle (.updateAccount subject request)).Always RegistryStatement.execute
      (fun outcome last => (∃ status, outcome = .error status) ∧ last = store) store := by
  refine Throwing.always_map.mpr ?_
  unfold AccountService.updateAccount
  refine Throwing.always_bind.mpr (Throwing.always_okOr.mpr ?_)
  cases sent : request.account with
  | none => exact ⟨⟨_, rfl⟩, rfl⟩
  | some account =>
  refine Throwing.always_bind.mpr (Throwing.always_ofExcept.mpr ?_)
  cases parsed : parseUuid service.parsers "account.id" account.id with
  | error error => exact ⟨⟨_, rfl⟩, rfl⟩
  | ok id =>
  refine Throwing.always_bind.mpr (Throwing.always_require.mpr ?_)
  cases allowed : permitted subject id "accounts.admin" with
  | false => exact ⟨⟨_, rfl⟩, rfl⟩
  | true =>
  refine Throwing.always_bind.mpr (Throwing.always_ofExcept.mpr ?_)
  cases masks : nonEmptyMask request.updateMask with
  | error error => exact ⟨⟨_, rfl⟩, rfl⟩
  | ok mask =>
  refine Throwing.always_bind.mpr (Throwing.always_ofExcept.mpr ?_)
  cases built : AccountService.accountUpdate service account mask with
  | error error => exact ⟨⟨_, rfl⟩, rfl⟩
  | ok update =>
  obtain ⟨masked, named⟩ := nonEmptyMask_ok_iff.mp masks
  have absent (row : AccountRow) (found : store.accounts id = some row) : row.status = .deleted := by
    by_contra active
    exact never account id row mask ⟨sent, Except.mapError_eq_ok.mp parsed, allowed, masked, found, active,
      valid_iff.mpr ⟨named, update, built⟩⟩
  refine Throwing.always_bind.mpr (Throwing.always_adapt.mpr ((always_update_refused absent).mono ?_))
  rintro outcome last ⟨⟨error, rfl⟩, rfl⟩
  exact ⟨⟨_, rfl⟩, rfl⟩

end Handler

/-- `UpdateAccount` alone, of an account that the caller administers and that is not deleted, with a mask of fields with
valid values: the columns of the mask take their values one by one, up to the first that cannot hold its value. If there is
none, that is the update by the mask, and it is shown; otherwise the request fails, with those columns set. Any other
request is refused and changes nothing. -/
theorem account_follows_mask (service : RegistryService) (subject : Subject) (request : UpdateAccountRequest)
    (answers : ℕ → (question : Question) → Answer question) (store : KeyStore) :
    (∀ account id row mask, Target service subject request store account id row mask → ∃ after,
      Changes service account mask row after ∧
      (serve service ⟨.updateAccount subject request, answers⟩ store).2 = store.setAccount id after ∧
      ((∀ path ∈ mask, (given service account path).all storableText) →
        patch (given service account) mask (ofAccount row) = some (ofAccount after) ∧
        (serve service ⟨.updateAccount subject request, answers⟩ store).1 =
          .ok (.account (AccountService.accountToProto (after.intoDomain id)))) ∧
      ((∃ path ∈ mask, (given service account path).all storableText = false) →
        ∃ status, (serve service ⟨.updateAccount subject request, answers⟩ store).1 = .error status)) ∧
    ((∀ account id row mask, ¬ Target service subject request store account id row mask) →
      ∃ status, serve service ⟨.updateAccount subject request, answers⟩ store = (.error status, store)) := by
  constructor
  · intro account id row mask target
    obtain ⟨after, changes, stored, accepted, refused⟩ := (always_target target).alone answers
    refine ⟨after, changes, stored, fun fits => ⟨?_, accepted fits⟩, refused⟩
    obtain ⟨named, valid⟩ := patch_isSome_iff.mp target.valid
    refine patch_eq_some_iff.mpr ⟨named, Follows.mask_congr changes.fields fun path => ?_⟩
    rw [(written_all_iff valid).mpr fits, List.mem_filter, decide_eq_true_iff, and_iff_right_iff_imp]
    intro member
    by_contra unlisted
    obtain ⟨value, found⟩ := valid path member
    rw [given_of_not_column unlisted] at found
    contradiction
  · intro never
    obtain ⟨⟨status, refused⟩, same⟩ := (always_no_target never).alone answers
    exact ⟨status, Prod.ext refused same⟩

end Headlines.Soundness.AccountMasks
