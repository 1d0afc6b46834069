import Headlines.Api.Recorded
import Headlines.Api.Registry
import Headlines.Articles.Family
import Headlines.Autocommit.Alone
import Headlines.Soundness.DraftPublication

/-! # What one writing call comes to

Each call that writes an article, a draft, an event or a user is evaluated on any tables in order, alone and with no
statement lost: refused by name, refused by a column, or written. The calls that read these back are evaluated too. -/

namespace Headlines.Soundness.Served

open Core Rust Store Api Articles
open ReadCommitted (Pending Fault)
open ReadCommitted.Throwing (alone_bind alone_map alone_adapt alone_commit alone_transaction alone_insert alone_update
  alone_pure alone_ask alone_require alone_select alone_okOr_some)
open DraftPublication (reading reading_now reading_nowV7 serve Active Unused check_ok parseUuid_of_uuid alone_activeAccount
  alone_insertFamily storable)

/-- The fields of an article or draft pass. -/
structure ValidFields (service : Service) (accountId title authorName authorUrl : String) (content : List Node)
    (new : NewArticle) : Prop where
  accountId : service.parsers.uuid accountId = .ok new.accountId
  title : Api.validateTitle title = .ok new.title
  authorName : validateAuthorName authorName = .ok new.authorName
  authorUrl : validateAuthorUrl service.parsers authorUrl = .ok new.authorUrl
  content : validateAndEncodeContent content service.contentMaxBytes = .ok new.content

/-! ## Articles and drafts -/

section Content

variable {service : Service} {subject : Subject} {contents : Contents} {new : NewArticle} {id : Uuid} {now : Timestamp}

/-- An error that is not `INTERNAL`. -/
def Refusal (status : Status) : Prop := ∀ context cause, status ≠ .domain (.internal context cause)

/-- An account that is missing or deleted is refused by its name. -/
theorem alone_inactive (inactive : ¬ Active contents id) (now : Timestamp) (fresh : Uuid) : ∃ status, Refusal status ∧
    (Handler.activeAccount id).alone admits (reading now fresh) contents .none = ⟨.error status, contents, .none⟩ := by
  cases found : contents (.account id) with
  | none =>
    refine ⟨.domain (.accountNotFound id), by rintro _ _ ⟨⟩, ?_⟩
    simp [Handler.activeAccount, Handler.repo, PgAccountRepo.get, Db.get, Db.optional, alone_bind, alone_adapt, found,
      Except.mapError]
  | some row =>
    have deleted : row.status = .deleted := by
      cases status : row.status with
      | active => exact absurd ⟨row, found, status⟩ inactive
      | deleted => rfl
    refine ⟨.domain (.accountDeleted id), by rintro _ _ ⟨⟩, ?_⟩
    simp [Handler.activeAccount, Handler.repo, PgAccountRepo.get, Db.get, Db.optional, alone_bind, alone_adapt, found,
      AccountRow.intoDomain, deleted, Except.mapError]
    rfl

theorem serve_publishArticle (now : Timestamp) {request : PublishArticleRequest}
    (valid : ValidFields service request.accountId request.title request.authorName request.authorUrl request.content new)
    (allowed : permitted subject new.accountId "articles.write") (active : Active contents new.accountId)
    (unused : Unused contents id) : serve service now id (.publishArticle subject request) contents =
      if storable new then
        ⟨.ok (.article (articleToProto (DraftPublication.published new id now))),
          (DraftPublication.family .none new id now).view contents, .none⟩
      else ⟨.error (.domain (Db.internal "insert article_versions" .constraint)), contents, .none⟩ := by
  have inserted := alone_insertFamily now id .none
    (by rwa [Pending.view_none]) (fun key about => by
      rw [Pending.view_none]
      rcases about with rfl | rfl | rfl
      · exact unused.article
      · exact unused.live
      · exact unused.version)
  cases fits : storable new <;>
  · simp only [fits, if_true, Bool.false_eq_true, if_false] at inserted
    simp [serve, Service.handle, ArticleService.publishArticle, check_ok (parseUuid_of_uuid valid.accountId),
      check_ok valid.title, check_ok valid.authorName, check_ok valid.authorUrl, check_ok valid.content,
      Handler.repo, PgArticleRepo.publish, Db.get, Db.utcNow, Db.transaction, alone_map, alone_bind, alone_adapt,
      alone_transaction, alone_commit, allowed, alone_activeAccount active, reading_nowV7, reading_now, inserted,
      DraftPublication.alone_get, Except.mapError, Except.map]

/-- The row of a draft with these fields is read as its fields. -/
theorem serve_createDraft (now : Timestamp) {request : CreateDraftRequest}
    (valid : ValidFields service request.accountId request.title request.authorName request.authorUrl request.content new)
    (allowed : permitted subject new.accountId "drafts.write") (active : Active contents new.accountId)
    (unused : Unused contents id) : serve service now id (.createDraft subject request) contents =
      if storable new then
        ⟨.ok (.draft (draftToProto ((DraftPublication.draftRow new now).intoDomain id))),
          DraftPublication.drafted new id now contents, .none⟩
      else ⟨.error (.domain (Db.internal "insert drafts" .constraint)), contents, .none⟩ := by
  have created := DraftPublication.alone_create now id active unused.draft
  cases fits : storable new <;>
  · simp only [fits, DraftPublication.newDraft, if_true, Bool.false_eq_true, if_false] at created ⊢
    simp only [serve, Service.handle, DraftService.createDraft, check_ok (parseUuid_of_uuid valid.accountId),
      check_ok valid.title, check_ok valid.authorName, check_ok valid.authorUrl, check_ok valid.content,
      Handler.repo, alone_map, alone_bind, alone_adapt, alone_pure, alone_ask,
      allowed, alone_require, alone_activeAccount active, reading_nowV7, created, Except.mapError,
      Except.map, DraftPublication.drafted]

end Content

section Edits

variable {service : Service} {subject : Subject} {contents : Contents} {id : Uuid} {now : Timestamp} {fresh : Uuid}
  {article : ArticleRow} {live : ArticleLiveRow} {version : ArticleVersionRow} {edit : ArticleEdit}

/-- The rows of a live article. -/
structure LiveRows (contents : Contents) (id : Uuid) (article : ArticleRow) (live : ArticleLiveRow)
    (version : ArticleVersionRow) : Prop where
  known : contents (.article id) = some article
  state : article.state = .live
  pointed : contents (.live id) = some live
  held : contents (.version id live.currentVersion) = some version

/-- A live article has its rows, and its next version is free. -/
theorem liveRows (consistent : Consistent contents) (found : contents (.article id) = some article)
    (state : article.state = .live) : ∃ live version, LiveRows contents id article live version ∧
      1 ≤ live.currentVersion ∧ contents (.version id (live.currentVersion + 1)) = none := by
  obtain ⟨last, family⟩ := consistent id
  obtain ⟨present, -⟩ := family.live.mp ⟨article, found, state⟩
  obtain ⟨live, pointed⟩ := Option.isSome_iff_exists.mp present
  have current := family.current live pointed
  have positive := family.versions.mp (by rw [found]; rfl)
  obtain ⟨version, held⟩ := Option.isSome_iff_exists.mp ((family.numbered live.currentVersion).mpr (by omega))
  refine ⟨live, version, ⟨found, state, pointed, held⟩, ?_, ?_⟩
  · exact family.one_le_current pointed (by rw [found]; rfl)
  · refine Option.not_isSome_iff_eq_none.mp fun taken => ?_
    obtain ⟨lower, upper⟩ := (family.numbered _).mp taken
    have grows : (live.currentVersion + 1).toInt = live.currentVersion.toInt + 1 :=
      toInt_succ (by omega) (Int32.le_iff_toInt_le.mpr (by simpa using lower))
    omega

theorem alone_get_live (rows : LiveRows contents id article live version) :
    (PgArticleRepo.get id).alone admits (reading now fresh) contents .none =
      ⟨.ok (PgArticleRepo.liveArticle id article live version), contents, .none⟩ := by
  simp [PgArticleRepo.get, Db.get, Db.first, Db.optional, alone_bind, rows.known, rows.state, rows.pointed, rows.held]

theorem liveArticle_state : (PgArticleRepo.liveArticle id article live version).summary.state = .live := rfl

theorem liveArticle_accountId :
    (PgArticleRepo.liveArticle id article live version).summary.accountId = article.accountId := rfl

/-- The next version of an article, and where it points to then. -/
def edited (pending : Pending Row) (id : Uuid) (live : ArticleLiveRow) (version : ArticleVersionRow) (edit : ArticleEdit)
    (now : Timestamp) : Pending Row :=
  (pending.set (.version id (live.currentVersion + 1)) (some (version.edited edit now))).set (.live id)
    (some { live with currentVersion := live.currentVersion + 1, updatedAt := now.stored })

theorem LiveRows.edited (rows : LiveRows contents id article live version) (edit : ArticleEdit) (now : Timestamp) :
    LiveRows ((Served.edited .none id live version edit now).view contents) id article
      { live with currentVersion := live.currentVersion + 1, updatedAt := now.stored } (version.edited edit now) := by
  constructor <;> simp [Served.edited, rows.known, rows.state]

/-- An edit is refused by the check on the next version only. -/
theorem alone_editBody (rows : LiveRows contents id article live version)
    (free : contents (.version id (live.currentVersion + 1)) = none) :
    (PgArticleRepo.editBody id edit now).alone admits (reading now fresh) contents .none =
      if admits contents (.version id (live.currentVersion + 1)) (version.edited edit now) then
        ⟨.ok (), contents, edited .none id live version edit now⟩
      else ⟨.error (Db.internal "insert next article_versions" .constraint), contents, .none⟩ := by
  have inserted (raise : ReadCommitted.Fault → HeadlinesError) :
      (ReadCommitted.Throwing.insert (.version id (live.currentVersion + 1)) (version.edited edit now) raise : Db Unit).alone
        admits (reading now fresh) contents .none = _ :=
    alone_insert (by rwa [Pending.view_none])
  have pointed : (Pending.none.set (.version id (live.currentVersion + 1)) (some (version.edited edit now))).view contents
      (.live id) = some live := by
    simp [rows.pointed]
  rw [Pending.view_none] at inserted
  have editable : (ArticleState.live != .tombstone) = true := rfl
  simp only [PgArticleRepo.editBody, Db.optional, Db.first, Db.insert, Db.update, alone_bind,
    alone_select, alone_okOr_some, alone_require,
    Pending.view_none, rows.known, rows.state, rows.pointed, rows.held, editable, inserted]
  by_cases admitted : admits contents (.version id (live.currentVersion + 1)) (version.edited edit now)
  · have updated (raise : ReadCommitted.Fault → HeadlinesError) : (ReadCommitted.Throwing.update (.live id)
        (fun row : ArticleLiveRow => { row with currentVersion := live.currentVersion + 1, updatedAt := now.stored })
        raise : Db ℕ).alone admits (reading now fresh) contents
          (Pending.none.set (.version id (live.currentVersion + 1)) (some (version.edited edit now))) = _ :=
      alone_update pointed (by simp [admits, rows.known, one_le_of_admits admitted])
    simp only [if_pos admitted, updated, alone_pure, edited]
  · simp only [if_neg admitted]

/-- What is kept as `NULL` is storable. -/
theorem all_nonEmpty (s : String) : (nonEmpty s).all storableText = storableText s := by
  unfold nonEmpty
  split
  · next blank =>
    rw [String.isEmpty_iff.mp blank]
    rfl
  · rfl

/-- The version numbers end. -/
theorem succ_pos_iff {n : Int32} (positive : 1 ≤ n) : 1 ≤ n + 1 ↔ n ≠ Int32.maxValue := by
  have one : (1 : Int32).toInt = 1 := by decide
  have last : Int32.maxValue.toInt = 2147483647 := by decide
  have := n.toInt_lt
  rw [Int32.le_iff_toInt_le, one] at positive
  rw [Int32.le_iff_toInt_le, Int32.toInt_add, one, Ne, ← Int32.toInt_inj, last]
  simp only [Int.bmod]
  omega

/-- The next version of an article is one that its table admits exactly if the edit can be stored. -/
theorem admits_edited (rows : LiveRows contents id article live version) (positive : 1 ≤ live.currentVersion)
    (admitted : admits contents (.version id live.currentVersion) version) :
    admits contents (.version id (live.currentVersion + 1)) (version.edited edit now) ↔
      edit.title.all storableText ∧ edit.authorName.all storableText ∧ edit.authorUrl.all storableText ∧
        edit.content.all storableJson ∧ live.currentVersion ≠ Int32.maxValue := by
  simp only [admits, Bool.and_eq_true] at admitted
  obtain ⟨⟨⟨⟨⟨-, title⟩, authorName⟩, authorUrl⟩, content⟩, -⟩ := admitted
  have given {ρ : Type} (check : ρ → Bool) (value : Option ρ) (old : ρ) (kept : check old) :
      check (value.getD old) = value.all check := by
    cases value with
    | none => exact kept
    | some value => rfl
  have old (value : Option String) (kept : value.all storableText) : storableText (value.getD "") := by
    cases value with
    | none => rfl
    | some value => exact kept
  have either {ρ : Type} (value current : Option ρ) (default : ρ) :
      (value.or current).getD default = value.getD (current.getD default) := by
    cases value <;> rfl
  have fresh : storableJson (version.content.getD (.array [])) := by
    cases kept : version.content with
    | none => rfl
    | some json =>
      rw [kept] at content
      exact content
  simp only [admits, ArticleVersionRow.edited, all_nonEmpty, either, given storableText _ _ title,
    given storableText _ _ (old _ authorName), given storableText _ _ (old _ authorUrl), given storableJson _ _ fresh,
    Option.all_some, Option.all_none, Bool.and_true, Bool.and_eq_true, rows.known, Option.isSome_some, true_and,
    decide_eq_true_eq, succ_pos_iff positive]
  tauto

/-- `EditArticle` of a live article. -/
theorem serve_editArticle (now : Timestamp) (fresh : Uuid) {request : EditArticleRequest} {paths : List String}
    (named : service.parsers.uuid request.id = .ok id) (masks : maskPaths request.updateMask = .ok paths)
    (valid : ArticleService.articleEdit service paths request.fields = .ok edit)
    (rows : LiveRows contents id article live version) (free : contents (.version id (live.currentVersion + 1)) = none)
    (allowed : permitted subject article.accountId "articles.write") (active : Active contents article.accountId) :
    serve service now fresh (.editArticle subject request) contents =
      if admits contents (.version id (live.currentVersion + 1)) (version.edited edit now) then
        ⟨.ok (.article (articleToProto (PgArticleRepo.liveArticle id article
            { live with currentVersion := live.currentVersion + 1, updatedAt := now.stored } (version.edited edit now)))),
          (edited .none id live version edit now).view contents, .none⟩
      else ⟨.error (.domain (Db.internal "insert next article_versions" .constraint)), contents, .none⟩ := by
  have body : (PgArticleRepo.editBody id edit now).alone admits (reading now fresh) contents .none = _ :=
    alone_editBody rows free
  have editable : (ArticleState.live != .tombstone) = true := rfl
  by_cases admitted : admits contents (.version id (live.currentVersion + 1)) (version.edited edit now)
  · simp only [if_pos admitted] at body ⊢
    have after := rows.edited edit now
    simp [serve, Service.handle, ArticleService.editArticle, check_ok (parseUuid_of_uuid named), check_ok masks,
      check_ok valid, Handler.repo, alone_map, alone_bind, alone_adapt, alone_get_live rows, liveArticle_state,
      liveArticle_accountId, editable, allowed, alone_activeAccount active, PgArticleRepo.edit, Db.get, Db.utcNow,
      Db.transaction, alone_transaction, alone_commit, reading_now, body, alone_get_live after, Except.mapError, Except.map]
  · simp only [if_neg admitted] at body ⊢
    simp [serve, Service.handle, ArticleService.editArticle, check_ok (parseUuid_of_uuid named), check_ok masks,
      check_ok valid, Handler.repo, alone_map, alone_bind, alone_adapt, alone_get_live rows, liveArticle_state,
      liveArticle_accountId, editable, allowed, alone_activeAccount active, PgArticleRepo.edit, Db.get, Db.utcNow,
      Db.transaction, alone_transaction, alone_commit, reading_now, body, Except.mapError, Except.map]

/-- A live article is read with its current version. -/
theorem serve_getArticle {text : String} (clock : Timestamp) (other : Uuid) (named : service.parsers.uuid text = .ok id)
    (rows : LiveRows contents id article live version) :
    (serve service clock other (.getArticle ⟨text⟩) contents).result =
      .ok (.article (articleToProto (PgArticleRepo.liveArticle id article live version))) := by
  simp [serve, Service.handle, ArticleService.getArticle, check_ok (parseUuid_of_uuid named), Handler.repo, alone_map,
    alone_bind, alone_adapt, alone_get_live rows, Except.mapError, Except.map]

end Edits

/-! ## Events -/

section Events

variable {service : EventService} {subject : Subject} {request : RecordEventRequest} {record : EventRecord} {log : Database}

end Events

/-! ## Users -/

section Users

variable {service : RegistryService} {subject : Subject} {request : CreateUserRequest} {key : ProtoPublicKey}
  {displayName algo publicKey : String} {store : KeyStore} (answers : ℕ → (question : Question) → Answer question)

/-- Its key. -/
def newKey (userId keyId : Uuid) (algo publicKey : String) (createdAt : Timestamp) : KeyRow where
  parentId := userId
  keyId := keyId
  algo := algo
  publicKey := publicKey
  status := .active
  createdAt := createdAt.stored
  revokedAt := none

end Users

end Headlines.Soundness.Served
