import Headlines.Api.Codec
import Headlines.Articles.Verified
import Headlines.ReadCommitted.Alone

/-! # Publishing through a draft and publishing directly

The two ways to create an article, each run alone on the same tables. They insert the same three rows, which
depend on the identifier and the time only. `PublishArticle` answers with what it reads back,
`PublishDraft` with the values it has written, and the clock is finer than the columns: the instants it
answers with are those `GetArticle` reads when the clock stood at a whole microsecond.
-/

namespace Headlines.Soundness.DraftPublication

open Core ReadCommitted Store Api Articles
open Throwing (alone_bind alone_map alone_adapt alone_commit alone_transaction alone_insert alone_delete alone_selectForUpdate)

/-- What a call is told when it asks. -/
def reading (now : Timestamp) (id : Uuid) : ∀ question, Answer question
  | .now => now
  | .nowV7 => id

theorem reading_nowV7 (now : Timestamp) (id : Uuid) : reading now id .nowV7 = id := rfl

theorem reading_now (now : Timestamp) (id : Uuid) : reading now id .now = now := rfl

/-- A call that runs alone. -/
def serve (service : Service) (now : Timestamp) (id : Uuid) (request : Request) (contents : Contents) :
    Outcome Row (Except Status Response) :=
  (service.handle request).alone admits (reading now id) contents .none

/-- Where no row is locked, a new session comes to the outcome its call has alone. -/
theorem serve_reached {service : Service} {now : Timestamp} {fresh : Uuid} {initial : Contents → Prop} {s : State}
    {session : ℕ} (absent : s.sessions session = none) (unlocked : ∀ key, s.locks key = none) (request : Request) :
    service.system.Comes initial s ⟨session, request⟩ (serve service now fresh request s.ledger.contents) := by
  have step : service.system.next s (.begin session request) = some (s.move (s.ledger.begin ⟨session, request⟩)
      ⟨⟨session, request⟩, service.system.program request, .none, false⟩) := by
    simp [System.next, absent]
  refine System.Comes.step ?_ step
  refine System.run_alone (reading now fresh) ⟨by simp [State.running, State.move]; rfl, fun key => ?_⟩
  exact .inl (by simp [State.move, Pending.none, unlocked key])

/-- The fields of a request to publish, as a request for a draft. -/
def asDraft (request : PublishArticleRequest) : CreateDraftRequest where
  accountId := request.accountId
  title := request.title
  authorName := request.authorName
  authorUrl := request.authorUrl
  content := request.content

/-- The validators accept the fields of a request, and the caller may write drafts and articles. -/
structure Accepts (service : Service) (subject : Subject) (request : PublishArticleRequest) (new : NewArticle) : Prop where
  account : service.parsers.uuid request.accountId = .ok new.accountId
  title : Api.validateTitle request.title = .ok new.title
  authorName : validateAuthorName request.authorName = .ok new.authorName
  authorUrl : validateAuthorUrl service.parsers request.authorUrl = .ok new.authorUrl
  content : validateAndEncodeContent request.content service.contentMaxBytes = .ok new.content
  drafts : permitted subject new.accountId "drafts.write"
  articles : permitted subject new.accountId "articles.write"

/-- The account is there and active. -/
def Active (contents : Contents) (id : Uuid) : Prop := ∃ row, contents (.account id) = some row ∧ row.status = .active

/-- No row knows the identifier yet. -/
structure Unused (contents : Contents) (id : Uuid) : Prop where
  draft : contents (.draft id) = none
  article : contents (.article id) = none
  live : contents (.live id) = none
  version : contents (.version id 1) = none

/-- The columns can hold the fields: no U+0000. -/
def storable (new : NewArticle) : Bool :=
  storableText new.title && (nonEmpty new.authorName).all storableText && (nonEmpty new.authorUrl).all storableText &&
    storableJson new.content

/-- The rows of an article published at a time, over what is written before. -/
def family (pending : Pending) (new : NewArticle) (id : Uuid) (now : Timestamp) : Pending :=
  newFamily pending id { accountId := new.accountId, state := .live, createdAt := now.stored }
    { currentVersion := 1, publishedAt := now.stored, updatedAt := now.stored }
    { title := new.title, authorName := nonEmpty new.authorName, authorUrl := nonEmpty new.authorUrl,
      content := some new.content, redactedAt := none, redactionReason := none, createdAt := now.stored }

/-- What publishing the fields leaves: those rows, or nothing if the columns refuse the fields. -/
def written (new : NewArticle) (id : Uuid) (now : Timestamp) : Pending :=
  if storable new then family .none new id now else .none

variable {service : Service} {subject : Subject} {request : PublishArticleRequest} {new : NewArticle}
  {contents : Contents} {id : Uuid} {now : Timestamp}

theorem parseUuid_of_uuid {parsers : Parsers} {field raw : String} (named : parsers.uuid raw = .ok id) :
    parseUuid parsers field raw = .ok id := by
  rw [parseUuid, named]
  rfl

theorem check_ok {ρ : Type} {outcome : Except HeadlinesError ρ} {result : ρ} (passed : outcome = .ok result) :
    Handler.check outcome = pure result := by
  rw [passed]
  rfl

theorem alone_activeAccount {fresh : Uuid} (active : Active contents id) :
    (Handler.activeAccount id).alone admits (reading now fresh) contents .none = ⟨.ok (), contents, .none⟩ := by
  obtain ⟨row, found, status⟩ := active
  simp [Handler.activeAccount, Handler.repo, PgAccountRepo.get, Db.get, Db.optional, alone_bind, alone_adapt, found,
    AccountRow.intoDomain, status, Except.mapError]
  rfl

theorem alone_owned (now : Timestamp) (fresh : Uuid) {row : DraftRow} {scope : String} (found : contents (.draft id) = some row)
    (allowed : permitted subject row.accountId scope) :
    (DraftService.owned subject id scope).alone admits (reading now fresh) contents .none =
      ⟨.ok (row.intoDomain id), contents, .none⟩ := by
  simp [DraftService.owned, Handler.repo, PgDraftRepo.get, Db.get, Db.optional, alone_bind, alone_adapt, found,
    DraftRow.intoDomain, allowed, Except.mapError]

/-- A publication inserts its rows, and the constraints of the tables ask only what the columns can hold. -/
theorem alone_insertFamily (now : Timestamp) (fresh : Uuid) (pending : Pending)
    (active : Active (pending.view contents) new.accountId)
    (unused : ∀ key, key = .article id ∨ key = .live id ∨ key = .version id 1 → pending.view contents key = none) :
    (PgArticleRepo.insertFamily id new.accountId new.title (nonEmpty new.authorName) (nonEmpty new.authorUrl)
      new.content now).alone admits (reading now fresh) contents pending =
    if storable new then ⟨.ok (), contents, family pending new id now⟩
    else ⟨.error (Db.internal "insert article_versions" .constraint), contents, .none⟩ := by
  obtain ⟨row, found, _⟩ := active
  have article := unused (.article id) (by simp)
  have live := unused (.live id) (by simp)
  have version := unused (.version id 1) (by simp)
  simp only [PgArticleRepo.insertFamily, Db.insert, alone_bind]
  rw [alone_insert article, if_pos (by simp [admits, found])]
  dsimp only
  rw [alone_insert (by simpa using live), if_pos (by simp [admits])]
  dsimp only
  rw [alone_insert (by simpa using version)]
  simp [admits, storable, family, newFamily]

/-- The row of a draft with these fields. -/
def draftRow (new : NewArticle) (now : Timestamp) : DraftRow where
  accountId := new.accountId
  title := new.title
  authorName := nonEmpty new.authorName
  authorUrl := nonEmpty new.authorUrl
  content := new.content
  createdAt := now.stored
  updatedAt := now.stored

section Fields

variable {created : Timestamp}

@[simp] theorem draftRow_accountId : ((draftRow new created).intoDomain id).accountId = new.accountId := rfl

@[simp] theorem draftRow_title : ((draftRow new created).intoDomain id).title = new.title := rfl

@[simp] theorem draftRow_authorName : ((draftRow new created).intoDomain id).authorName = new.authorName :=
  getD_nonEmpty _

@[simp] theorem draftRow_authorUrl : ((draftRow new created).intoDomain id).authorUrl = new.authorUrl :=
  getD_nonEmpty _

@[simp] theorem draftRow_content : ((draftRow new created).intoDomain id).content = new.content := rfl

end Fields

/-- The fields, for the repository of drafts. -/
def newDraft (new : NewArticle) (id : Uuid) : NewDraft where
  id := id
  accountId := new.accountId
  title := new.title
  authorName := new.authorName
  authorUrl := new.authorUrl
  content := new.content

theorem alone_create (now : Timestamp) (fresh : Uuid) (active : Active contents new.accountId) (free : contents (.draft id) = none) :
    (PgDraftRepo.create (newDraft new id)).alone admits (reading now fresh) contents .none =
      if storable new then
        ⟨.ok ((draftRow new now).intoDomain id), (Pending.none.set (.draft id) (some (draftRow new now))).view contents, .none⟩
      else ⟨.error (Db.internal "insert drafts" .constraint), contents, .none⟩ := by
  obtain ⟨row, found, _⟩ := active
  have admitted : admits (Pending.none.view contents) (.draft id) (draftRow new now) = storable new := by
    simp [admits, storable, draftRow, found, Bool.and_assoc]
  have inserted : (Throwing.insert (.draft id) (draftRow new now) (Db.internal "insert drafts") : Db Unit).alone admits
      (reading now fresh) contents .none = _ := alone_insert ((Pending.view_none contents).symm ▸ free)
  rw [admitted] at inserted
  cases fits : storable new <;>
  · simp only [fits, draftRow, if_true, Bool.false_eq_true, if_false] at inserted ⊢
    simp only [PgDraftRepo.create, newDraft, Db.get, Db.utcNow, Db.execute, Db.insert, alone_bind, alone_commit,
      Throwing.alone_pure, Throwing.alone_ask, Throwing.alone_ping, reading_now, inserted]

/-- `CreateDraft` leaves the draft, if its columns can hold it. -/
theorem serve_createDraft (accepts : Accepts service subject request new) (active : Active contents new.accountId)
    (unused : Unused contents id) :
    (serve service now id (.createDraft subject (asDraft request)) contents).contents =
      if storable new then (Pending.none.set (.draft id) (some (draftRow new now))).view contents else contents := by
  have created := alone_create now id active unused.draft
  cases fits : storable new <;>
  · simp only [fits, newDraft, if_true, Bool.false_eq_true, if_false] at created ⊢
    simp only [serve, Service.handle, DraftService.createDraft, asDraft, check_ok (parseUuid_of_uuid accepts.account),
      check_ok accepts.title, check_ok accepts.authorName, check_ok accepts.authorUrl, check_ok accepts.content,
      Handler.repo, alone_map, alone_bind, alone_adapt, Throwing.alone_pure, Throwing.alone_ask, accepts.drafts,
      Throwing.alone_require, alone_activeAccount active, reading_nowV7, created, Except.mapError]

/-- The article as it is read from these rows. -/
def published (new : NewArticle) (id : Uuid) (now : Timestamp) : Article :=
  PgDraftRepo.publishedArticle id (draftRow new now) now.stored

theorem alone_get {fresh : Uuid} {clock : Timestamp} :
    (PgArticleRepo.get id).alone admits (reading clock fresh) ((family .none new id now).view contents) .none =
      ⟨.ok (published new id now), (family .none new id now).view contents, .none⟩ := by
  simp [PgArticleRepo.get, Db.get, Db.first, Db.optional, alone_bind, family, newFamily, published,
    PgArticleRepo.liveArticle, PgArticleRepo.versionToSummaryPieces, PgDraftRepo.publishedArticle, draftRow]

theorem serve_getArticle {text : String} {fresh : Uuid} {clock : Timestamp} (named : service.parsers.uuid text = .ok id) :
    (serve service clock fresh (.getArticle ⟨text⟩) ((family .none new id now).view contents)).result =
      .ok (.article (articleToProto (published new id now))) := by
  simp only [serve, Service.handle, ArticleService.getArticle, check_ok (parseUuid_of_uuid named), Handler.repo, alone_map,
    alone_bind, alone_adapt, Throwing.alone_pure, alone_get, Except.mapError, Except.map]

/-- `PublishArticle` leaves the rows, and answers with the article read from them. -/
theorem serve_publishArticle (now : Timestamp) (accepts : Accepts service subject request new) (active : Active contents new.accountId)
    (unused : Unused contents id) :
    (serve service now id (.publishArticle subject request) contents).contents = (written new id now).view contents ∧
      ∀ response, (serve service now id (.publishArticle subject request) contents).result = .ok response ↔
        storable new ∧ response = .article (articleToProto (published new id now)) := by
  have inserted := alone_insertFamily now id .none
    (by rwa [Pending.view_none]) (fun key about => by
      rw [Pending.view_none]
      rcases about with rfl | rfl | rfl
      · exact unused.article
      · exact unused.live
      · exact unused.version)
  cases fits : storable new <;>
  · simp only [fits, if_true, Bool.false_eq_true, if_false] at inserted
    simp [serve, Service.handle, ArticleService.publishArticle, check_ok (parseUuid_of_uuid accepts.account),
      check_ok accepts.title, check_ok accepts.authorName, check_ok accepts.authorUrl, check_ok accepts.content,
      Handler.repo, PgArticleRepo.publish, Db.get, Db.utcNow, Db.transaction, alone_map, alone_bind, alone_adapt,
      alone_transaction, alone_commit, accepts.articles, alone_activeAccount active, reading_nowV7, reading_now, inserted,
      written, fits, alone_get, Except.mapError, Except.map, eq_comm]

/-- The tables with the draft. -/
def drafted (new : NewArticle) (id : Uuid) (now : Timestamp) (contents : Contents) : Contents :=
  (Pending.none.set (.draft id) (some (draftRow new now))).view contents

/-- The rows of the article take the place of the draft. -/
theorem handed_over (unused : Unused contents id) {created : Timestamp} :
    ((family (Pending.none.set (.draft id) (some (draftRow new created))) new id now).set (.draft id) none).view
        (drafted new id created contents) = (family .none new id now).view contents := by
  funext key
  rcases eq_or_ne key (.draft id) with rfl | other
  · simp [family, newFamily, unused.draft]
  · rcases eq_or_ne key (.version id 1) with rfl | _
    · simp [family, newFamily]
    · rcases eq_or_ne key (.live id) with rfl | _
      · simp [family, newFamily]
      · rcases eq_or_ne key (.article id) with rfl | _
        · simp [family, newFamily]
        · simp [family, newFamily, drafted, *]

theorem alone_publish (now created : Timestamp) (fresh : Uuid) (active : Active contents new.accountId)
    (unused : Unused contents id) (fits : storable new) :
    (PgDraftRepo.publish id).alone admits (reading now fresh) (drafted new id created contents) .none =
      ⟨.ok (PgDraftRepo.publishedArticle id (draftRow new created) now), (family .none new id now).view contents, .none⟩ := by
  have held : Pending.none.view (drafted new id created contents) (.draft id) = some (draftRow new created) := by
    simp [drafted]
  have registered : Active ((Pending.none.set (.draft id) (some (draftRow new created))).view
      (drafted new id created contents)) new.accountId := by
    obtain ⟨row, found, status⟩ := active
    exact ⟨row, by simpa [drafted] using found, status⟩
  have inserted := alone_insertFamily now fresh _ registered (fun key about => by
      rcases about with rfl | rfl | rfl
      · simpa [drafted] using unused.article
      · simpa [drafted] using unused.live
      · simpa [drafted] using unused.version)
  simp only [fits, if_true] at inserted
  have written : (family (Pending.none.set (.draft id) (some (draftRow new created))) new id now).view
      (drafted new id created contents) (.draft id) = some (draftRow new created) := by
    simp [family, newFamily]
  have deleted : (Throwing.delete (.draft id) (Db.internal "delete drafts after publish") : Db ℕ).alone admits
      (reading now fresh) _ _ = _ := alone_delete written
  change (PgArticleRepo.insertFamily id (draftRow new created).accountId (draftRow new created).title
    (draftRow new created).authorName (draftRow new created).authorUrl (draftRow new created).content now).alone _ _ _ _ = _
    at inserted
  simp only [PgDraftRepo.publish, PgDraftRepo.publishBody, Db.get, Db.utcNow, Db.transaction, Db.forUpdate, Db.delete, alone_bind,
    alone_transaction, alone_commit, Throwing.alone_ping, Throwing.alone_ask, Throwing.alone_okOr_some, Throwing.alone_pure,
    alone_selectForUpdate held, reading_now, inserted, deleted, handed_over unused]

/-- `PublishDraft` leaves the same rows, and answers with the values it has written. -/
theorem serve_publishDraft {text : String} (now created : Timestamp) (fresh : Uuid) (named : service.parsers.uuid text = .ok id)
    (accepts : Accepts service subject request new) (active : Active contents new.accountId) (unused : Unused contents id) :
    let outcome := serve service now fresh (.publishDraft subject ⟨text⟩)
      (serve service created id (.createDraft subject (asDraft request)) contents).contents
    outcome.contents = (written new id now).view contents ∧ ∀ response, outcome.result = .ok response ↔
      storable new ∧ response = .article (articleToProto (PgDraftRepo.publishedArticle id (draftRow new created) now)) := by
  intro outcome
  simp only [outcome, serve_createDraft accepts active unused]
  cases fits : storable new with
  | false =>
    simp [serve, Service.handle, DraftService.publishDraft, DraftService.owned, check_ok (parseUuid_of_uuid named),
      Handler.repo, PgDraftRepo.get, Db.get, Db.optional, alone_map, alone_bind, alone_adapt, unused.draft, written, fits,
      Except.mapError, Except.map]
  | true =>
    have held : drafted new id created contents (.draft id) = some (draftRow new created) := by simp [drafted]
    have owned := alone_owned now fresh held accepts.articles
    have isActive : Active (drafted new id created contents) new.accountId := by
      obtain ⟨row, found, status⟩ := active
      exact ⟨row, by simpa [drafted] using found, status⟩
    have publishes := alone_publish now created fresh active unused fits
    simp only [drafted] at owned isActive publishes
    simp [serve, Service.handle, DraftService.publishDraft, check_ok (parseUuid_of_uuid named), alone_map, alone_bind,
      alone_adapt, owned, alone_activeAccount isActive, check_ok (validateTitle_again accepts.title),
      check_ok (validateAuthorName_again accepts.authorName), check_ok (validateAuthorUrl_again accepts.authorUrl),
      check_ok (validateAndEncodeContent_again accepts.content), Handler.repo, publishes, written, fits, Except.mapError,
      Except.map, eq_comm]

/-- The article a call answers with is the one `GetArticle` reads next. -/
def Agrees (service : Service) (text : String) (outcome : Outcome Row (Except Status Response)) : Prop :=
  ∀ article now fresh, outcome.result = .ok (.article article) →
    (serve service now fresh (.getArticle ⟨text⟩) outcome.contents).result = .ok (.article article)

/-- Publishing through a draft and publishing directly leave the same rows, up to the identifier and the time,
and no draft; and each answers with the article as it is stored. -/
structure Refines (service : Service) (new : NewArticle) (contents : Contents) (draftText articleText : String)
    (draftId articleId : Uuid) (draftTime articleTime : Timestamp)
    (viaDraft direct : Outcome Row (Except Status Response)) : Prop where
  draftRows : viaDraft.contents = (written new draftId draftTime).view contents
  articleRows : direct.contents = (written new articleId articleTime).view contents
  gone : viaDraft.contents (.draft draftId) = none
  draftAgrees : Agrees service draftText viaDraft
  articleAgrees : Agrees service articleText direct

theorem tsToProto_inj {left right : Timestamp} : tsToProto left = tsToProto right ↔ left = right := by
  refine ⟨fun same => ?_, congrArg _⟩
  simp only [tsToProto, ProtoTimestamp.mk.injEq] at same
  rw [← Int.mul_ediv_add_emod left 1000000000, ← Int.mul_ediv_add_emod right 1000000000, same.1, same.2]

/-- The instants an article was published at can be told from its message. -/
theorem articleToProto_published {row : DraftRow} {left right : Timestamp} :
    articleToProto (PgDraftRepo.publishedArticle id row left) = articleToProto (PgDraftRepo.publishedArticle id row right) ↔
      left = right := by
  refine ⟨fun same => ?_, fun same => by rw [same]⟩
  have created := congrArg ProtoArticle.createdAt same
  exact tsToProto_inj.mp (Option.some.inj created)

variable {draftText articleText : String} {draftId articleId fresh : Uuid} {created draftTime articleTime : Timestamp}

/-- For all fields the validators accept, the draft path refines the direct one exactly when `PublishDraft` reads
its clock at a whole microsecond, or the columns refuse the fields and there is nothing to publish. -/
theorem draft_publication (accepts : Accepts service subject request new) (active : Active contents new.accountId)
    (unusedDraft : Unused contents draftId) (unusedArticle : Unused contents articleId)
    (namedDraft : service.parsers.uuid draftText = .ok draftId)
    (namedArticle : service.parsers.uuid articleText = .ok articleId) :
    Refines service new contents draftText articleText draftId articleId draftTime articleTime
      (serve service draftTime fresh (.publishDraft subject ⟨draftText⟩)
        (serve service created draftId (.createDraft subject (asDraft request)) contents).contents)
      (serve service articleTime articleId (.publishArticle subject request) contents) ↔
    draftTime.stored = draftTime ∨ storable new = false := by
  obtain ⟨viaDraft, answers⟩ := serve_publishDraft draftTime created fresh namedDraft accepts active
    unusedDraft
  obtain ⟨direct, reads⟩ := serve_publishArticle articleTime accepts active unusedArticle
  constructor
  · intro refines
    cases fits : storable new with
    | false => exact .inr rfl
    | true =>
      have stored := refines.draftAgrees _ 0 fresh ((answers _).mpr ⟨fits, rfl⟩)
      rw [viaDraft, written, if_pos fits, serve_getArticle namedDraft] at stored
      have same := Response.article.inj (Except.ok.inj stored)
      exact .inl (articleToProto_published.mp same)
  · intro condition
    refine ⟨viaDraft, direct, ?_, fun article now other answered => ?_, fun article now other answered => ?_⟩
    · rw [viaDraft, written]
      split <;> simp [family, newFamily, unusedDraft.draft]
    · obtain ⟨fits, same⟩ := (answers _).mp answered
      have whole := condition.resolve_right (by simp [fits])
      rw [viaDraft, written, if_pos fits, serve_getArticle namedDraft, same]
      exact congrArg _ (congrArg _ (articleToProto_published.mpr whole))
    · obtain ⟨fits, same⟩ := (reads _).mp answered
      rw [direct, written, if_pos fits, serve_getArticle namedArticle, same]

section Sample

/-- The one article of the concrete runs, as a request and as its fields. -/
def sampleRequest : PublishArticleRequest :=
  { accountId := Sample.accountText, title := "t", authorName := "", authorUrl := "", content := [.text "x"] }

def sampleFields : NewArticle :=
  { id := Sample.article, accountId := Sample.account, title := "t", authorName := "", authorUrl := "",
    content := .array [.object [("text", .string "x")]] }

theorem sample_accepts : Accepts Sample.service Sample.author sampleRequest sampleFields := by
  constructor <;> rfl

theorem sample_active : Active Sample.registered Sample.account := ⟨_, rfl, rfl⟩

theorem sample_unused : Unused Sample.registered Sample.article := ⟨rfl, rfl, rfl, rfl⟩

/-- At a whole microsecond the two ways agree. -/
theorem draft_publication_whole :
    Refines Sample.service sampleFields Sample.registered Sample.articleText Sample.articleText Sample.article
      Sample.article 1000 2
      (serve Sample.service 1000 Sample.article (.publishDraft Sample.author ⟨Sample.articleText⟩)
        (serve Sample.service 0 Sample.article (.createDraft Sample.author (asDraft sampleRequest))
          Sample.registered).contents)
      (serve Sample.service 2 Sample.article (.publishArticle Sample.author sampleRequest) Sample.registered) :=
  (draft_publication sample_accepts sample_active sample_unused sample_unused rfl rfl).mpr (.inl (by decide))

/-- One nanosecond later `PublishDraft` answers with an instant that is not stored. -/
theorem draft_publication_differs : ∃ answered stored : ProtoArticle,
    (serve Sample.service 1001 Sample.article (.publishDraft Sample.author ⟨Sample.articleText⟩)
      (serve Sample.service 0 Sample.article (.createDraft Sample.author (asDraft sampleRequest))
        Sample.registered).contents).result = .ok (.article answered) ∧
    (serve Sample.service 0 Sample.article (.getArticle ⟨Sample.articleText⟩)
      (serve Sample.service 1001 Sample.article (.publishDraft Sample.author ⟨Sample.articleText⟩)
        (serve Sample.service 0 Sample.article (.createDraft Sample.author (asDraft sampleRequest))
          Sample.registered).contents).contents).result = .ok (.article stored) ∧
    answered ≠ stored := by
  have named : Sample.service.parsers.uuid Sample.articleText = .ok Sample.article := rfl
  obtain ⟨rows, answers⟩ := serve_publishDraft 1001 0 Sample.article named sample_accepts sample_active
    sample_unused
  have fits : storable sampleFields := by decide
  refine ⟨_, articleToProto (published sampleFields Sample.article 1001), (answers _).mpr ⟨fits, rfl⟩, ?_, fun same => ?_⟩
  · rw [rows, written, if_pos fits]
    exact serve_getArticle named
  · have whole := articleToProto_published.mp same
    revert whole
    decide

end Sample

end Headlines.Soundness.DraftPublication
