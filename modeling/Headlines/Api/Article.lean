import Headlines.Api.Service
import Headlines.Store.Articles

/-! # `ArticleServiceImpl`

The handlers of the article service. Each validates its request, authorizes the caller against the
owning account and hands a decision to the repository.
-/

namespace Headlines.Api

open Core ReadCommitted Store

structure PublishArticleRequest where
  accountId : String
  title : String
  authorName : String
  authorUrl : String
  content : List Node

structure GetArticleRequest where
  id : String

structure ProtoArticleEdit where
  title : String
  authorName : String
  authorUrl : String
  content : List Node

structure EditArticleRequest where
  id : String
  edit : Option ProtoArticleEdit
  updateMask : Option (List String)

/-- The edit of a request; a missing message has empty fields. -/
def EditArticleRequest.fields (request : EditArticleRequest) : ProtoArticleEdit :=
  request.edit.getD { title := "", authorName := "", authorUrl := "", content := [] }

structure TombstoneArticleRequest where
  id : String
  reason : String

structure RedactArticleVersionRequest where
  articleId : String
  version : Int32
  redactionReason : String

namespace ArticleService

variable (service : Service)

def publishArticle (subject : Subject) (request : PublishArticleRequest) : Handler ProtoArticle := do
  let accountId ← Handler.check (parseUuid service.parsers "account_id" request.accountId)
  Throwing.require (permitted subject accountId "articles.write")
    (.permissionDenied "not permitted on this account")
  let title ← Handler.check (validateTitle request.title)
  let authorName ← Handler.check (validateAuthorName request.authorName)
  let authorUrl ← Handler.check (validateAuthorUrl service.parsers request.authorUrl)
  let content ← Handler.check (validateAndEncodeContent request.content service.contentMaxBytes)
  Handler.activeAccount accountId
  let id ← Throwing.ask Question.nowV7
  let article ← Handler.repo (PgArticleRepo.publish
    { id := id, accountId := accountId, title := title, authorName := authorName,
      authorUrl := authorUrl, content := content })
  return articleToProto article

def getArticle (request : GetArticleRequest) : Handler ProtoArticle := do
  let id ← Handler.check (parseUuid service.parsers "id" request.id)
  let article ← Handler.repo (PgArticleRepo.get id)
  return articleToProto article

/-- The masked fields of an edit, validated in the order of the source. -/
def articleEdit (paths : List String) (edit : ProtoArticleEdit) :
    Except HeadlinesError ArticleEdit := do
  let title ← masked paths "title" (validateTitle edit.title)
  let authorName ← masked paths "author_name" (validateAuthorName edit.authorName)
  let authorUrl ← masked paths "author_url" (validateAuthorUrl service.parsers edit.authorUrl)
  let content ← masked paths "content"
    (validateAndEncodeContent edit.content service.contentMaxBytes)
  return { title := title, authorName := authorName, authorUrl := authorUrl, content := content }

theorem articleEdit_content {paths : List String} {fields : ProtoArticleEdit} {built : ArticleEdit}
    (holds : articleEdit service paths fields = .ok built) :
    masked paths "content" (validateAndEncodeContent fields.content service.contentMaxBytes) =
      .ok built.content := by
  unfold articleEdit at holds
  obtain ⟨title, _, holds⟩ := Except.bind_eq_ok.mp holds
  obtain ⟨authorName, _, holds⟩ := Except.bind_eq_ok.mp holds
  obtain ⟨authorUrl, _, holds⟩ := Except.bind_eq_ok.mp holds
  obtain ⟨content, encoded, holds⟩ := Except.bind_eq_ok.mp holds
  obtain rfl := Except.ok.inj holds
  exact encoded

def editArticle (subject : Subject) (request : EditArticleRequest) : Handler ProtoArticle := do
  let id ← Handler.check (parseUuid service.parsers "id" request.id)
  let paths ← Handler.check (maskPaths request.updateMask)
  let existing ← Handler.repo (PgArticleRepo.get id)
  Throwing.require (existing.summary.state != .tombstone) (.domain (.articleTombstoned id))
  let owner := existing.summary.accountId
  Throwing.require (permitted subject owner "articles.write")
    (.permissionDenied "not permitted on this article")
  Handler.activeAccount owner
  let edit ← Handler.check (articleEdit service paths request.fields)
  let updated ← Handler.repo (PgArticleRepo.edit id edit)
  return articleToProto updated

def tombstoneArticle (subject : Subject) (request : TombstoneArticleRequest) :
    Handler ProtoArticle := do
  let id ← Handler.check (parseUuid service.parsers "id" request.id)
  let reason ← Handler.check (validateTombstoneReason request.reason)
  let existing ← Handler.repo (PgArticleRepo.get id)
  Throwing.require (existing.summary.state != .tombstone) (.domain (.articleTombstoned id))
  Throwing.require (permitted subject existing.summary.accountId "articles.tombstone")
    (.permissionDenied "not permitted on this article")
  let tombstoned ← Handler.repo (PgArticleRepo.tombstone id reason)
  return articleToProto tombstoned

/-- The scope `articles.redact` is checked before the handler runs. -/
def redactArticleVersion (request : RedactArticleVersionRequest) : Handler Unit := do
  let articleId ← Handler.check (parseUuid service.parsers "article_id" request.articleId)
  Throwing.require (0 < request.version) (.domain (.invalidArgument "version" "must be > 0"))
  let reason ← Handler.check (validateRedactionReason request.redactionReason)
  Handler.repo (PgArticleRepo.redactVersion articleId request.version reason)

end ArticleService

end Headlines.Api
