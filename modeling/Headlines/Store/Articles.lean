import Headlines.Store.Db

/-! # `PgArticleRepo`

The article table family: an article row, its live or tombstone row, and its versions. Each operation
that writes is one transaction, whose body stands on its own; `edit` and `tombstone` read the article
again when the transaction is over.
-/

namespace Headlines.Store

open Core ReadCommitted

/-- The version row an edit adds on top of the current one. -/
def ArticleVersionRow.edited (current : ArticleVersionRow) (edit : ArticleEdit) (now : Timestamp) :
    ArticleVersionRow where
  title := edit.title.getD current.title
  authorName := nonEmpty ((edit.authorName.or current.authorName).getD "")
  authorUrl := nonEmpty ((edit.authorUrl.or current.authorUrl).getD "")
  content := some ((edit.content.or current.content).getD (.array []))
  redactedAt := none
  redactionReason := none
  createdAt := now.stored

/-- What a redaction makes of a version row. -/
def ArticleVersionRow.redacted (row : ArticleVersionRow) (now : Timestamp) (reason : String) :
    ArticleVersionRow :=
  { row with content := none, redactedAt := some now.stored, redactionReason := some reason }

namespace PgArticleRepo

/-- The part of a summary that comes from the version row. -/
def versionToSummaryPieces (version : Int32) (row : ArticleVersionRow) :
    Option Int32 × String × String × String × Bool :=
  (some version, row.title, row.authorName.getD "", row.authorUrl.getD "", row.redactedAt.isSome)

def liveArticle (id : Uuid) (article : ArticleRow) (live : ArticleLiveRow)
    (version : ArticleVersionRow) : Article :=
  let (currentVersion, title, authorName, authorUrl, redacted) :=
    versionToSummaryPieces live.currentVersion version
  { summary :=
      { id := id
        accountId := article.accountId
        state := .live
        createdAt := article.createdAt
        currentVersion := currentVersion
        title := some title
        authorName := some authorName
        authorUrl := some authorUrl
        redacted := redacted
        publishedAt := some live.publishedAt
        updatedAt := some live.updatedAt
        tombstoneReason := none
        tombstonedAt := none }
    content := version.content }

def tombstonedArticle (id : Uuid) (article : ArticleRow) (tomb : ArticleTombstoneRow) : Article where
  summary :=
    { id := id
      accountId := article.accountId
      state := .tombstone
      createdAt := article.createdAt
      currentVersion := none
      title := none
      authorName := none
      authorUrl := none
      redacted := false
      publishedAt := none
      updatedAt := none
      tombstoneReason := tomb.reason
      tombstonedAt := some tomb.tombstonedAt }
  content := none

def get (id : Uuid) : Db Article := do
  Db.get
  let article ← Db.optional (.article id) "select articles"
  let article ← Throwing.okOr article (.articleNotFound id)
  match article.state with
  | .live =>
      let live ← Db.first (.live id) "select articles_live for live article"
      let version ← Db.first (.version id live.currentVersion) "select current article_versions"
      return liveArticle id article live version
  | .tombstone =>
      let tomb ← Db.first (.tombstone id) "select articles_tombstone"
      return tombstonedArticle id article tomb

/-- The three rows of a new article; a draft's publication inserts the same ones. -/
def insertFamily (id accountId : Uuid) (title : String) (authorName authorUrl : Option String)
    (content : Json) (now : Timestamp) : Db Unit := do
  Db.insert (.article id) { accountId := accountId, state := .live, createdAt := now.stored }
    "insert articles"
  Db.insert (.live id) { currentVersion := 1, publishedAt := now.stored, updatedAt := now.stored }
    "insert articles_live"
  Db.insert (.version id 1)
    { title := title, authorName := authorName, authorUrl := authorUrl, content := some content,
      redactedAt := none, redactionReason := none, createdAt := now.stored }
    "insert article_versions"

def publish (new : NewArticle) : Db Article := do
  Db.get
  let now ← Db.utcNow
  Db.transaction (insertFamily new.id new.accountId new.title (nonEmpty new.authorName)
    (nonEmpty new.authorUrl) new.content now)
  get new.id

def editBody (id : Uuid) (edit : ArticleEdit) (now : Timestamp) : Db Unit := do
  let article ← Db.optional (.article id) "select articles"
  let article ← Throwing.okOr article (.articleNotFound id)
  Throwing.require (article.state != .tombstone) (.articleTombstoned id)
  let live ← Db.first (.live id) "select articles_live"
  let current ← Db.first (.version id live.currentVersion) "select current article_versions"
  -- `current_version + 1` on `i32`, which wraps in a release build.
  let nextVersion := live.currentVersion + 1
  Db.insert (.version id nextVersion) (current.edited edit now) "insert next article_versions"
  -- The number of rows this finds is not looked at.
  let _ ← Db.update (.live id)
    (fun row => { row with currentVersion := nextVersion, updatedAt := now.stored })
    "update articles_live"

def edit (id : Uuid) (edit : ArticleEdit) : Db Article := do
  Db.get
  let now ← Db.utcNow
  Db.transaction (editBody id edit now)
  get id

def tombstoneBody (id : Uuid) (reason : Option String) (now : Timestamp) : Db Unit := do
  let article ← Db.optional (.article id) "select articles"
  let article ← Throwing.okOr article (.articleNotFound id)
  Throwing.require (article.state != .tombstone) (.articleTombstoned id)
  let _ ← Db.update (.article id) (fun row => { row with state := .tombstone })
    "update articles.state"
  Db.insert (.tombstone id) { reason := reason, tombstonedAt := now.stored }
    "insert articles_tombstone"
  let _ ← Db.delete (.live id) "delete articles_live"

def tombstone (id : Uuid) (reason : Option String) : Db Article := do
  Db.get
  let now ← Db.utcNow
  Db.transaction (tombstoneBody id reason now)
  get id

/-- Bump the watermark of a live article whose current version was redacted. -/
def bumpLive (articleId : Uuid) (version : Int32) (now : Timestamp) : Db Unit := do
  let live ← Db.first (.live articleId) "select articles_live for redact bump"
  if live.currentVersion = version then
    let _ ← Db.update (.live articleId) (fun row => { row with updatedAt := now.stored })
      "bump articles_live.updated_at"
  else pure ()

def redactBody (articleId : Uuid) (version : Int32) (reason : String) (now : Timestamp) :
    Db Unit := do
  let article ← Db.optional (.article articleId) "select articles"
  let article ← Throwing.okOr article (.articleNotFound articleId)
  let row ← Db.optional (.version articleId version) "select article_versions"
  let row ← Throwing.okOr row (.versionNotFound articleId version)
  Throwing.require row.redactedAt.isNone (.versionAlreadyRedacted articleId version)
  let _ ← Db.update (.version articleId version) (fun row => row.redacted now reason)
    "redact article_versions"
  match article.state with
  | .live => bumpLive articleId version now
  | .tombstone => pure ()

def redactVersion (articleId : Uuid) (version : Int32) (reason : String) : Db Unit := do
  Db.get
  let now ← Db.utcNow
  Db.transaction (redactBody articleId version reason now)

end PgArticleRepo

end Headlines.Store
