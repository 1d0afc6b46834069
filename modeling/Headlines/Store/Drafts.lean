import Headlines.Store.Articles

/-! # `PgDraftRepo`

Drafts change in place. Publishing one locks it, hands its fields to the article tables under the same
identifier, and deletes it, all in one transaction.
-/

namespace Headlines.Store

open Core ReadCommitted

def DraftRow.intoDomain (id : Uuid) (row : DraftRow) : Draft where
  id := id
  accountId := row.accountId
  title := row.title
  authorName := row.authorName.getD ""
  authorUrl := row.authorUrl.getD ""
  content := row.content
  createdAt := row.createdAt
  updatedAt := row.updatedAt

namespace PgDraftRepo

def create (new : NewDraft) : Db Draft := do
  Db.get
  let now ← Db.utcNow
  let row : DraftRow :=
    { accountId := new.accountId, title := new.title, authorName := nonEmpty new.authorName,
      authorUrl := nonEmpty new.authorUrl, content := new.content, createdAt := now.stored,
      updatedAt := now.stored }
  Db.execute "insert drafts" (Db.insert (.draft new.id) row "insert drafts")
  return row.intoDomain new.id

def get (id : Uuid) : Db Draft := do
  Db.get
  let row ← Db.optional (.draft id) "select drafts"
  let row ← Throwing.okOr row (.draftNotFound id)
  return row.intoDomain id

/-- One `UPDATE` of a draft, whose row count is not looked at. -/
def set (id : Uuid) (change : DraftRow → DraftRow) (context : String) : Db Unit := do
  let _ ← Db.update (.draft id) change context

def updateBody (id : Uuid) (update : DraftUpdate) (now : Timestamp) : Db DraftRow := do
  let existing ← Db.optional (.draft id) "select drafts for update"
  Throwing.require existing.isSome (.draftNotFound id)
  Throwing.whenSome update.title fun title =>
    set id (fun row => { row with title := title }) "update drafts.title"
  Throwing.whenSome update.authorName fun authorName =>
    set id (fun row => { row with authorName := nonEmpty authorName }) "update drafts.author_name"
  Throwing.whenSome update.authorUrl fun authorUrl =>
    set id (fun row => { row with authorUrl := nonEmpty authorUrl }) "update drafts.author_url"
  Throwing.whenSome update.content fun content =>
    set id (fun row => { row with content := content }) "update drafts.content"
  set id (fun row => { row with updatedAt := now.stored }) "update drafts.updated_at"
  Db.first (.draft id) "re-select drafts after update"

def update (id : Uuid) (update : DraftUpdate) : Db Draft := do
  Db.get
  let now ← Db.utcNow
  let row ← Db.transaction (updateBody id update now)
  return row.intoDomain id

def delete (id : Uuid) : Db Unit := do
  Db.get
  let n ← Db.execute "delete drafts" (Db.delete (.draft id) "delete drafts")
  Throwing.require (n != 0) (.draftNotFound id)

def publishBody (id : Uuid) (now : Timestamp) : Db DraftRow := do
  let row ← Db.forUpdate (.draft id) "select drafts for publish"
  let row ← Throwing.okOr row (.draftNotFound id)
  PgArticleRepo.insertFamily id row.accountId row.title row.authorName row.authorUrl row.content now
  let _ ← Db.delete (.draft id) "delete drafts after publish"
  return row

/-- The article as published, built from the values just written rather than read again. -/
def publishedArticle (id : Uuid) (row : DraftRow) (now : Timestamp) : Article where
  summary :=
    { id := id
      accountId := row.accountId
      state := .live
      createdAt := now
      currentVersion := some 1
      title := some row.title
      authorName := some (row.authorName.getD "")
      authorUrl := some (row.authorUrl.getD "")
      redacted := false
      publishedAt := some now
      updatedAt := some now
      tombstoneReason := none
      tombstonedAt := none }
  content := some row.content

def publish (id : Uuid) : Db Article := do
  Db.get
  let now ← Db.utcNow
  let row ← Db.transaction (publishBody id now)
  return publishedArticle id row now

end PgDraftRepo

end Headlines.Store
