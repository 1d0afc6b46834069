import Headlines.Store.Articles

/-! # Article summaries in lists

A page of articles is hydrated row by row; the feeds and the account stream join the tables and map each
joined row. `redacted` comes from `redacted_at` in the former and from `content IS NULL` in the latter.
-/

namespace Headlines.Store

open Core ReadCommitted

namespace PgArticleRepo

/-- The summary of one row of `list_by_account`. -/
def listSummary (id : Uuid) (row : ArticleRow) : Db ArticleSummary := do
  match row.state with
  | .live =>
      let live ← Db.first (.live id) "select articles_live in list"
      let version ← Db.first (.version id live.currentVersion) "select article_versions in list"
      return (liveArticle id row live version).summary
  | .tombstone =>
      let tomb ← Db.first (.tombstone id) "select articles_tombstone in list"
      return (tombstonedArticle id row tomb).summary

end PgArticleRepo

/-- A row of the joins behind both feeds, less the position in the recommendations. -/
structure JoinedFeedRow where
  articleId : Uuid
  accountId : Uuid
  state : ArticleState
  articleCreatedAt : Timestamp
  currentVersion : Int32
  publishedAt : Timestamp
  updatedAt : Timestamp
  title : String
  authorName : Option String
  authorUrl : Option String
  redacted : Bool

/-- An article joined with its live row and its current version. -/
def joinLive (contents : Contents) (id : Uuid) : Option JoinedFeedRow := do
  let article ← contents (.article id)
  let live ← contents (.live id)
  let version ← contents (.version id live.currentVersion)
  return {
    articleId := id
    accountId := article.accountId
    state := article.state
    articleCreatedAt := article.createdAt
    currentVersion := live.currentVersion
    publishedAt := live.publishedAt
    updatedAt := live.updatedAt
    title := version.title
    authorName := version.authorName
    authorUrl := version.authorUrl
    redacted := version.content.isNone }

/-- The summary both feeds make of a joined row. -/
def JoinedFeedRow.summary (row : JoinedFeedRow) : ArticleSummary where
  id := row.articleId
  accountId := row.accountId
  state := row.state
  createdAt := row.articleCreatedAt
  currentVersion := some row.currentVersion
  title := some row.title
  authorName := some (row.authorName.getD "")
  authorUrl := some (row.authorUrl.getD "")
  redacted := row.redacted
  publishedAt := some row.publishedAt
  updatedAt := some row.updatedAt
  tombstoneReason := none
  tombstonedAt := none

structure FollowFeedItem where
  article : ArticleSummary

structure FeedItem where
  position : Int32
  article : ArticleSummary

structure AccountStreamItem where
  article : ArticleSummary

namespace PgFeedFollowRepo

def rowToFollowFeedItem (row : JoinedFeedRow) : FollowFeedItem := ⟨row.summary⟩

/-- The item of the follow feed for an article of a followed account. -/
def item (contents : Contents) (id : Uuid) : Option FollowFeedItem :=
  (joinLive contents id).map rowToFollowFeedItem

end PgFeedFollowRepo

namespace PgFeedRecommendationRepo

def rowToFeedItem (position : Int32) (row : JoinedFeedRow) : FeedItem := ⟨position, row.summary⟩

/-- The item of the recommendation feed for an article at a position; the query asks for the state, too. -/
def item (contents : Contents) (position : Int32) (id : Uuid) : Option FeedItem :=
  ((joinLive contents id).filter fun row => row.state = .live).map (rowToFeedItem position)

end PgFeedRecommendationRepo

/-- A row of the stream's joins; the columns of a missing side are `NULL`. -/
structure AccountStreamRow where
  articleId : Uuid
  accountId : Uuid
  state : ArticleState
  articleCreatedAt : Timestamp
  eventAt : Timestamp
  currentVersion : Option Int32
  publishedAt : Option Timestamp
  updatedAt : Option Timestamp
  title : Option String
  authorName : Option String
  authorUrl : Option String
  redacted : Option Bool
  tombstoneReason : Option String
  tombstonedAt : Option Timestamp

namespace PgAccountStreamRepo

/-- `COALESCE(l.updated_at, t.tombstoned_at)`. -/
def eventAt (contents : Contents) (id : Uuid) : Option Timestamp :=
  ((contents (.live id)).map (·.updatedAt)).or ((contents (.tombstone id)).map (·.tombstonedAt))

/-- The joined row of an article; without an event time it could not be read. -/
def row (contents : Contents) (id : Uuid) : Option AccountStreamRow := do
  let article ← contents (.article id)
  let eventAt ← eventAt contents id
  let live := contents (.live id)
  let tomb := contents (.tombstone id)
  let version := live.bind fun live => contents (.version id live.currentVersion)
  return {
    articleId := id
    accountId := article.accountId
    state := article.state
    articleCreatedAt := article.createdAt
    eventAt := eventAt
    currentVersion := live.map (·.currentVersion)
    publishedAt := live.map (·.publishedAt)
    updatedAt := live.map (·.updatedAt)
    title := version.map (·.title)
    authorName := version.bind (·.authorName)
    authorUrl := version.bind (·.authorUrl)
    -- `IS NULL` is true of the missing version of a tombstone.
    redacted := some (version.bind (·.content)).isNone
    tombstoneReason := tomb.bind (·.reason)
    tombstonedAt := tomb.map (·.tombstonedAt) }

def rowToItem (row : AccountStreamRow) : AccountStreamItem where
  article :=
    match row.state with
    | .live =>
        { id := row.articleId
          accountId := row.accountId
          state := .live
          createdAt := row.articleCreatedAt
          currentVersion := row.currentVersion
          title := row.title
          authorName := some (row.authorName.getD "")
          authorUrl := some (row.authorUrl.getD "")
          redacted := row.redacted.getD false
          publishedAt := row.publishedAt
          updatedAt := row.updatedAt
          tombstoneReason := none
          tombstonedAt := none }
    | .tombstone =>
        { id := row.articleId
          accountId := row.accountId
          state := .tombstone
          createdAt := row.articleCreatedAt
          currentVersion := none
          title := none
          authorName := none
          authorUrl := none
          redacted := false
          publishedAt := none
          updatedAt := none
          tombstoneReason := row.tombstoneReason
          tombstonedAt := row.tombstonedAt }

/-- The item of the account stream for an article. -/
def item (contents : Contents) (id : Uuid) : Option AccountStreamItem :=
  (row contents id).map rowToItem

end PgAccountStreamRepo

end Headlines.Store
