import Headlines.Core.Repo
import Headlines.ReadCommitted.Program

/-! # Tables

The tables the article, draft and account repositories touch, with their primary keys, and the
constraints the schema puts on a row: the checks, the foreign keys, and what `text` and `jsonb` can
hold.
-/

namespace Headlines.Store

open Core

inductive Key where
  | account (id : Uuid)
  | article (id : Uuid)
  | live (articleId : Uuid)
  | tombstone (articleId : Uuid)
  | version (articleId : Uuid) (version : Int32)
  | draft (id : Uuid)
deriving DecidableEq

structure AccountRow where
  shortName : String
  authorName : String
  authorUrl : Option String
  status : AccountStatus
  deletedAt : Option Timestamp
  createdAt : Timestamp
  updatedAt : Timestamp

structure ArticleRow where
  accountId : Uuid
  state : ArticleState
  createdAt : Timestamp

structure ArticleLiveRow where
  currentVersion : Int32
  publishedAt : Timestamp
  updatedAt : Timestamp

structure ArticleTombstoneRow where
  reason : Option String
  tombstonedAt : Timestamp

structure ArticleVersionRow where
  title : String
  authorName : Option String
  authorUrl : Option String
  content : Option Json
  redactedAt : Option Timestamp
  redactionReason : Option String
  createdAt : Timestamp

structure DraftRow where
  accountId : Uuid
  title : String
  authorName : Option String
  authorUrl : Option String
  content : Json
  createdAt : Timestamp
  updatedAt : Timestamp

/-- The columns of a row besides its primary key. -/
abbrev Row : Key → Type
  | .account _ => AccountRow
  | .article _ => ArticleRow
  | .live _ => ArticleLiveRow
  | .tombstone _ => ArticleTombstoneRow
  | .version .. => ArticleVersionRow
  | .draft _ => DraftRow

abbrev Contents := ReadCommitted.Contents Row

/-- The constraints of the schema. -/
def admits (contents : Contents) : (key : Key) → Row key → Bool
  | .account _, row => storableText row.shortName && storableText row.authorName &&
      row.authorUrl.all storableText
  | .article _, row => (contents (.account row.accountId)).isSome
  | .live articleId, row => (contents (.article articleId)).isSome && decide (1 ≤ row.currentVersion)
  | .tombstone articleId, row => (contents (.article articleId)).isSome && row.reason.all storableText
  | .version articleId version, row => (contents (.article articleId)).isSome &&
      decide (1 ≤ version) && storableText row.title && row.authorName.all storableText &&
      row.authorUrl.all storableText && row.content.all storableJson &&
      row.redactionReason.all storableText
  | .draft _, row => (contents (.account row.accountId)).isSome && storableText row.title &&
      row.authorName.all storableText && row.authorUrl.all storableText && storableJson row.content

theorem one_le_of_admits {contents : Contents} {articleId : Uuid} {version : Int32}
    {row : ArticleVersionRow} (admitted : admits contents (.version articleId version) row) :
    1 ≤ version := by
  simp only [admits, Bool.and_eq_true, decide_eq_true_eq] at admitted
  exact admitted.1.1.1.1.1.2

end Headlines.Store
