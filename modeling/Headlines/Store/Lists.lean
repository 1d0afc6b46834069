import Headlines.Store.Database
import Headlines.Store.Paging

/-! # List operations

The paged reads of articles, drafts, follows, the follow feed and events. Each goes through the rows its
filters leave, a page at a time; a page of articles is then hydrated by further statements.
-/

namespace Headlines.Store

open Core ReadCommitted

structure ListPage (Item : Type) where
  items : List Item
  nextPageToken : PageToken

/-- A page that is read is a segment of the rows, between the keys its tokens stand for. -/
theorem PageQuery.segment_of_read {R Item : Type} {query : PageQuery R} {rows : List R} {make : R → Item}
    {codec : CursorCodec} (lawful : codec.Lawful) {limit : ℕ} (positive : 0 < limit) {token : PageToken}
    {snapshots : ℕ → Except Fault Contents} {page : ListPage Item}
    (distinct : (rows.map query.id).Nodup) (instants : ∀ row ∈ rows, Stored (query.time row))
    (issued : ∀ key, codec.cursor query.field token = .ok (some key) → Stored key.1)
    (succeeds : (query.page codec limit token rows >>= fun (rows, nextPageToken) =>
      pure ⟨rows.map make, nextPageToken⟩ : Db (ListPage Item)).run.onSnapshots snapshots = some (.ok page)) :
    ∃ lower upper kept, codec.cursor query.field token = .ok lower ∧
      Keyset.Segment query.place rows (lower.map query.direction.place) (upper.map query.direction.place) kept ∧
      page.items = kept.map make ∧ (page.nextPageToken.isEmpty ↔ upper = none) ∧
      (∀ key, codec.cursor query.field page.nextPageToken = .ok key → key = upper) ∧ ∀ key ∈ upper, Stored key.1 := by
  have returns : Throwing.Returns (fun page : ListPage Item => ∃ kept,
      query.IsPage codec token rows kept page.nextPageToken ∧ page.items = kept.map make)
      (query.page codec limit token rows >>= fun (rows, nextPageToken) => pure ⟨rows.map make, nextPageToken⟩) := by
    refine (PageQuery.page_returns _ _ _ _).bind ?_
    rintro ⟨kept, next⟩ ⟨cursor, found, same⟩
    exact .pure ⟨kept, ⟨_, positive, cursor, found, same⟩, rfl⟩
  obtain ⟨kept, isPage, items⟩ := returns.onSnapshots succeeds
  obtain ⟨lower, upper, decoded, segment, empty, next, stored⟩ := isPage.segment lawful distinct instants issued
  exact ⟨lower, upper, kept, decoded, segment, items, empty, next, stored⟩

/-- What a page read answers, by the rows after its cursor in their order. -/
theorem PageQuery.read_of_remaining {R Item : Type} {query : PageQuery R} {rows kept : List R} {make : R → Item}
    {codec : CursorCodec} {limit : ℕ} {token : PageToken} {cursor : Option SortKey}
    (decoded : codec.cursor query.field token = .ok cursor) (remaining : query.remaining cursor rows = kept)
    (sorted : (kept.map query.sortKey).Pairwise fun one other => query.direction.ordered one other) :
    (query.page codec limit token rows >>= fun (rows, nextPageToken) =>
      pure ⟨rows.map make, nextPageToken⟩ : Db (ListPage Item)).run.onSnapshots (fun _ => .ok fun _ => none) =
      some (.ok ⟨(Keyset.cut limit (kept.take (limit + 1))).1.map make,
        (Keyset.cut limit (kept.take (limit + 1))).2.elim .empty fun row =>
          codec.encodeCursor query.field (query.time row) (query.id row)⟩) := by
  have fetch : query.fetch cursor limit rows = kept.take (limit + 1) := by
    rw [PageQuery.fetch, remaining, PageQuery.sort]
    exact congrArg (List.take (limit + 1)) (List.mergeSort_of_pairwise (List.pairwise_map.mp sorted))
  rw [PageQuery.page, decoded, ← fetch]
  rfl

/-- Nothing or less asks for 50 rows; otherwise the size is clamped between 1 and 200. -/
def clampPageSize (raw : Int32) : Int32 :=
  if raw ≤ 0 then 50 else if raw < 1 then 1 else if 200 < raw then 200 else raw

theorem clampPageSize_pos (raw : Int32) : 0 < (clampPageSize raw).toInt.toNat := by
  unfold clampPageSize
  split
  · decide
  · split
    · decide
    · split
      · decide
      · rename_i positive _ _
        have : 0 < raw.toInt := Int32.lt_iff_toInt_lt.mp (Int32.not_le.mp positive)
        omega

namespace PgArticleRepo

def pageQuery : PageQuery (Uuid × ArticleRow) where
  context := "list articles"
  direction := .desc
  field := "c"
  time entry := entry.2.createdAt
  id := Prod.fst

/-- The articles of an account, the tombstoned ones only on request. -/
def listRows (database : Database) (accountId : Uuid) (includeTombstoned : Bool) : List (Uuid × ArticleRow) :=
  database.articles.filter fun entry =>
    decide (entry.2.accountId = accountId) && (includeTombstoned || decide (entry.2.state = .live))

def hydrate : List (Uuid × ArticleRow) → Db (List ArticleSummary)
  | [] => return []
  | (id, row) :: rest => do
      let summary ← listSummary id row
      let summaries ← hydrate rest
      return summary :: summaries

def listByAccount (codec : CursorCodec) (database : Database) (accountId : Uuid) (includeTombstoned : Bool)
    (pageSize : Int32) (pageToken : PageToken) : Db (ListPage ArticleSummary) := do
  let limit := (clampPageSize pageSize).toInt.toNat
  let (rows, nextPageToken) ←
    pageQuery.page codec limit pageToken (listRows database accountId includeTombstoned)
  let items ← hydrate rows
  return ⟨items, nextPageToken⟩

end PgArticleRepo

namespace PgDraftRepo

def pageQuery : PageQuery (Uuid × DraftRow) where
  context := "list drafts"
  direction := .desc
  field := "u"
  time entry := entry.2.updatedAt
  id := Prod.fst

/-- Drafts have bounds of their own: 20 rows by default, and at most 100. -/
def clampPageSize (raw : Int32) : Int32 := if raw ≤ 0 then 20 else if raw ≤ 100 then raw else 100

theorem clampPageSize_pos (raw : Int32) : 0 < (clampPageSize raw).toInt.toNat := by
  unfold clampPageSize
  split
  · decide
  · rename_i positive
    have : 0 < raw.toInt := Int32.lt_iff_toInt_lt.mp (Int32.not_le.mp positive)
    split
    · omega
    · decide

def listRows (database : Database) (accountId : Uuid) : List (Uuid × DraftRow) :=
  database.drafts.filter fun entry => decide (entry.2.accountId = accountId)

def summary (entry : Uuid × DraftRow) : DraftSummary where
  id := entry.1
  accountId := entry.2.accountId
  title := entry.2.title
  createdAt := entry.2.createdAt
  updatedAt := entry.2.updatedAt

def listByAccount (codec : CursorCodec) (database : Database) (accountId : Uuid) (pageSize : Int32)
    (pageToken : PageToken) : Db (ListPage DraftSummary) := do
  let limit := (clampPageSize pageSize).toInt.toNat
  let (rows, nextPageToken) ← pageQuery.page codec limit pageToken (listRows database accountId)
  return ⟨rows.map summary, nextPageToken⟩

end PgDraftRepo

namespace PgFollowRepo

/-- A user's follows break ties by account. -/
def userQuery : PageQuery FollowRow where
  context := "list follows by user"
  direction := .desc
  field := "c"
  time := FollowRow.createdAt
  id := FollowRow.accountId

/-- An account's follows break ties by user. -/
def accountQuery : PageQuery FollowRow where
  context := "list follows by account"
  direction := .desc
  field := "c"
  time := FollowRow.createdAt
  id := FollowRow.userId

def userRows (database : Database) (userId : Uuid) (includeUnfollowed : Bool) : List FollowRow :=
  database.follows.filter fun row =>
    decide (row.userId = userId) && (includeUnfollowed || decide (row.status = .active))

def accountRows (database : Database) (accountId : Uuid) (includeUnfollowed : Bool) : List FollowRow :=
  database.follows.filter fun row =>
    decide (row.accountId = accountId) && (includeUnfollowed || decide (row.status = .active))

def listByUser (codec : CursorCodec) (database : Database) (userId : Uuid) (includeUnfollowed : Bool)
    (pageSize : Int32) (pageToken : PageToken) : Db (ListPage Follow) := do
  let limit := (clampPageSize pageSize).toInt.toNat
  let (rows, nextPageToken) ← userQuery.page codec limit pageToken (userRows database userId includeUnfollowed)
  return ⟨rows.map FollowRow.intoDomain, nextPageToken⟩

def listByAccount (codec : CursorCodec) (database : Database) (accountId : Uuid) (includeUnfollowed : Bool)
    (pageSize : Int32) (pageToken : PageToken) : Db (ListPage Follow) := do
  let limit := (clampPageSize pageSize).toInt.toNat
  let (rows, nextPageToken) ←
    accountQuery.page codec limit pageToken (accountRows database accountId includeUnfollowed)
  return ⟨rows.map FollowRow.intoDomain, nextPageToken⟩

end PgFollowRepo

namespace PgFeedFollowRepo

def pageQuery : PageQuery JoinedFeedRow where
  context := "get feed_follow"
  direction := .desc
  field := "c"
  time := JoinedFeedRow.articleCreatedAt
  id := JoinedFeedRow.articleId

/-- The active follows of a user, joined with the articles of the accounts. -/
def feedRows (database : Database) (userId : Uuid) : List JoinedFeedRow :=
  (database.follows.filter fun follow => decide (follow.userId = userId) && decide (follow.status = .active)).flatMap
    fun follow => database.joined.filter fun row => decide (row.accountId = follow.accountId)

def get (codec : CursorCodec) (database : Database) (userId : Uuid) (pageSize : Int32) (pageToken : PageToken) :
    Db (ListPage FollowFeedItem) := do
  let limit := (clampPageSize pageSize).toInt.toNat
  let (rows, nextPageToken) ← pageQuery.page codec limit pageToken (feedRows database userId)
  return ⟨rows.map rowToFollowFeedItem, nextPageToken⟩

end PgFeedFollowRepo

namespace PgEventRepo

def pageQuery : PageQuery EventRow where
  context := "list events"
  direction := .asc
  field := "r"
  time := EventRow.receivedAt
  id := EventRow.id

/-- The clauses of a filter; a column that is `NULL` equals nothing. -/
def passes (filter : ListEventsFilter) (row : EventRow) : Bool :=
  (filter.userId.all fun userId => decide (row.userId = userId)) &&
  (filter.articleId.all fun articleId => decide (row.articleId = some articleId)) &&
  (filter.types.isEmpty || filter.types.any fun type => decide (row.type = type.value)) &&
  (filter.receivedAfter.all fun time => decide (time.stored ≤ row.receivedAt)) &&
  (filter.receivedBefore.all fun time => decide (row.receivedAt < time.stored))

def list (codec : CursorCodec) (database : Database) (filter : ListEventsFilter) (pageSize : Int32)
    (pageToken : PageToken) : Db (ListPage Event) := do
  let limit := (clampPageSize pageSize).toInt.toNat
  let (rows, nextPageToken) ←
    pageQuery.page codec limit pageToken (database.events.filter (passes filter))
  return ⟨rows.map EventRow.toEvent, nextPageToken⟩

end PgEventRepo

end Headlines.Store
