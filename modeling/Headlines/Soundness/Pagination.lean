import Mathlib
import Headlines.Store.Lists

/-! # Keyset pagination

A walk calls a list operation again with each token it gets, until the token is empty; the tables may change
between its pages and while a page is hydrated. A row that every page finds with one sort key is returned once.
-/

namespace Headlines.Soundness.Pagination

open Core ReadCommitted Store

/-- The list operations with what they filter by. -/
inductive ListOperation where
  | articles (accountId : Uuid) (includeTombstoned : Bool)
  | drafts (accountId : Uuid)
  | followsByUser (userId : Uuid) (includeUnfollowed : Bool)
  | followsByAccount (accountId : Uuid) (includeUnfollowed : Bool)
  | feedFollow (userId : Uuid)
  | events (filter : ListEventsFilter)

/-- A page read: the tables its list statement goes through, and what each statement of the call finds. -/
structure PageRead where
  pageSize : Int32
  database : Database
  snapshots : ℕ → Except Fault Contents

namespace ListOperation

abbrev Item : ListOperation → Type
  | articles .. => ArticleSummary
  | drafts _ => DraftSummary
  | followsByUser .. | followsByAccount .. => Follow
  | feedFollow _ => FollowFeedItem
  | events _ => Event

def call (codec : CursorCodec) (database : Database) (pageSize : Int32) (pageToken : PageToken) :
    (op : ListOperation) → Db (ListPage op.Item)
  | articles accountId includeTombstoned =>
      PgArticleRepo.listByAccount codec database accountId includeTombstoned pageSize pageToken
  | drafts accountId => PgDraftRepo.listByAccount codec database accountId pageSize pageToken
  | followsByUser userId includeUnfollowed =>
      PgFollowRepo.listByUser codec database userId includeUnfollowed pageSize pageToken
  | followsByAccount accountId includeUnfollowed =>
      PgFollowRepo.listByAccount codec database accountId includeUnfollowed pageSize pageToken
  | feedFollow userId => PgFeedFollowRepo.get codec database userId pageSize pageToken
  | events filter => PgEventRepo.list codec database filter pageSize pageToken

/-- What a page read answers. -/
def read (op : ListOperation) (codec : CursorCodec) (pageRead : PageRead) (pageToken : PageToken) :
    Option (Except HeadlinesError (ListPage op.Item)) :=
  (op.call codec pageRead.database pageRead.pageSize pageToken).run.onSnapshots pageRead.snapshots

/-- The declared order: events are listed oldest first, all else newest first. -/
def direction : ListOperation → Direction
  | events _ => .asc
  | _ => .desc

/-- The time and the id an item is listed by. -/
def itemKey : (op : ListOperation) → op.Item → SortKey
  | articles .., item => (item.createdAt, item.id)
  | drafts _, item => (item.updatedAt, item.id)
  | followsByUser .., item => (item.createdAt, item.accountId)
  | followsByAccount .., item => (item.createdAt, item.userId)
  | feedFollow _, item => (item.article.createdAt, item.article.id)
  | events _, item => (item.receivedAt, item.id)

/-- The tables hold a row with a sort key that the filters let through. -/
def Lists (database : Database) (key : SortKey) : ListOperation → Prop
  | articles accountId includeTombstoned => ∃ row, database.contents (.article key.2) = some row ∧
      row.createdAt = key.1 ∧ row.accountId = accountId ∧ (row.state = .tombstone → includeTombstoned)
  | drafts accountId => ∃ row, database.contents (.draft key.2) = some row ∧
      row.updatedAt = key.1 ∧ row.accountId = accountId
  | followsByUser userId includeUnfollowed => ∃ row ∈ database.follows, row.userId = userId ∧
      row.accountId = key.2 ∧ row.createdAt = key.1 ∧ (row.status = .unfollowed → includeUnfollowed)
  | followsByAccount accountId includeUnfollowed => ∃ row ∈ database.follows, row.accountId = accountId ∧
      row.userId = key.2 ∧ row.createdAt = key.1 ∧ (row.status = .unfollowed → includeUnfollowed)
  | feedFollow userId => ∃ row live version follow, database.contents (.article key.2) = some row ∧
      row.createdAt = key.1 ∧ database.contents (.live key.2) = some live ∧
      database.contents (.version key.2 live.currentVersion) = some version ∧
      follow ∈ database.follows ∧ follow.userId = userId ∧ follow.accountId = row.accountId ∧
      follow.status = .active
  | events filter => ∃ row ∈ database.events, row.id = key.2 ∧ row.receivedAt = key.1 ∧
      (∀ userId ∈ filter.userId, row.userId = userId) ∧
      (∀ articleId ∈ filter.articleId, row.articleId = some articleId) ∧
      (filter.types ≠ [] → ∃ type ∈ filter.types, row.type = type.value) ∧
      (∀ time ∈ filter.receivedAfter, time.stored ≤ row.receivedAt) ∧
      (∀ time ∈ filter.receivedBefore, row.receivedAt < time.stored)

abbrev Row : ListOperation → Type
  | articles .. => Uuid × ArticleRow
  | drafts _ => Uuid × DraftRow
  | followsByUser .. | followsByAccount .. => FollowRow
  | feedFollow _ => JoinedFeedRow
  | events _ => EventRow

def query : (op : ListOperation) → PageQuery op.Row
  | articles .. => PgArticleRepo.pageQuery
  | drafts _ => PgDraftRepo.pageQuery
  | followsByUser .. => PgFollowRepo.userQuery
  | followsByAccount .. => PgFollowRepo.accountQuery
  | feedFollow _ => PgFeedFollowRepo.pageQuery
  | events _ => PgEventRepo.pageQuery

/-- The rows the filters let through. -/
def rows (database : Database) : (op : ListOperation) → List op.Row
  | articles accountId includeTombstoned => PgArticleRepo.listRows database accountId includeTombstoned
  | drafts accountId => PgDraftRepo.listRows database accountId
  | followsByUser userId includeUnfollowed => PgFollowRepo.userRows database userId includeUnfollowed
  | followsByAccount accountId includeUnfollowed => PgFollowRepo.accountRows database accountId includeUnfollowed
  | feedFollow userId => PgFeedFollowRepo.feedRows database userId
  | events filter => database.events.filter (PgEventRepo.passes filter)

theorem query_direction (op : ListOperation) : op.query.direction = op.direction := by
  cases op <;> rfl

variable {database : Database}

/-- Follows that agree on one id differ on the other. -/
theorem follows_pairwise {keep : FollowRow → Bool} : (database.follows.filter keep).Pairwise fun one other =>
    ¬(one.userId = other.userId ∧ one.accountId = other.accountId) := by
  refine (List.Pairwise.imp ?_ (List.pairwise_map.mp database.follows_nodup)).filter keep
  exact fun differ same => differ (Prod.ext same.1 same.2)

theorem feedRows_nodup (userId : Uuid) :
    ((PgFeedFollowRepo.feedRows database userId).map JoinedFeedRow.articleId).Nodup := by
  rw [PgFeedFollowRepo.feedRows, List.map_flatMap, List.nodup_flatMap]
  constructor
  · intro follow _
    exact Database.joined_ids.sublist (List.filter_sublist.map _)
  · refine follows_pairwise.imp_of_mem fun {one other} first second differ id inFirst inSecond => differ ?_
    obtain ⟨row, inOne, rfl⟩ := List.mem_map.mp inFirst
    obtain ⟨other, inOther, same⟩ := List.mem_map.mp inSecond
    simp only [List.mem_filter, Database.mem_joined, Bool.and_eq_true, decide_eq_true_eq] at first second inOne inOther
    rw [same, inOne.1] at inOther
    obtain ⟨rfl, account⟩ := And.imp_left Option.some.inj inOther
    exact ⟨first.2.1.trans second.2.1.symm, inOne.2.symm.trans account⟩

/-- Within one list no two rows have the same id. -/
theorem rows_nodup (op : ListOperation) : ((op.rows database).map op.query.id).Nodup := by
  cases op with
  | articles => exact Database.articles_ids.sublist (List.filter_sublist.map _)
  | drafts => exact Database.drafts_ids.sublist (List.filter_sublist.map _)
  | followsByUser =>
    refine List.pairwise_map.mpr (follows_pairwise.imp_of_mem fun first second differ same => differ ⟨?_, same⟩)
    have left := (List.mem_filter.mp first).2
    have right := (List.mem_filter.mp second).2
    simp only [Bool.and_eq_true, decide_eq_true_eq] at left right
    exact left.1.trans right.1.symm
  | followsByAccount =>
    refine List.pairwise_map.mpr (follows_pairwise.imp_of_mem fun first second differ same => differ ⟨same, ?_⟩)
    have left := (List.mem_filter.mp first).2
    have right := (List.mem_filter.mp second).2
    simp only [Bool.and_eq_true, decide_eq_true_eq] at left right
    exact left.1.trans right.1.symm
  | feedFollow userId => exact feedRows_nodup userId
  | events => exact database.events_nodup.sublist (List.filter_sublist.map _)

theorem rows_stored (op : ListOperation) {row : op.Row} (found : row ∈ op.rows database) :
    Stored (op.query.time row) := by
  cases op with
  | articles => exact database.article_stored _ _ (Database.mem_articles.mp (List.mem_filter.mp found).1)
  | drafts => exact database.draft_stored _ _ (Database.mem_drafts.mp (List.mem_filter.mp found).1)
  | followsByUser => exact database.follow_stored _ (List.mem_filter.mp found).1
  | followsByAccount => exact database.follow_stored _ (List.mem_filter.mp found).1
  | feedFollow =>
    obtain ⟨follow, _, inFeed⟩ := List.mem_flatMap.mp found
    have joined := Database.mem_joined.mp (List.mem_filter.mp inFeed).1
    obtain ⟨_, article, inTable, _, created⟩ := joinLive_eq_some joined
    change Stored row.articleCreatedAt
    rw [created]
    exact database.article_stored _ _ inTable
  | events => exact database.event_stored _ (List.mem_filter.mp found).1

theorem active_or {status : FollowStatus} {includeUnfollowed : Bool} :
    includeUnfollowed = true ∨ status = .active ↔ (status = .unfollowed → includeUnfollowed) := by
  cases status <;> simp

theorem live_or {state : ArticleState} {includeTombstoned : Bool} :
    includeTombstoned = true ∨ state = .live ↔ (state = .tombstone → includeTombstoned) := by
  cases state <;> simp

/-- The rows are what the list is declared to list. -/
theorem lists_iff (op : ListOperation) {key : SortKey} :
    op.Lists database key ↔ ∃ row ∈ op.rows database, op.query.sortKey row = key := by
  obtain ⟨time, id⟩ := key
  cases op with
  | articles accountId includeTombstoned =>
    simp only [Lists, rows, query, PgArticleRepo.listRows, PgArticleRepo.pageQuery, PageQuery.sortKey,
      List.mem_filter, Database.mem_articles, Bool.and_eq_true, Bool.or_eq_true, decide_eq_true_eq, Prod.exists,
      Prod.mk.injEq]
    constructor
    · rintro ⟨row, found, rfl, owned, state⟩
      exact ⟨id, row, ⟨found, owned, live_or.mpr state⟩, rfl, rfl⟩
    · rintro ⟨_, row, ⟨found, owned, state⟩, rfl, rfl⟩
      exact ⟨row, found, rfl, owned, live_or.mp state⟩
  | drafts accountId =>
    simp only [Lists, rows, query, PgDraftRepo.listRows, PgDraftRepo.pageQuery, PageQuery.sortKey,
      List.mem_filter, Database.mem_drafts, decide_eq_true_eq, Prod.exists, Prod.mk.injEq]
    constructor
    · rintro ⟨row, found, rfl, owned⟩
      exact ⟨id, row, ⟨found, owned⟩, rfl, rfl⟩
    · rintro ⟨_, row, ⟨found, owned⟩, rfl, rfl⟩
      exact ⟨row, found, rfl, owned⟩
  | followsByUser userId includeUnfollowed =>
    simp only [Lists, rows, query, PgFollowRepo.userRows, PgFollowRepo.userQuery, PageQuery.sortKey,
      List.mem_filter, Bool.and_eq_true, Bool.or_eq_true, decide_eq_true_eq, Prod.mk.injEq]
    constructor
    · rintro ⟨row, found, owned, rfl, rfl, status⟩
      exact ⟨row, ⟨found, owned, active_or.mpr status⟩, rfl, rfl⟩
    · rintro ⟨row, ⟨found, owned, status⟩, rfl, rfl⟩
      exact ⟨row, found, owned, rfl, rfl, active_or.mp status⟩
  | followsByAccount accountId includeUnfollowed =>
    simp only [Lists, rows, query, PgFollowRepo.accountRows, PgFollowRepo.accountQuery, PageQuery.sortKey,
      List.mem_filter, Bool.and_eq_true, Bool.or_eq_true, decide_eq_true_eq, Prod.mk.injEq]
    constructor
    · rintro ⟨row, found, owned, rfl, rfl, status⟩
      exact ⟨row, ⟨found, owned, active_or.mpr status⟩, rfl, rfl⟩
    · rintro ⟨row, ⟨found, owned, status⟩, rfl, rfl⟩
      exact ⟨row, found, owned, rfl, rfl, active_or.mp status⟩
  | feedFollow userId =>
    simp only [Lists, rows, query, PgFeedFollowRepo.feedRows, PgFeedFollowRepo.pageQuery, PageQuery.sortKey,
      List.mem_flatMap, List.mem_filter, Database.mem_joined, Bool.and_eq_true, decide_eq_true_eq, Prod.mk.injEq]
    constructor
    · rintro ⟨row, live, version, follow, article, rfl, current, content, inTable, user, account, active⟩
      obtain ⟨joined, found⟩ := Option.isSome_iff_exists.mp
        (isSome_joinLive.mpr ⟨row, live, version, article, current, content⟩)
      obtain ⟨rfl, same, inArticles, owner, created⟩ := joinLive_eq_some found
      obtain rfl := Option.some.inj (inArticles.symm.trans article)
      exact ⟨joined, ⟨follow, ⟨inTable, user, active⟩, found, owner.trans account.symm⟩, created, rfl⟩
    · rintro ⟨joined, ⟨follow, ⟨inTable, user, active⟩, found, owner⟩, rfl, rfl⟩
      obtain ⟨row, live, version, article, current, content⟩ :=
        isSome_joinLive.mp (Option.isSome_iff_exists.mpr ⟨joined, found⟩)
      obtain ⟨_, same, inArticles, account, created⟩ := joinLive_eq_some found
      obtain rfl := Option.some.inj (inArticles.symm.trans article)
      exact ⟨same, live, version, follow, article, created.symm, current, content, inTable, user,
        owner.symm.trans account, active⟩
  | events filter =>
    simp only [Lists, rows, query, PgEventRepo.passes, PgEventRepo.pageQuery, PageQuery.sortKey,
      List.mem_filter, Bool.and_eq_true, Bool.or_eq_true, decide_eq_true_eq, Prod.mk.injEq, Option.all_eq_true,
      List.any_eq_true, List.isEmpty_iff]
    constructor
    · rintro ⟨row, found, rfl, rfl, user, article, types, after, before⟩
      exact ⟨row, ⟨found, ⟨⟨⟨user, article⟩, Classical.or_iff_not_imp_left.mpr types⟩, after⟩, before⟩, rfl, rfl⟩
    · rintro ⟨row, ⟨found, ⟨⟨⟨user, article⟩, types⟩, after⟩, before⟩, rfl, rfl⟩
      exact ⟨row, found, rfl, rfl, user, article, Classical.or_iff_not_imp_left.mp types, after, before⟩

theorem hydrate_returns (rows : List (Uuid × ArticleRow)) :
    Throwing.Returns (fun summaries : List ArticleSummary =>
      summaries.map (fun summary => (summary.createdAt, summary.id)) = rows.map PgArticleRepo.pageQuery.sortKey)
      (PgArticleRepo.hydrate rows) := by
  induction rows with
  | nil => exact .pure rfl
  | cons entry rest ih =>
    obtain ⟨id, row⟩ := entry
    have summary : Throwing.Returns (fun summary : ArticleSummary =>
        (summary.createdAt, summary.id) = (row.createdAt, id)) (PgArticleRepo.listSummary id row) := by
      have first (key : Key) (context : String) : Throwing.Returns (fun _ => True) (Db.first key context) :=
        (Throwing.Returns.select key _).bind fun row _ => .okOr row _
      unfold PgArticleRepo.listSummary
      cases row.state with
      | live => exact (first _ _).bind fun _ _ => (first _ _).bind fun _ _ => .pure rfl
      | tombstone => exact (first _ _).bind fun _ _ => .pure rfl
    refine summary.bind fun summary same => ih.bind fun summaries rest => .pure ?_
    rw [List.map_cons, List.map_cons, same, rest]
    rfl

/-- A successful page holds the items of a page of rows. -/
theorem call_returns (op : ListOperation) (codec : CursorCodec) (database : Database) (pageSize : Int32)
    (token : PageToken) :
    Throwing.Returns (fun page : ListPage op.Item => ∃ kept,
      op.query.IsPage codec token (op.rows database) kept page.nextPageToken ∧
        page.items.map op.itemKey = kept.map op.query.sortKey)
      (op.call codec database pageSize token) := by
  have positive := clampPageSize_pos pageSize
  cases op with
  | articles =>
    refine (PageQuery.page_returns _ _ _ _).bind ?_
    rintro ⟨kept, next⟩ ⟨cursor, found, same⟩
    refine (hydrate_returns kept).bind fun summaries keys => .pure ?_
    exact ⟨kept, ⟨_, positive, cursor, found, same⟩, keys⟩
  | drafts =>
    refine (PageQuery.page_returns _ _ _ _).bind ?_
    rintro ⟨kept, next⟩ ⟨cursor, found, same⟩
    exact .pure ⟨kept, ⟨_, PgDraftRepo.clampPageSize_pos pageSize, cursor, found, same⟩, List.map_map⟩
  | followsByUser | followsByAccount | feedFollow | events =>
    refine (PageQuery.page_returns _ _ _ _).bind ?_
    rintro ⟨kept, next⟩ ⟨cursor, found, same⟩
    exact .pure ⟨kept, ⟨_, positive, cursor, found, same⟩, List.map_map⟩

end ListOperation

/-- Page reads that succeed, each with the token of the one before, up to an empty token. -/
inductive Walk (op : ListOperation) (codec : CursorCodec) : PageToken → List (PageRead × ListPage op.Item) → Prop
  | last {token : PageToken} {pageRead : PageRead} {page : ListPage op.Item}
      (succeeds : op.read codec pageRead token = some (.ok page)) (exhausted : page.nextPageToken.isEmpty) :
      Walk op codec token [(pageRead, page)]
  | more {token : PageToken} {pageRead : PageRead} {page : ListPage op.Item}
      {visits : List (PageRead × ListPage op.Item)}
      (succeeds : op.read codec pageRead token = some (.ok page)) (goesOn : page.nextPageToken.isEmpty = false)
      (rest : Walk op codec page.nextPageToken visits) : Walk op codec token ((pageRead, page) :: visits)

variable {op : ListOperation} {codec : CursorCodec} {token : PageToken}

/-- A page read that succeeds, between the keys its tokens stand for. -/
theorem read_segment (lawful : codec.Lawful) {pageRead : PageRead} {page : ListPage op.Item}
    (issued : ∀ key, codec.cursor op.query.field token = .ok (some key) → Stored key.1)
    (succeeds : op.read codec pageRead token = some (.ok page)) :
    ∃ lower upper kept, codec.cursor op.query.field token = .ok lower ∧
      Keyset.Segment op.query.place (op.rows pageRead.database) (lower.map op.query.direction.place)
        (upper.map op.query.direction.place) kept ∧
      page.items.map op.itemKey = kept.map op.query.sortKey ∧
      (page.nextPageToken.isEmpty ↔ upper = none) ∧
      (∀ key, codec.cursor op.query.field page.nextPageToken = .ok key → key = upper) ∧
      ∀ key ∈ upper, Stored key.1 := by
  obtain ⟨kept, isPage, keys⟩ := (op.call_returns codec _ _ token).onSnapshots succeeds
  obtain ⟨lower, upper, decoded, segment, empty, next, stored⟩ :=
    isPage.segment lawful op.rows_nodup (fun _ => op.rows_stored) issued
  exact ⟨lower, upper, kept, decoded, segment, keys, empty, next, stored⟩

/-- All that a walk returns. -/
def items (visits : List (PageRead × ListPage op.Item)) : List op.Item := visits.flatMap fun visit => visit.2.items

/-- A walk along the tokens is a walk along the keys they stand for. -/
theorem Walk.keyset {visits : List (PageRead × ListPage op.Item)} (lawful : codec.Lawful)
    (walk : Walk op codec token visits)
    (issued : ∀ key, codec.cursor op.query.field token = .ok (some key) → Stored key.1) :
    ∃ lower pages, codec.cursor op.query.field token = .ok lower ∧
      Keyset.Walk op.query.place (lower.map op.query.direction.place) pages ∧
      (items visits).map op.itemKey = (Keyset.Walk.items pages).map op.query.sortKey ∧
      ∀ page ∈ pages, ∃ visit ∈ visits, page.rows = op.rows visit.1.database := by
  induction walk with
  | @last token pageRead page succeeds exhausted =>
    obtain ⟨lower, upper, kept, decoded, segment, keys, empty, _, _⟩ := read_segment lawful issued succeeds
    obtain rfl := empty.mp exhausted
    let only : Keyset.Page op.Row op.query.direction.Order :=
      ⟨op.rows pageRead.database, lower.map op.query.direction.place, none, kept⟩
    have walk : Keyset.Walk op.query.place only.lower [only] := .last segment rfl
    refine ⟨lower, [only], decoded, walk, ?_, ?_⟩
    · simpa [items] using keys
    · rintro _ (_ | ⟨_, ⟨⟩⟩)
      exact ⟨_, List.mem_cons_self, rfl⟩
  | @more token pageRead page visits succeeds goesOn rest ih =>
    obtain ⟨lower, upper, kept, decoded, segment, keys, empty, next, stored⟩ :=
      read_segment lawful issued succeeds
    obtain ⟨cursor, pages, following, walk, restKeys, tables⟩ := ih fun key read => stored key (next _ read ▸ rfl)
    obtain rfl := next _ following
    obtain ⟨key, bounded⟩ : ∃ key, cursor = some key := by
      refine Option.ne_none_iff_exists'.mp fun blank => ?_
      rw [empty.mpr blank] at goesOn
      contradiction
    subst bounded
    let first : Keyset.Page op.Row op.query.direction.Order :=
      ⟨op.rows pageRead.database, lower.map op.query.direction.place, some (op.query.direction.place key), kept⟩
    have whole : Keyset.Walk op.query.place first.lower (first :: pages) := .more segment rfl walk
    refine ⟨lower, first :: pages, decoded, whole, ?_, ?_⟩
    · rw [Keyset.Walk.items_cons, List.map_append, ← restKeys, ← keys]
      exact List.map_append
    · intro table found
      rcases List.mem_cons.mp found with rfl | later
      · exact ⟨_, List.mem_cons_self, rfl⟩
      · obtain ⟨visit, inVisits, same⟩ := tables table later
        exact ⟨visit, List.mem_cons_of_mem _ inVisits, same⟩

theorem cursor_empty (field : String) : codec.cursor field .empty = .ok none := rfl

/-- A walk from the start goes along the keys from the start. -/
theorem Walk.keyset_empty {visits : List (PageRead × ListPage op.Item)} (lawful : codec.Lawful)
    (walk : Walk op codec .empty visits) :
    ∃ pages, Keyset.Walk op.query.place none pages ∧
      (items visits).map op.itemKey = (Keyset.Walk.items pages).map op.query.sortKey ∧
      ∀ page ∈ pages, ∃ visit ∈ visits, page.rows = op.rows visit.1.database := by
  obtain ⟨lower, pages, start, keyset, keys, tables⟩ := walk.keyset lawful nofun
  obtain rfl := Except.ok.inj (start.symm.trans (cursor_empty _))
  exact ⟨pages, keyset, keys, tables⟩

theorem Walk.ordered {visits : List (PageRead × ListPage op.Item)} (lawful : codec.Lawful)
    (walk : Walk op codec .empty visits) :
    ((items visits).map fun item => op.direction.place (op.itemKey item)).Pairwise (· < ·) := by
  obtain ⟨pages, keyset, keys, _⟩ := walk.keyset_empty lawful
  have ordered := keyset.sorted.1
  have same : (Keyset.Walk.items pages).map op.query.place =
      ((items visits).map op.itemKey).map op.query.direction.place := by
    rw [keys, List.map_map]
    rfl
  rw [same, op.query_direction, List.map_map] at ordered
  exact ordered

/-- A key that every page finds in its table is returned by one item, the only one with that id. -/
theorem Walk.once {visits : List (PageRead × ListPage op.Item)} (lawful : codec.Lawful)
    (walk : Walk op codec .empty visits) {key : SortKey}
    (stays : ∀ visit ∈ visits, op.Lists visit.1.database key) :
    key ∈ (items visits).map op.itemKey ∧ ((items visits).map fun item => (op.itemKey item).2).count key.2 = 1 := by
  obtain ⟨pages, keyset, keys, tables⟩ := walk.keyset_empty lawful
  have stable : ∀ page ∈ pages, ∃ row ∈ page.rows, op.query.sortKey row = key := by
    intro page found
    obtain ⟨visit, inVisits, same⟩ := tables page found
    rw [same]
    exact op.lists_iff.mp (stays visit inVisits)
  have counted : ((Keyset.Walk.items pages).map op.query.sortKey).count key = 1 := by
    rw [← List.count_map_of_injective _ _ op.query.direction.place_injective, List.map_map]
    refine keyset.count_eq_one (Keyset.after_none _) fun page found => ?_
    obtain ⟨row, inTable, same⟩ := stable page found
    exact ⟨row, inTable, congrArg _ same⟩
  -- Within a table the key's id belongs to one row.
  have named : ∀ row ∈ Keyset.Walk.items pages, op.query.id row = key.2 → op.query.sortKey row = key := by
    intro row found same
    obtain ⟨page, inPages, inTable⟩ := keyset.of_mem_items found
    obtain ⟨other, present, rfl⟩ := stable page inPages
    obtain ⟨visit, _, table⟩ := tables page inPages
    rw [table] at inTable present
    rw [List.inj_on_of_nodup_map op.rows_nodup inTable present same]
  constructor
  · rw [keys]
    exact List.count_pos_iff.mp (counted ▸ Nat.one_pos)
  · have ids : (items visits).map (fun item => (op.itemKey item).2) =
        (Keyset.Walk.items pages).map op.query.id := by
      have second := congrArg (List.map Prod.snd) keys
      rwa [List.map_map, List.map_map] at second
    rw [ids, ← counted, List.count, List.count, List.countP_map, List.countP_map]
    refine List.countP_congr fun row found => ?_
    simp only [Function.comp_apply, beq_iff_eq]
    exact ⟨named row found, fun same => congrArg Prod.snd same⟩

/-- Page reads of one database come to an empty token: each leaves less of it. -/
theorem finishes {database : Database} (lawful : codec.Lawful) (reads : ℕ → PageRead)
    (pages : ℕ → ListPage op.Item) (tokens : ℕ → PageToken) (same : ∀ n, (reads n).database = database)
    (start : tokens 0 = .empty) (follow : ∀ n, tokens (n + 1) = (pages n).nextPageToken)
    (succeeds : ∀ n, (∀ m < n, (pages m).nextPageToken.isEmpty = false) →
      op.read codec (reads n) (tokens n) = some (.ok (pages n))) :
    ∃ n, (pages n).nextPageToken.isEmpty := by
  by_contra never
  have goesOn (n : ℕ) : (pages n).nextPageToken.isEmpty = false :=
    Bool.eq_false_iff.mpr fun exhausted => never ⟨n, exhausted⟩
  let left (cursor : Option SortKey) : ℕ :=
    ((op.rows database).filter fun row =>
      Keyset.After (cursor.map op.query.direction.place) (op.query.place row)).length
  have shrinks (n : ℕ) : ∃ cursor, (∀ key, codec.cursor op.query.field (tokens n) = .ok key → key = cursor) ∧
      (∀ key ∈ cursor, Stored key.1) ∧ left cursor + n ≤ left none := by
    induction n with
    | zero => exact ⟨none, fun key read => (Except.ok.inj ((start ▸ read : _ = _).symm.trans (cursor_empty _))), nofun, le_rfl⟩
    | succ n ih =>
      obtain ⟨cursor, stands, stored, fewer⟩ := ih
      obtain ⟨lower, upper, kept, decoded, segment, _, empty, next, further⟩ :=
        read_segment lawful (fun key read => stored key (stands _ read ▸ rfl)) (succeeds n fun m _ => goesOn m)
      obtain rfl := stands _ decoded
      obtain ⟨key, rfl⟩ : ∃ key, upper = some key := by
        refine Option.ne_none_iff_exists'.mp fun blank => ?_
        have nonempty := goesOn n
        rw [empty.mpr blank] at nonempty
        contradiction
      rw [same] at segment
      refine ⟨some key, follow n ▸ next, further, ?_⟩
      have progress : left (some key) < left lower := segment.progress
      omega
  obtain ⟨cursor, _, _, fewer⟩ := shrinks (left none + 1)
  omega

/-- Whatever happens to the tables between and during the page reads, a walk returns its rows in the declared
order, and exactly once each row that stays listed under one key; over one database every walk ends. -/
theorem pages_cover (lawful : codec.Lawful) (op : ListOperation) :
    (∀ visits, Walk op codec .empty visits →
      ((items visits).map fun item => op.direction.place (op.itemKey item)).Pairwise (· < ·) ∧
      ∀ key, (∀ visit ∈ visits, op.Lists visit.1.database key) → key ∈ (items visits).map op.itemKey ∧
        ((items visits).map fun item => (op.itemKey item).2).count key.2 = 1) ∧
    ∀ (database : Database) (reads : ℕ → PageRead) (pages : ℕ → ListPage op.Item) (tokens : ℕ → PageToken),
      (∀ n, (reads n).database = database) → tokens 0 = .empty → (∀ n, tokens (n + 1) = (pages n).nextPageToken) →
      (∀ n, (∀ m < n, (pages m).nextPageToken.isEmpty = false) →
        op.read codec (reads n) (tokens n) = some (.ok (pages n))) →
      ∃ n, (pages n).nextPageToken.isEmpty := by
  constructor
  · intro visits walk
    exact ⟨walk.ordered lawful, fun key stays => walk.once lawful stays⟩
  · intro database reads pages tokens same start follow succeeds
    exact finishes lawful reads pages tokens same start follow succeeds

/-- Two events received at the same time. -/
def tiedEvent (id : Uuid) : EventRow where
  id := id
  userId := ⟨7⟩
  articleId := none
  type := "read"
  occurredAt := 0
  receivedAt := 0
  surface := "web"
  properties := .null

def tied : Database where
  __ := Database.empty
  events := [tiedEvent ⟨1⟩, tiedEvent ⟨2⟩]
  events_nodup := by decide
  event_stored row found := by
    obtain rfl | rfl : row = tiedEvent ⟨1⟩ ∨ row = tiedEvent ⟨2⟩ := by simpa using found
    all_goals rfl

def tiedJson : List UInt8 :=
  bytes "\x7b\"r\":\"1970-01-01T00:00:00+00:00\",\"i\":\"00000000-0000-0000-0000-000000000001\"\x7d"

def tiedToken : String :=
  "eyJyIjoiMTk3MC0wMS0wMVQwMDowMDowMCswMDowMCIsImkiOiIwMDAwMDAwMC0wMDAwLTAwMDAtMDAwMC0wMDAwMDAwMDAwMDEifQ"

/-- What the token of the first of them goes through; nothing else is read back. -/
def tiedCodec : CursorCodec where
  encode bytes := if bytes = tiedJson then tiedToken else "e30"
  decode token := if token = tiedToken then .ok tiedJson else .error "Invalid padding"
  toVec field time id :=
    if (field, time, id) = ("r", "1970-01-01T00:00:00+00:00", ⟨1⟩) then tiedJson else bytes "\x7b\x7d"
  fromSlice field json :=
    if field = "r" ∧ json = tiedJson then .ok ("1970-01-01T00:00:00+00:00", ⟨1⟩) else .error "missing field"
  toRfc3339 time := if time = 0 then "1970-01-01T00:00:00+00:00" else ""
  parseFromRfc3339 text := if text = "1970-01-01T00:00:00+00:00" then .ok 0 else .error "premature end of input"

theorem tiedJson_ne : bytes "\x7b\x7d" ≠ tiedJson := by decide +kernel

theorem tiedCodec_lawful : tiedCodec.Lawful where
  decode_encode {bytes decoded} read := by
    by_cases same : bytes = tiedJson
    · simp only [tiedCodec, same, ↓reduceIte, Except.ok.injEq] at read
      rw [same, read]
    · simp [tiedCodec, same, tiedToken] at read
  encode_isEmpty {bytes} blank := by
    by_cases same : bytes = tiedJson
    · simp [tiedCodec, same, tiedToken] at blank
    · simp [tiedCodec, same] at blank
  fromSlice_toVec {field time id read} found := by
    by_cases same : (field, time, id) = ("r", "1970-01-01T00:00:00+00:00", ⟨1⟩)
    · obtain ⟨rfl, rfl, rfl⟩ : field = "r" ∧ time = "1970-01-01T00:00:00+00:00" ∧ id = ⟨1⟩ := by simpa using same
      simp only [tiedCodec, ↓reduceIte, and_self, Except.ok.injEq] at found
      exact found.symm
    · simp only [tiedCodec, same, ↓reduceIte, tiedJson_ne, and_false] at found
      contradiction
  toVec_ne_nil field time id := by
    by_cases same : (field, time, id) = ("r", "1970-01-01T00:00:00+00:00", ⟨1⟩)
    · simp only [tiedCodec, same, ↓reduceIte]
      decide +kernel
    · simp only [tiedCodec, same, ↓reduceIte]
      decide +kernel
  parse_toRfc3339 {time parsed} found := by
    by_cases zero : time = 0
    · simp only [tiedCodec, zero, ↓reduceIte, Except.ok.injEq] at found
      rw [zero, found]
    · simp [tiedCodec, zero] at found

def everything : ListEventsFilter := ⟨none, none, [], none, none⟩

def tiedRead : PageRead := ⟨1, tied, fun _ => .ok fun _ => none⟩

def tiedPage (id : Uuid) (token : PageToken) : ListPage Event := ⟨[(tiedEvent id).toEvent], token⟩

/-- What a page read of the two events answers, by the rows its statement returns. -/
theorem tied_read {token : PageToken} {cursor : Option SortKey} {kept : List EventRow}
    (decoded : tiedCodec.cursor "r" token = .ok cursor)
    (remaining : PgEventRepo.pageQuery.remaining cursor tied.events = kept)
    (sorted : kept.Pairwise fun one other => PgEventRepo.pageQuery.direction.ordered
      (PgEventRepo.pageQuery.sortKey one) (PgEventRepo.pageQuery.sortKey other)) :
    ListOperation.read (.events everything) tiedCodec tiedRead token =
      some (.ok ⟨(Keyset.cut 1 (kept.take 2)).1.map EventRow.toEvent, (Keyset.cut 1 (kept.take 2)).2.elim .empty
        fun row => tiedCodec.encodeCursor "r" row.receivedAt row.id⟩) := by
  exact PageQuery.read_of_remaining decoded (by rw [← remaining]; rfl) (List.pairwise_map.mpr sorted)

/-- The tie is split between two pages of one event. -/
theorem tied_walk : Walk (.events everything) tiedCodec .empty
    [(tiedRead, tiedPage ⟨1⟩ ⟨tiedToken⟩), (tiedRead, tiedPage ⟨2⟩ .empty)] := by
  have start : tiedCodec.cursor "r" .empty = .ok none := cursor_empty _
  have resumed : tiedCodec.cursor "r" ⟨tiedToken⟩ = .ok (some (0, ⟨1⟩)) := rfl
  exact .more (tied_read start rfl (by decide)) (by decide) (.last (tied_read resumed rfl (by decide)) (by decide))

theorem pages_cover_tied :
    [(⟨0, ⟨1⟩⟩ : SortKey), ⟨0, ⟨2⟩⟩].Pairwise (fun one other => Direction.asc.place one < Direction.asc.place other) ∧
      [(⟨1⟩ : Uuid), ⟨2⟩].count ⟨2⟩ = 1 := by
  have covered := (pages_cover tiedCodec_lawful (.events everything)).1 _ tied_walk
  refine ⟨covered.1, (covered.2 ⟨0, ⟨2⟩⟩ ?_).2⟩
  have listed : ListOperation.Lists tied ⟨0, ⟨2⟩⟩ (.events everything) :=
    (ListOperation.lists_iff _).mpr ⟨tiedEvent ⟨2⟩, List.mem_cons_of_mem _ List.mem_cons_self, rfl⟩
  rintro visit (_ | ⟨_, _ | ⟨_, ⟨⟩⟩⟩)
  · exact listed
  · exact listed

end Headlines.Soundness.Pagination
