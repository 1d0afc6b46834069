import Headlines.Store.Lists

/-! # The account stream

One page of the joins of an account's articles with what is current of them, ordered by the time of the last
change and the id. A change moves the article's row to where its new time puts it.
-/

namespace Headlines.Store

open Core ReadCommitted

/-- The tables of the articles as a query finds them: the ids there are, in no particular order, and times as a
`timestamptz` column keeps them. -/
structure ArticleTables where
  contents : Contents
  ids : List Uuid
  distinct : ids.Nodup
  mem_ids : ∀ id, id ∈ ids ↔ (contents (.article id)).isSome
  live_stored : ∀ id live, contents (.live id) = some live → Stored live.updatedAt
  tombstone_stored : ∀ id tomb, contents (.tombstone id) = some tomb → Stored tomb.tombstonedAt

namespace PgAccountStreamRepo

def pageQuery : PageQuery AccountStreamRow where
  context := "stream account_stream"
  direction := .asc
  field := "e"
  time := AccountStreamRow.eventAt
  id := AccountStreamRow.articleId

/-- The joined rows of an account's articles. -/
def streamRows (tables : ArticleTables) (accountId : Uuid) : List AccountStreamRow :=
  (tables.ids.filterMap (row tables.contents)).filter fun row => decide (row.accountId = accountId)

def stream (codec : CursorCodec) (tables : ArticleTables) (accountId : Uuid) (pageSize : Int32)
    (pageToken : PageToken) : Db (ListPage AccountStreamItem) := do
  let limit := (clampPageSize pageSize).toInt.toNat
  let (rows, nextPageToken) ← pageQuery.page codec limit pageToken (streamRows tables accountId)
  return ⟨rows.map rowToItem, nextPageToken⟩

/-- What the joins find for an article. -/
theorem row_eq_some {contents : Contents} {id : Uuid} {found : AccountStreamRow} (joined : row contents id = some found) :
    found.articleId = id ∧ eventAt contents id = some found.eventAt ∧
      ∃ article, contents (.article id) = some article ∧ article.accountId = found.accountId := by
  obtain ⟨article, held, joined⟩ := Option.bind_eq_some_iff.mp joined
  obtain ⟨time, changed, joined⟩ := Option.bind_eq_some_iff.mp joined
  obtain rfl := Option.some.inj joined
  exact ⟨rfl, changed, article, held, rfl⟩

theorem rowToItem_id (row : AccountStreamRow) : (rowToItem row).article.id = row.articleId := by
  unfold rowToItem
  split <;> rfl

variable {tables : ArticleTables} {accountId : Uuid} {found : AccountStreamRow}

@[simp] theorem mem_streamRows : found ∈ streamRows tables accountId ↔
    row tables.contents found.articleId = some found ∧ found.accountId = accountId := by
  rw [streamRows, List.mem_filter, List.mem_filterMap, decide_eq_true_eq]
  refine and_congr_left fun _ => ⟨?_, fun joined => ?_⟩
  · rintro ⟨id, _, joined⟩
    rwa [(row_eq_some joined).1]
  · obtain ⟨_, _, article, held, _⟩ := row_eq_some joined
    exact ⟨_, (tables.mem_ids _).mpr (by rw [held]; rfl), joined⟩

theorem streamRows_nodup : ((streamRows tables accountId).map AccountStreamRow.articleId).Nodup := by
  refine List.Nodup.sublist (List.filter_sublist.map _) ?_
  exact nodup_filterMap tables.distinct fun _ _ joined => (row_eq_some joined).1

theorem streamRows_stored (member : found ∈ streamRows tables accountId) : Stored found.eventAt := by
  obtain ⟨_, changed, _⟩ := row_eq_some (mem_streamRows.mp member).1
  rcases Option.or_eq_some_iff.mp changed with live | ⟨_, tomb⟩
  · obtain ⟨current, held, same⟩ := Option.map_eq_some_iff.mp live
    exact same ▸ tables.live_stored _ current held
  · obtain ⟨row, held, same⟩ := Option.map_eq_some_iff.mp tomb
    exact same ▸ tables.tombstone_stored _ row held

/-- A page that is read is a segment of the joined rows, between the keys its tokens stand for. -/
theorem stream_segment {codec : CursorCodec} (lawful : codec.Lawful) {pageSize : Int32} {token : PageToken}
    {snapshots : ℕ → Except Fault Contents} {page : ListPage AccountStreamItem}
    (issued : ∀ key, codec.cursor "e" token = .ok (some key) → Stored key.1)
    (succeeds : (stream codec tables accountId pageSize token).run.onSnapshots snapshots = some (.ok page)) :
    ∃ lower upper kept, codec.cursor "e" token = .ok lower ∧
      Keyset.Segment pageQuery.place (streamRows tables accountId) (lower.map Direction.asc.place)
        (upper.map Direction.asc.place) kept ∧
      page.items = kept.map rowToItem ∧ (page.nextPageToken.isEmpty ↔ upper = none) ∧
      (∀ key, codec.cursor "e" page.nextPageToken = .ok key → key = upper) ∧ ∀ key ∈ upper, Stored key.1 :=
  PageQuery.segment_of_read lawful (clampPageSize_pos pageSize) streamRows_nodup (fun _ => streamRows_stored) issued
    succeeds

end PgAccountStreamRepo

end Headlines.Store
