import Headlines.Store.Summaries

/-! # Tables as a query finds them

What list queries go through: the rows of the tables with their ids, as finite lists in no particular order,
with the primary keys of the schema and times as a `timestamptz` column keeps them.
-/

namespace Headlines.Core

inductive FollowStatus where
  | active
  | unfollowed
deriving DecidableEq, Repr

structure Follow where
  userId : Uuid
  accountId : Uuid
  status : FollowStatus
  createdAt : Timestamp
  unfollowedAt : Option Timestamp

structure DraftSummary where
  id : Uuid
  accountId : Uuid
  title : String
  createdAt : Timestamp
  updatedAt : Timestamp

structure EventType where
  value : String
deriving DecidableEq, Repr

structure Event where
  id : Uuid
  userId : Uuid
  articleId : Option Uuid
  type : EventType
  occurredAt : Timestamp
  receivedAt : Timestamp
  surface : String
  properties : Json

structure ListEventsFilter where
  userId : Option Uuid
  articleId : Option Uuid
  types : List EventType
  receivedAfter : Option Timestamp
  receivedBefore : Option Timestamp

end Headlines.Core

namespace Headlines.Store

open Core

structure FollowRow where
  userId : Uuid
  accountId : Uuid
  status : FollowStatus
  createdAt : Timestamp
  unfollowedAt : Option Timestamp

def FollowRow.intoDomain (row : FollowRow) : Follow where
  userId := row.userId
  accountId := row.accountId
  status := row.status
  createdAt := row.createdAt
  unfollowedAt := row.unfollowedAt

structure EventRow where
  id : Uuid
  userId : Uuid
  articleId : Option Uuid
  type : String
  occurredAt : Timestamp
  receivedAt : Timestamp
  surface : String
  properties : Json

def EventRow.toEvent (row : EventRow) : Event where
  id := row.id
  userId := row.userId
  articleId := row.articleId
  type := ⟨row.type⟩
  occurredAt := row.occurredAt
  receivedAt := row.receivedAt
  surface := row.surface
  properties := row.properties

/-- A time as a `timestamptz` column keeps it. -/
def Stored (time : Timestamp) : Prop := time.stored = time

structure Database where
  contents : Contents
  articleIds : List Uuid
  draftIds : List Uuid
  follows : List FollowRow
  events : List EventRow
  articles_nodup : articleIds.Nodup
  mem_articleIds : ∀ id, id ∈ articleIds ↔ (contents (.article id)).isSome
  article_stored : ∀ id row, contents (.article id) = some row → Stored row.createdAt
  drafts_nodup : draftIds.Nodup
  mem_draftIds : ∀ id, id ∈ draftIds ↔ (contents (.draft id)).isSome
  draft_stored : ∀ id row, contents (.draft id) = some row → Stored row.updatedAt
  follows_nodup : (follows.map fun row => (row.userId, row.accountId)).Nodup
  follow_stored : ∀ row ∈ follows, Stored row.createdAt
  events_nodup : (events.map EventRow.id).Nodup
  event_stored : ∀ row ∈ events, Stored row.receivedAt

private theorem nodup_no_edges : ([] : List (Uuid × Uuid)).Nodup := .nil

/-- A database without rows. -/
def Database.empty : Database where
  contents _ := none
  articleIds := []
  draftIds := []
  follows := []
  events := []
  articles_nodup := .nil
  mem_articleIds _ := by simp
  article_stored := nofun
  drafts_nodup := .nil
  mem_draftIds _ := by simp
  draft_stored := nofun
  follows_nodup := nodup_no_edges
  follow_stored := nofun
  events_nodup := .nil
  event_stored := nofun

/-- The rows there are for ids, with their ids. -/
def withIds {R : Type} (ids : List Uuid) (row : Uuid → Option R) : List (Uuid × R) :=
  ids.filterMap fun id => (row id).map (id, ·)

theorem mem_withIds {R : Type} {ids : List Uuid} {row : Uuid → Option R}
    (complete : ∀ id, id ∈ ids ↔ (row id).isSome) {entry : Uuid × R} :
    entry ∈ withIds ids row ↔ row entry.1 = some entry.2 := by
  obtain ⟨id, value⟩ := entry
  simp only [withIds, List.mem_filterMap, Option.map_eq_some_iff, Prod.mk.injEq]
  constructor
  · rintro ⟨_, _, _, found, rfl, rfl⟩
    exact found
  · intro found
    exact ⟨id, (complete id).mpr (by rw [found]; rfl), value, found, rfl, rfl⟩

/-- Rows made of ids keep the ids apart. -/
theorem nodup_filterMap {R : Type} {ids : List Uuid} {row : Uuid → Option R} {id : R → Uuid}
    (distinct : ids.Nodup) (named : ∀ i r, row i = some r → id r = i) :
    ((ids.filterMap row).map id).Nodup := by
  refine distinct.sublist ?_
  clear distinct
  induction ids with
  | nil => exact List.Sublist.refl _
  | cons i ids ih =>
    cases found : row i with
    | none =>
      rw [List.filterMap_cons_none found]
      exact ih.cons i
    | some r =>
      rw [List.filterMap_cons_some found, List.map_cons, named i r found]
      exact ih.cons_cons i

/-- What the join finds for an article. -/
theorem joinLive_eq_some {contents : Contents} {id : Uuid} {joined : JoinedFeedRow}
    (found : joinLive contents id = some joined) :
    joined.articleId = id ∧ ∃ row, contents (.article id) = some row ∧ joined.accountId = row.accountId ∧
      joined.articleCreatedAt = row.createdAt := by
  obtain ⟨row, article, found⟩ := Option.bind_eq_some_iff.mp found
  obtain ⟨live, _, found⟩ := Option.bind_eq_some_iff.mp found
  obtain ⟨version, _, found⟩ := Option.bind_eq_some_iff.mp found
  obtain rfl := Option.some.inj found
  exact ⟨rfl, row, article, rfl, rfl⟩

/-- The join finds an article with a live row and the version it names. -/
theorem isSome_joinLive {contents : Contents} {id : Uuid} : (joinLive contents id).isSome ↔
    ∃ row live version, contents (.article id) = some row ∧ contents (.live id) = some live ∧
      contents (.version id live.currentVersion) = some version := by
  constructor
  · intro found
    obtain ⟨joined, found⟩ := Option.isSome_iff_exists.mp found
    obtain ⟨row, article, found⟩ := Option.bind_eq_some_iff.mp found
    obtain ⟨live, current, found⟩ := Option.bind_eq_some_iff.mp found
    obtain ⟨version, content, _⟩ := Option.bind_eq_some_iff.mp found
    exact ⟨row, live, version, article, current, content⟩
  · rintro ⟨row, live, version, article, current, content⟩
    simp [joinLive, article, current, content]

namespace Database

variable (database : Database)

/-- The rows of `articles`. -/
def articles : List (Uuid × ArticleRow) :=
  withIds database.articleIds fun id => database.contents (.article id)

/-- The rows of `drafts`. -/
def drafts : List (Uuid × DraftRow) :=
  withIds database.draftIds fun id => database.contents (.draft id)

/-- The rows of the join of `articles` with the live rows and their versions. -/
def joined : List JoinedFeedRow := database.articleIds.filterMap (joinLive database.contents)

variable {database}

@[simp] theorem mem_articles {entry : Uuid × ArticleRow} :
    entry ∈ database.articles ↔ database.contents (.article entry.1) = some entry.2 :=
  mem_withIds database.mem_articleIds

@[simp] theorem mem_drafts {entry : Uuid × DraftRow} :
    entry ∈ database.drafts ↔ database.contents (.draft entry.1) = some entry.2 :=
  mem_withIds database.mem_draftIds

theorem articles_ids : (database.articles.map Prod.fst).Nodup :=
  nodup_filterMap database.articles_nodup fun id entry made => by
    obtain ⟨row, _, rfl⟩ := Option.map_eq_some_iff.mp made
    rfl

theorem drafts_ids : (database.drafts.map Prod.fst).Nodup :=
  nodup_filterMap database.drafts_nodup fun id entry made => by
    obtain ⟨row, _, rfl⟩ := Option.map_eq_some_iff.mp made
    rfl

@[simp] theorem mem_joined {joined : JoinedFeedRow} :
    joined ∈ database.joined ↔ joinLive database.contents joined.articleId = some joined := by
  rw [Database.joined, List.mem_filterMap]
  constructor
  · rintro ⟨id, _, found⟩
    rwa [(joinLive_eq_some found).1]
  · intro found
    obtain ⟨_, row, article, _⟩ := joinLive_eq_some found
    exact ⟨_, (database.mem_articleIds _).mpr (by rw [article]; rfl), found⟩

theorem joined_ids : (database.joined.map JoinedFeedRow.articleId).Nodup :=
  nodup_filterMap database.articles_nodup fun _ _ found => (joinLive_eq_some found).1

end Database

end Headlines.Store
