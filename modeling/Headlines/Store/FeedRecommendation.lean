import Headlines.RowVersions.Transactions
import Headlines.Store.KeyRepo
import Headlines.Store.Lists

/-! # `PgFeedRecommendationRepo`

A user's recommendations are rows of `feed_recommendation`, one for each position. They are replaced in one transaction,
by a `DELETE` of all and an `INSERT` of the new ones; a page is read by one query, which joins the articles.
-/

namespace Headlines.Store

open Core Autocommit
open ReadCommitted (Fault)
open RowVersions (Code)

/-- The primary key: a user and a position. -/
abbrev FeedKey := Uuid × Int32

/-- The row of an article id at its key. -/
abbrev FeedRow := FeedKey × Uuid

/-- The tables the feed handlers read besides their own. -/
structure FeedStore where
  keys : KeyStore
  contents : Contents

inductive FeedStatement where
  | keys (statement : KeyStatement)
  | selectFeed (userId : Uuid) (cursor : Option Int32) (limit : ℕ)

abbrev FeedStatement.Result : FeedStatement → Type
  | .keys statement => statement.Result
  | .selectFeed .. => List (Int32 × JoinedFeedRow)

/-- What the join finds for a row; the query asks for the state of the article, too. -/
def joinFeed (contents : Contents) (row : FeedRow) : Option (Int32 × JoinedFeedRow) :=
  ((joinLive contents row.2).filter fun joined => joined.state = .live).map (row.1.2, ·)

/-- The joined rows of a user after a cursor, by their positions. -/
def selectFeed (contents : Contents) (rows : List FeedRow) (userId : Uuid) (cursor : Option Int32) (limit : ℕ) :
    List (Int32 × JoinedFeedRow) :=
  let found := (rows.filter fun row => row.1.1 = userId).filter fun row => cursor.all (· < row.1.2)
  ((found.filterMap (joinFeed contents)).mergeSort fun one other => one.1 ≤ other.1).take limit

/-- The rows of other users do not matter. -/
theorem selectFeed_filter (contents : Contents) (rows : List FeedRow) (userId : Uuid) (cursor : Option Int32) (limit : ℕ) :
    selectFeed contents (rows.filter fun row => row.1.1 = userId) userId cursor limit =
      selectFeed contents rows userId cursor limit := by
  have once : (rows.filter fun row => row.1.1 = userId).filter (fun row => row.1.1 = userId) =
      rows.filter fun row => row.1.1 = userId := by
    rw [List.filter_filter]
    exact List.filter_congr fun row _ => Bool.and_self _
  rw [selectFeed, once]
  rfl

/-- What a statement answers, and the store it leaves. -/
def FeedStatement.execute : (statement : FeedStatement) → List FeedRow → FeedStore →
    Except Fault (statement.Result × FeedStore)
  | .keys statement, _, store => (statement.execute store.keys).map fun (result, after) =>
      (result, { store with keys := after })
  | .selectFeed userId cursor limit, rows, store => .ok (Store.selectFeed store.contents rows userId cursor limit, store)

/-- The user of a row exists. -/
def FeedStore.admits (store : FeedStore) (row : FeedRow) : Bool := (store.keys.users row.1.1).isSome

/-- A statement has at most 65535 parameters, and a row takes three. -/
def maxFeedRows : ℕ := 65535 / 3

/-- Repository code over the recommendations. -/
abbrev FeedDb (ρ : Type) := Code FeedKey Uuid FeedStatement.Result Answer HeadlinesError ρ

namespace FeedDb

def execute (statement : RowVersions.Statement FeedKey Uuid FeedStatement) (context : String) :
    FeedDb (statement.Result FeedStatement.Result) :=
  Code.execute statement (Db.internal context)

/-- Code of the repository of users and keys. -/
def ofKeys (call : KeyDb ρ) : FeedDb ρ := Code.outside (Throwing.embed FeedStatement.keys call)

/-- Borrow a connection from the pool. -/
def get : FeedDb Unit := ofKeys KeyDb.get

def transaction (body : FeedDb ρ) : FeedDb ρ := Code.transaction (Db.internal "tx") body

end FeedDb

/-- What a token is made with: base64, and the derived JSON of a cursor with one position. -/
structure PositionCodec where
  encode : List UInt8 → String
  decode : String → Except String (List UInt8)
  toVec : Int32 → List UInt8
  fromSlice : List UInt8 → Except String Int32

namespace PositionCodec

variable (codec : PositionCodec)

def encodeCursor (position : Int32) : PageToken := ⟨codec.encode (codec.toVec position)⟩

def decodeCursor (raw : String) : Except HeadlinesError Int32 := do
  let bytes ← (codec.decode raw).mapError fun e => .invalidCursor ("base64: " ++ e)
  (codec.fromSlice bytes).mapError fun e => .invalidCursor ("json: " ++ e)

/-- The cursor of a request; an empty token has none. -/
def cursor (token : PageToken) : Except HeadlinesError (Option Int32) := do
  if token.isEmpty then return none
  let position ← codec.decodeCursor token.value
  return some position

end PositionCodec

namespace PgFeedRecommendationRepo

/-- The row of an article is at its index. -/
def newFeedRows (userId : Uuid) (articleIds : List Uuid) : List FeedRow :=
  articleIds.zipIdx.map fun (articleId, idx) => ((userId, Int32.ofNat idx), articleId)

/-- The `DELETE` and the `INSERT`, which is left out for an empty list. -/
def rewrite (userId : Uuid) (articleIds : List Uuid) : FeedDb Unit := do
  let _ ← FeedDb.execute (.delete fun key => key.1 = userId) "delete feed_recommendation"
  if articleIds.isEmpty then return ()
  let _ ← FeedDb.execute (.insert (newFeedRows userId articleIds)) "insert feed_recommendation"

def replace (userId : Uuid) (articleIds : List Uuid) : FeedDb Int32 := do
  FeedDb.get
  FeedDb.transaction (rewrite userId articleIds)
  return Int32.ofNat articleIds.length

/-- The page that is made of what the query found. -/
def page (codec : PositionCodec) (limit : ℕ) (rows : List (Int32 × JoinedFeedRow)) : ListPage FeedItem :=
  let (kept, last) := Keyset.cut limit rows
  { items := kept.map fun (position, row) => rowToFeedItem position row
    nextPageToken := last.elim .empty fun row => codec.encodeCursor row.1 }

def get (codec : PositionCodec) (userId : Uuid) (pageSize : Int32) (pageToken : PageToken) : FeedDb (ListPage FeedItem) := do
  let limit := (clampPageSize pageSize).toInt.toNat
  let cursor ← Throwing.ofExcept (codec.cursor pageToken)
  FeedDb.get
  let rows ← FeedDb.execute (.outside (.selectFeed userId cursor (limit + 1))) "get feed_recommendation"
  return page codec limit rows

end PgFeedRecommendationRepo

end Headlines.Store
