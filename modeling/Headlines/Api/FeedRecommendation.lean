import Headlines.Api.Service
import Headlines.Store.FeedRecommendation

/-! # `FeedRecommendationServiceImpl`

A system replaces the recommendations of a user as a whole; the user itself, or a system, reads them page by page.
-/

namespace Headlines.Api

open Core Autocommit Store
open RowVersions (Code)

/-- Handler code over the recommendations. -/
abbrev FeedHandler (ρ : Type) := Code FeedKey Uuid FeedStatement.Result Answer Status ρ

structure ProtoArticleLiveSummary where
  currentVersion : Int32
  title : String
  authorName : String
  authorUrl : String
  redacted : Bool
  publishedAt : Option ProtoTimestamp
  updatedAt : Option ProtoTimestamp

structure ProtoArticleTombstoneSummary where
  reason : String
  tombstonedAt : Option ProtoTimestamp

inductive ProtoSummaryStateData where
  | live (live : ProtoArticleLiveSummary)
  | tombstone (tombstone : ProtoArticleTombstoneSummary)

structure ProtoArticleSummary where
  id : String
  accountId : String
  state : ArticleState
  createdAt : Option ProtoTimestamp
  stateData : Option ProtoSummaryStateData

structure ProtoFeedItem where
  position : Int32
  article : Option ProtoArticleSummary

structure ReplaceRecommendationFeedRequest where
  userId : String
  articleIds : List String

structure GetRecommendationFeedRequest where
  userId : String
  pageSize : Int32
  pageToken : String

structure ReplaceRecommendationFeedResponse where
  storedCount : Int32

structure GetRecommendationFeedResponse where
  items : List ProtoFeedItem
  nextPageToken : String

inductive FeedRequest where
  | replace (subject : Subject) (request : ReplaceRecommendationFeedRequest)
  | get (subject : Subject) (request : GetRecommendationFeedRequest)

inductive FeedResponse where
  | replaced (response : ReplaceRecommendationFeedResponse)
  | page (response : GetRecommendationFeedResponse)

def defaultFeedsReplaceMaxItems : ℕ := 5000

structure FeedService where
  parsers : Parsers
  codec : PositionCodec
  replaceMaxItems : ℕ

namespace FeedHandler

/-- A repository call. -/
def repo (call : FeedDb ρ) : FeedHandler ρ := ExceptT.adapt .domain call

/-- A validation. -/
def check (outcome : Except HeadlinesError ρ) : FeedHandler ρ := Throwing.ofExcept (outcome.mapError .domain)

end FeedHandler

namespace FeedService

def articleSummaryToProto (summary : ArticleSummary) : ProtoArticleSummary where
  id := summary.id.display
  accountId := summary.accountId.display
  state := summary.state
  createdAt := some (tsToProto summary.createdAt)
  stateData := some <|
    match summary.state with
    | .live => .live
        { currentVersion := summary.currentVersion.getD 0
          title := summary.title.getD ""
          authorName := summary.authorName.getD ""
          authorUrl := summary.authorUrl.getD ""
          redacted := summary.redacted
          publishedAt := summary.publishedAt.map tsToProto
          updatedAt := summary.updatedAt.map tsToProto }
    | .tombstone => .tombstone
        { reason := summary.tombstoneReason.getD ""
          tombstonedAt := summary.tombstonedAt.map tsToProto }

def feedItemToProto (item : FeedItem) : ProtoFeedItem := ⟨item.position, some (articleSummaryToProto item.article)⟩

def pageToProto (page : ListPage FeedItem) : GetRecommendationFeedResponse :=
  ⟨page.items.map feedItemToProto, page.nextPageToken.value⟩

/-- A system that holds the scope. -/
def systemAllowed (subject : Subject) (scope : String) : Bool :=
  match subject with
  | .system .. => subject.hasScope scope
  | _ => false

/-- The identifiers after those that are parsed, none of which may come again. -/
def parseArticleIds (parsers : Parsers) : List String → List Uuid → Except HeadlinesError (List Uuid)
  | [], parsed => .ok parsed
  | raw :: rest, parsed => do
      let id ← parseUuid parsers "article_ids" raw
      if id ∈ parsed then throw (.duplicateArticleId id)
      parseArticleIds parsers rest (parsed ++ [id])

variable (service : FeedService)

def replaceRecommendationFeed (subject : Subject) (request : ReplaceRecommendationFeedRequest) :
    FeedHandler ReplaceRecommendationFeedResponse := do
  let userId ← FeedHandler.check (parseUuid service.parsers "user_id" request.userId)
  Throwing.require (systemAllowed subject "feeds.recommendation.write")
    (.permissionDenied "feeds.recommendation.write required")
  Throwing.require (decide (request.articleIds.length ≤ service.replaceMaxItems))
    (.domain (.feedTooLarge request.articleIds.length service.replaceMaxItems))
  let parsed ← FeedHandler.check (parseArticleIds service.parsers request.articleIds [])
  let user ← FeedHandler.repo (FeedDb.ofKeys (KeyDb.getUser userId))
  Throwing.require (user.status != .deleted) (.domain (.userDeleted userId))
  let stored ← FeedHandler.repo (PgFeedRecommendationRepo.replace userId parsed)
  return ⟨stored⟩

def getRecommendationFeed (subject : Subject) (request : GetRecommendationFeedRequest) :
    FeedHandler GetRecommendationFeedResponse := do
  let userId ← FeedHandler.check (parseUuid service.parsers "user_id" request.userId)
  Throwing.require (subject.isSelfFor (some userId) none || systemAllowed subject "feeds.recommendation.read")
    (.domain (.userNotFound userId))
  let user ← FeedHandler.repo (FeedDb.ofKeys (KeyDb.getUser userId))
  Throwing.require (user.status != .deleted) (.domain (.userDeleted userId))
  let page ← FeedHandler.repo
    (PgFeedRecommendationRepo.get service.codec userId request.pageSize ⟨request.pageToken⟩)
  return pageToProto page

/-- The handler of a request. -/
def handle : FeedRequest → FeedHandler FeedResponse
  | .replace subject request => .replaced <$> replaceRecommendationFeed service subject request
  | .get subject request => .page <$> getRecommendationFeed service subject request

/-- The statements, the foreign key, the bound on the parameters of an `INSERT`, and the handlers. -/
def system : RowVersions.System FeedKey Uuid FeedStatement.Result Answer FeedRequest (Except Status FeedResponse) FeedStore where
  execute := FeedStatement.execute
  admits := FeedStore.admits
  maxRows := maxFeedRows
  program request := (handle service request).run

end FeedService

end Headlines.Api
