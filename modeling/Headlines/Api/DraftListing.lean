import Headlines.Api.Draft
import Headlines.Store.Lists

/-! # `DraftServiceImpl` over whole tables

The list handler goes through the rows of a table, where the others go by the key of a draft. With it the
service has its six requests.
-/

namespace Headlines.Api

open Core ReadCommitted Store

structure ListAccountDraftsRequest where
  accountId : String
  pageSize : Int32
  pageToken : String

structure ProtoDraftSummary where
  id : String
  accountId : String
  title : String
  createdAt : Option ProtoTimestamp
  updatedAt : Option ProtoTimestamp

structure ListAccountDraftsResponse where
  items : List ProtoDraftSummary
  nextPageToken : String

def draftSummaryToProto (summary : DraftSummary) : ProtoDraftSummary where
  id := summary.id.display
  accountId := summary.accountId.display
  title := summary.title
  createdAt := some (tsToProto summary.createdAt)
  updatedAt := some (tsToProto summary.updatedAt)

def DraftService.listAccountDrafts (service : Service) (codec : CursorCodec) (database : Database) (subject : Subject)
    (request : ListAccountDraftsRequest) : Handler ListAccountDraftsResponse := do
  let accountId ← Handler.check (parseUuid service.parsers "account_id" request.accountId)
  Throwing.require (permitted subject accountId "drafts.read")
    (.permissionDenied "not permitted on this account")
  let page ← Handler.repo
    (PgDraftRepo.listByAccount codec database accountId request.pageSize ⟨request.pageToken⟩)
  return { items := page.items.map draftSummaryToProto, nextPageToken := page.nextPageToken.value }

inductive DraftRequest where
  | createDraft (request : CreateDraftRequest)
  | getDraft (request : GetDraftRequest)
  | updateDraft (request : UpdateDraftRequest)
  | deleteDraft (request : DeleteDraftRequest)
  | listAccountDrafts (request : ListAccountDraftsRequest)
  | publishDraft (request : PublishDraftRequest)

inductive DraftResponse where
  | draft (draft : ProtoDraft)
  | drafts (response : ListAccountDraftsResponse)
  | article (article : ProtoArticle)
  | empty

/-- The handler of a request. -/
def DraftService.handle (service : Service) (codec : CursorCodec) (database : Database) (subject : Subject) :
    DraftRequest → Handler DraftResponse
  | .createDraft request => .draft <$> createDraft service subject request
  | .getDraft request => .draft <$> getDraft service subject request
  | .updateDraft request => .draft <$> updateDraft service subject request
  | .deleteDraft request => (fun _ => .empty) <$> deleteDraft service subject request
  | .listAccountDrafts request => .drafts <$> listAccountDrafts service codec database subject request
  | .publishDraft request => .article <$> publishDraft service subject request

end Headlines.Api
