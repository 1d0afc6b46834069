import Headlines.Api.Service
import Headlines.Store.Drafts

/-! # `DraftServiceImpl`

The handlers of the draft service, with the validators of the article service. A caller who may not
see a draft is told it does not exist.
-/

namespace Headlines.Api

open Core ReadCommitted Store

structure CreateDraftRequest where
  accountId : String
  title : String
  authorName : String
  authorUrl : String
  content : List Node

structure GetDraftRequest where
  id : String

structure ProtoDraft where
  id : String
  accountId : String
  title : String
  authorName : String
  authorUrl : String
  content : List Node
  createdAt : Option ProtoTimestamp
  updatedAt : Option ProtoTimestamp

structure UpdateDraftRequest where
  draft : Option ProtoDraft
  updateMask : Option (List String)

/-- The draft of a request; a missing message has empty fields. -/
def UpdateDraftRequest.fields (request : UpdateDraftRequest) : ProtoDraft :=
  request.draft.getD
    { id := "", accountId := "", title := "", authorName := "", authorUrl := "", content := [],
      createdAt := none, updatedAt := none }

structure DeleteDraftRequest where
  id : String

structure PublishDraftRequest where
  id : String

def draftToProto (draft : Draft) : ProtoDraft where
  id := draft.id.display
  accountId := draft.accountId.display
  title := draft.title
  authorName := draft.authorName
  authorUrl := draft.authorUrl
  content := jsonToNodes draft.content
  createdAt := some (tsToProto draft.createdAt)
  updatedAt := some (tsToProto draft.updatedAt)

namespace DraftService

variable (service : Service)

def createDraft (subject : Subject) (request : CreateDraftRequest) : Handler ProtoDraft := do
  let accountId ← Handler.check (parseUuid service.parsers "account_id" request.accountId)
  Throwing.require (permitted subject accountId "drafts.write")
    (.permissionDenied "not permitted on this account")
  let title ← Handler.check (validateTitle request.title)
  let authorName ← Handler.check (validateAuthorName request.authorName)
  let authorUrl ← Handler.check (validateAuthorUrl service.parsers request.authorUrl)
  let content ← Handler.check (validateAndEncodeContent request.content service.contentMaxBytes)
  Handler.activeAccount accountId
  let id ← Throwing.ask Question.nowV7
  let draft ← Handler.repo (PgDraftRepo.create
    { id := id, accountId := accountId, title := title, authorName := authorName,
      authorUrl := authorUrl, content := content })
  return draftToProto draft

/-- The draft, if the caller may act on it. -/
def owned (subject : Subject) (id : Uuid) (scope : String) : Handler Draft := do
  let draft ← Handler.repo (PgDraftRepo.get id)
  Throwing.require (permitted subject draft.accountId scope) (.domain (.draftNotFound id))
  return draft

def getDraft (subject : Subject) (request : GetDraftRequest) : Handler ProtoDraft := do
  let id ← Handler.check (parseUuid service.parsers "id" request.id)
  let draft ← owned subject id "drafts.read"
  return draftToProto draft

/-- The masked fields of an update, validated in the order of the source. -/
def draftUpdate (paths : List String) (draft : ProtoDraft) : Except HeadlinesError DraftUpdate := do
  let title ← masked paths "title" (validateTitle draft.title)
  let authorName ← masked paths "author_name" (validateAuthorName draft.authorName)
  let authorUrl ← masked paths "author_url" (validateAuthorUrl service.parsers draft.authorUrl)
  let content ← masked paths "content"
    (validateAndEncodeContent draft.content service.contentMaxBytes)
  return { title := title, authorName := authorName, authorUrl := authorUrl, content := content }

theorem draftUpdate_content {paths : List String} {fields : ProtoDraft} {built : DraftUpdate}
    (holds : draftUpdate service paths fields = .ok built) :
    masked paths "content" (validateAndEncodeContent fields.content service.contentMaxBytes) =
      .ok built.content := by
  unfold draftUpdate at holds
  obtain ⟨title, _, holds⟩ := Except.bind_eq_ok.mp holds
  obtain ⟨authorName, _, holds⟩ := Except.bind_eq_ok.mp holds
  obtain ⟨authorUrl, _, holds⟩ := Except.bind_eq_ok.mp holds
  obtain ⟨content, encoded, holds⟩ := Except.bind_eq_ok.mp holds
  obtain rfl := Except.ok.inj holds
  exact encoded

def updateDraft (subject : Subject) (request : UpdateDraftRequest) : Handler ProtoDraft := do
  let id ← Handler.check (parseUuid service.parsers "draft.id" request.fields.id)
  let paths ← Handler.check (maskPaths request.updateMask)
  let _ ← owned subject id "drafts.write"
  let update ← Handler.check (draftUpdate service paths request.fields)
  let updated ← Handler.repo (PgDraftRepo.update id update)
  return draftToProto updated

def deleteDraft (subject : Subject) (request : DeleteDraftRequest) : Handler Unit := do
  let id ← Handler.check (parseUuid service.parsers "id" request.id)
  let _ ← owned subject id "drafts.write"
  Handler.repo (PgDraftRepo.delete id)

def publishDraft (subject : Subject) (request : PublishDraftRequest) : Handler ProtoArticle := do
  let id ← Handler.check (parseUuid service.parsers "id" request.id)
  let draft ← owned subject id "articles.write"
  Handler.activeAccount draft.accountId
  let _ ← Handler.check (validateTitle draft.title)
  let _ ← Handler.check (validateAuthorName draft.authorName)
  let _ ← Handler.check (validateAuthorUrl service.parsers draft.authorUrl)
  let _ ← Handler.check (validateAndEncodeContent (jsonToNodes draft.content) service.contentMaxBytes)
  let article ← Handler.repo (PgDraftRepo.publish id)
  return articleToProto article

end DraftService

end Headlines.Api
