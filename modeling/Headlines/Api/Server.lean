import Headlines.Api.Article
import Headlines.Api.Draft
import Headlines.ReadCommitted.System

/-! # The article and draft services over one database -/

namespace Headlines.Api

open Core ReadCommitted Store

/-- A request to one of the services, with the subject it was authenticated as. -/
inductive Request where
  | publishArticle (subject : Subject) (request : PublishArticleRequest)
  | getArticle (request : GetArticleRequest)
  | editArticle (subject : Subject) (request : EditArticleRequest)
  | tombstoneArticle (subject : Subject) (request : TombstoneArticleRequest)
  | redactArticleVersion (request : RedactArticleVersionRequest)
  | createDraft (subject : Subject) (request : CreateDraftRequest)
  | getDraft (subject : Subject) (request : GetDraftRequest)
  | updateDraft (subject : Subject) (request : UpdateDraftRequest)
  | deleteDraft (subject : Subject) (request : DeleteDraftRequest)
  | publishDraft (subject : Subject) (request : PublishDraftRequest)

inductive Response where
  | article (article : ProtoArticle)
  | draft (draft : ProtoDraft)
  | empty

/-- The handler of a request. -/
def Service.handle (service : Service) : Request → Handler Response
  | .publishArticle subject request => .article <$> ArticleService.publishArticle service subject request
  | .getArticle request => .article <$> ArticleService.getArticle service request
  | .editArticle subject request => .article <$> ArticleService.editArticle service subject request
  | .tombstoneArticle subject request =>
      .article <$> ArticleService.tombstoneArticle service subject request
  | .redactArticleVersion request =>
      (fun _ => .empty) <$> ArticleService.redactArticleVersion service request
  | .createDraft subject request => .draft <$> DraftService.createDraft service subject request
  | .getDraft subject request => .draft <$> DraftService.getDraft service subject request
  | .updateDraft subject request => .draft <$> DraftService.updateDraft service subject request
  | .deleteDraft subject request => (fun _ => .empty) <$> DraftService.deleteDraft service subject request
  | .publishDraft subject request => .article <$> DraftService.publishDraft service subject request

/-- The schema and the handlers. -/
def Service.system (service : Service) :
    System Row Answer Request (Except Status Response) where
  admits := admits
  program request := (service.handle request).run

abbrev Call := ReadCommitted.Call Request
abbrev Pending := ReadCommitted.Pending Row
abbrev Ledger := ReadCommitted.Ledger Row Request
abbrev Commit := ReadCommitted.Commit Row Request
abbrev State := ReadCommitted.State Row Answer Request (Except Status Response)

namespace Sample

/-- The one article of the concrete runs. -/
def article : Uuid := ⟨1⟩

/-- Its author's account. -/
def account : Uuid := ⟨2⟩

def articleText : String := "00000000-0000-0000-0000-000000000001"

def accountText : String := "00000000-0000-0000-0000-000000000002"

/-- The parsers on the texts above and on the empty string. -/
def parsers : Parsers where
  uuid raw :=
    if raw = articleText then .ok article
    else if raw = accountText then .ok account
    else .error "invalid length: expected length 32 for simple format, found 0"
  urlScheme _ := .error "relative URL without a base"

def service : Service := ⟨parsers, defaultContentMaxBytes⟩

def author : Subject := .account account ⟨3⟩

/-- The tables with one active account. -/
def registered : Contents
  | .account id =>
      if id = account then
        some { shortName := "s", authorName := "a", authorUrl := none, status := .active,
               deletedAt := none, createdAt := 0, updatedAt := 0 }
      else none
  | _ => none

def firstArticle : ArticleRow := { accountId := account, state := .live, createdAt := 0 }

def firstLive : ArticleLiveRow := { currentVersion := 1, publishedAt := 0, updatedAt := 0 }

def firstVersion : ArticleVersionRow :=
  { title := "t", authorName := none, authorUrl := none, content := some (.array [.string "x"]),
    redactedAt := none, redactionReason := none, createdAt := 0 }

/-- The tables with one active account and its article. -/
def published : Contents := (((Pending.none.set (.article article) (some firstArticle)).set
  (.live article) (some firstLive)).set (.version article 1) (some firstVersion)).view registered

/-- No call has been made. -/
def opening (contents : Contents) : State := ⟨⟨contents, [], []⟩, fun _ => none, fun _ => none⟩

/-- A session runs its next statements. -/
def proceed (session count : ℕ) : List (Label Answer Request) := List.replicate count (.proceed session)

/-- `PublishArticle` up to its commit. -/
def publish (session : ℕ) : List (Label Answer Request) :=
  [.begin session (.publishArticle author
    { accountId := accountText, title := "t", authorName := "", authorUrl := "", content := [.text "x"] })] ++
  proceed session 2 ++ [.answer session .nowV7 article] ++ proceed session 1 ++ [.answer session .now 0] ++
  proceed session 5

/-- An edit that clears the author's URL and names nothing else. -/
def clearUrl : Request := .editArticle author
  { id := articleText, edit := none, updateMask := some ["author_url"] }

/-- An edit that gives new content and names nothing else. -/
def rewrite : Request := .editArticle author
  { id := articleText
    edit := some { title := "", authorName := "", authorUrl := "", content := [.text "y"] }
    updateMask := some ["content"] }

/-- An edit up to its commit. -/
def edit (session : ℕ) (request : Request) : List (Label Answer Request) :=
  [.begin session request] ++ proceed session 7 ++ [.answer session .now 0] ++ proceed session 7

/-- `TombstoneArticle` up to its commit. -/
def tombstone (session : ℕ) : List (Label Answer Request) :=
  [.begin session (.tombstoneArticle author ⟨articleText, ""⟩)] ++ proceed session 5 ++
  [.answer session .now 0] ++ proceed session 6

def redaction : Request := .redactArticleVersion ⟨articleText, 1, "r"⟩

/-- `RedactArticleVersion` of the first version up to its commit; a live article takes two more
statements. -/
def redactFirst (session : ℕ) (state : ArticleState) : List (Label Answer Request) :=
  [.begin session redaction] ++ proceed session 1 ++
  [.answer session .now 0] ++ proceed session (if state = .live then 7 else 5)

/-- `CreateDraft` up to its commit. -/
def createDraft (session : ℕ) : List (Label Answer Request) :=
  [.begin session (.createDraft author
    { accountId := accountText, title := "t", authorName := "", authorUrl := "", content := [.text "x"] })] ++
  proceed session 2 ++ [.answer session .nowV7 article] ++ proceed session 1 ++ [.answer session .now 0] ++
  proceed session 2

/-- `UpdateDraft` of the title up to its commit. -/
def retitle (session : ℕ) : List (Label Answer Request) :=
  [.begin session (.updateDraft author
    { draft := some { id := articleText, accountId := "", title := "u", authorName := "", authorUrl := "",
                      content := [], createdAt := none, updatedAt := none }
      updateMask := some ["title"] })] ++
  proceed session 3 ++ [.answer session .now 0] ++ proceed session 6

/-- `PublishDraft` up to its commit. -/
def publishDraft (session : ℕ) : List (Label Answer Request) :=
  [.begin session (.publishDraft author ⟨articleText⟩)] ++ proceed session 5 ++ [.answer session .now 0] ++
  proceed session 7

end Sample

end Headlines.Api
