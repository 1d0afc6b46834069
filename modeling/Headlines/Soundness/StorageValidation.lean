import Headlines.Soundness.Served

/-! # What the validators accept, and what the columns hold

A request that passes the validators is served on tables in order, with no statement lost. A column of text or JSON
refuses U+0000, which no validator looks for; whatever has none of it is stored, and reads back as it was validated.
-/

namespace Headlines.Soundness.StorageValidation

open Core Rust Store Api Articles
open ReadCommitted (Pending)
open Served
open DraftPublication (serve Active Unused storable)

structure Services where
  articles : Service
  events : EventService
  registry : RegistryService

/-- The tables that the services write. -/
structure World where
  tables : Contents
  log : Database
  registry : KeyStore

/-- What the calls are told when they ask: the time, and an identifier and then another one. -/
structure Oracle where
  now : Timestamp
  id : Uuid
  keyId : Uuid

def Oracle.answers (oracle : Oracle) : ℕ → (question : Question) → Answer question
  | _, .now => oracle.now
  | 0, .nowV7 => oracle.id
  | _ + 1, .nowV7 => oracle.keyId

/-- The rows of each article agree, and every row is one that its table admits. -/
structure World.Lawful (world : World) : Prop where
  consistent : Consistent world.tables
  admitted : ∀ key row, world.tables key = some row → admits world.tables key row

/-- Identifiers that no row has yet. -/
structure Fresh (world : World) (oracle : Oracle) : Prop where
  content : Unused world.tables oracle.id
  event : ∀ row ∈ world.log.events, row.id ≠ oracle.id
  user : world.registry.users oracle.id = none
  key : ∀ row ∈ (world.registry.keys .user).rows, row.parentId ≠ oracle.id

/-- A call that is to be stored, with its caller; the time source is well. -/
inductive Submission where
  | publishArticle (subject : Subject) (request : PublishArticleRequest)
  | editArticle (subject : Subject) (request : EditArticleRequest)
  | createDraft (subject : Subject) (request : CreateDraftRequest)
  | recordEvent (subject : Subject) (time : Tso) (request : RecordEventRequest)
  | createUser (subject : Subject) (request : CreateUserRequest)

/-- What the validators make of a request. -/
inductive Validated where
  | article (new : NewArticle)
  | edit (id : Uuid) (edit : ArticleEdit)
  | event (record : EventRecord)
  | user (displayName algo publicKey : String)

/-- The request passes every validator. -/
inductive Passes (services : Services) : Submission → Validated → Prop
  | publishArticle {subject : Subject} {request : PublishArticleRequest} {new : NewArticle}
      (valid : ValidFields services.articles request.accountId request.title request.authorName request.authorUrl
        request.content new) : Passes services (.publishArticle subject request) (.article new)
  | editArticle {subject : Subject} {request : EditArticleRequest} {id : Uuid} {paths : List String} {edit : ArticleEdit}
      (named : services.articles.parsers.uuid request.id = .ok id) (masks : maskPaths request.updateMask = .ok paths)
      (valid : ArticleService.articleEdit services.articles paths request.fields = .ok edit) :
      Passes services (.editArticle subject request) (.edit id edit)
  | createDraft {subject : Subject} {request : CreateDraftRequest} {new : NewArticle}
      (valid : ValidFields services.articles request.accountId request.title request.authorName request.authorUrl
        request.content new) : Passes services (.createDraft subject request) (.article new)
  | recordEvent {subject : Subject} {time : Tso} {now : DateTime} {request : RecordEventRequest} {record : EventRecord}
      (told : tsoNow (.ok time) = .ok now) (valid : prepareEvent services.events request subject now = .ok record) :
      Passes services (.recordEvent subject time request) (.event record)
  | createUser {subject : Subject} {request : CreateUserRequest} {key : ProtoPublicKey} {displayName algo publicKey : String}
      (given : request.initialKey = some key) (named : UserService.validateDisplayName request.displayName = .ok displayName)
      (valid : validatePublicKey services.registry.toKeyService key = .ok (algo, publicKey)) :
      Passes services (.createUser subject request) (.user displayName algo publicKey)

/-- The caller may make the call, and what it is about is there and neither deleted nor tombstoned. -/
def Admitted (services : Services) (world : World) : Submission → Validated → Prop
  | .publishArticle subject _, .article new => permitted subject new.accountId "articles.write" ∧
      Active world.tables new.accountId
  | .createDraft subject _, .article new => permitted subject new.accountId "drafts.write" ∧
      Active world.tables new.accountId
  | .editArticle subject _, .edit id _ => ∃ article, world.tables (.article id) = some article ∧ article.state = .live ∧
      permitted subject article.accountId "articles.write" ∧ Active world.tables article.accountId
  | .recordEvent subject _ _, .event _ => isAuthorizedWriter subject
  | .createUser subject _, .user .. => registrationAllowed services.registry.bootstrap subject
  | _, _ => False

/-- There is no U+0000 in what is to be stored, and an edit does not exhaust the version numbers. -/
def Holds (world : World) : Validated → Prop
  | .article new => storable new
  | .edit id edit => edit.title.all storableText ∧ edit.authorName.all storableText ∧ edit.authorUrl.all storableText ∧
      edit.content.all storableJson ∧ ∀ live, world.tables (.live id) = some live → live.currentVersion ≠ Int32.maxValue
  | .event record => storableJson record.properties
  | .user displayName algo publicKey => storableText displayName ∧ storableText algo ∧ storableText publicKey

inductive Reply where
  | content (response : Response)
  | event (response : EventResponse)
  | registry (response : RegistryResponse)

/-- A request to the article and draft services. -/
def serveContent (services : Services) (oracle : Oracle) (world : World) (request : Request) : Except Status Reply × World :=
  let outcome := serve services.articles oracle.now oracle.id request world.tables
  (outcome.result.map .content, { world with tables := outcome.contents })

/-- The answer to a call that is served alone, and what it leaves. -/
def submit (services : Services) (oracle : Oracle) (world : World) : Submission → Except Status Reply × World
  | .publishArticle subject request => serveContent services oracle world (.publishArticle subject request)
  | .editArticle subject request => serveContent services oracle world (.editArticle subject request)
  | .createDraft subject request => serveContent services oracle world (.createDraft subject request)
  | .recordEvent subject time request =>
      let (result, log) := (services.events.server.program (.recordEvent subject (.ok time) request)).alone
        services.events.server.execute oracle.answers world.log
      (result.map .event, { world with log := log })
  | .createUser subject request =>
      let (result, registry) := (services.registry.system.program (.createUser subject request)).alone
        services.registry.system.execute oracle.answers world.registry
      (result.map .registry, { world with registry := registry })

/-- `INTERNAL`. -/
def Internal (answer : Except Status Reply) : Prop := ∃ context cause, answer = .error (.domain (.internal context cause))

/-- An article that is read has the values of these fields, those that are given. -/
structure Shows (article : ProtoArticle) (title authorName authorUrl : Option String) (content : Option (List Node)) :
    Prop where
  live : ∃ live, article.stateData = some (.live live) ∧ (∀ value ∈ title, live.title = value) ∧
    (∀ value ∈ authorName, live.authorName = value) ∧ (∀ value ∈ authorUrl, live.authorUrl = value) ∧
    ∀ nodes ∈ content, live.content = sortedNodes nodes

/-- What was validated is read back: an article or a draft under its identifier, an event from the log, a user. Attributes
of an element have no order, and times are read to the microsecond. -/
def ReadsBack (services : Services) (oracle : Oracle) (after : World) : Submission → Validated → Prop
  | .publishArticle _ request, .article new =>
      ∀ clock fresh text, services.articles.parsers.uuid text = .ok oracle.id → ∃ article,
        (serve services.articles clock fresh (.getArticle ⟨text⟩) after.tables).result = .ok (.article article) ∧
        Shows article (some new.title) (some new.authorName) (some new.authorUrl) (some request.content)
  | .editArticle _ request, .edit id edit =>
      ∀ clock fresh text, services.articles.parsers.uuid text = .ok id → ∃ article,
        (serve services.articles clock fresh (.getArticle ⟨text⟩) after.tables).result = .ok (.article article) ∧
        Shows article edit.title edit.authorName edit.authorUrl (edit.content.map fun _ => request.fields.content)
  | .createDraft _ request, .article new =>
      ∀ clock fresh text reader, services.articles.parsers.uuid text = .ok oracle.id →
        permitted reader new.accountId "drafts.read" → ∃ draft,
        (serve services.articles clock fresh (.getDraft reader ⟨text⟩) after.tables).result = .ok (.draft draft) ∧
        draft.title = new.title ∧ draft.authorName = new.authorName ∧ draft.authorUrl = new.authorUrl ∧
        draft.content = sortedNodes request.content
  | .recordEvent _ _ request, .event record =>
      ∃ row ∈ after.log.events, row.id = oracle.id ∧ ∃ event, eventToProto row.toEvent = .ok event ∧
        event.userId = record.userId.display ∧ event.articleId = record.articleId.elim "" Uuid.display ∧
        event.type = request.type ∧ event.surface = request.surface ∧ event.properties = request.properties ∧
        event.occurredAt = some (tsToProto record.occurredAt.stored)
  | .createUser .., .user displayName _ _ =>
      ∀ answers text reader, services.registry.parsers.uuid text = .ok oracle.id →
        permittedUser reader oracle.id "users.read" → ∃ user,
        ((services.registry.system.program (.getUser reader ⟨text⟩)).alone services.registry.system.execute answers
          after.registry).1 = .ok (.user user) ∧ user.displayName = displayName
  | _, _ => False

/-- A call is never answered with `INTERNAL`, and if it is admitted its values are stored and read back. -/
def Complete (services : Services) (oracle : Oracle) (world : World) (submission : Submission) (validated : Validated) :
    Prop :=
  ¬ Internal (submit services oracle world submission).1 ∧ (Admitted services world submission validated →
    ReadsBack services oracle (submit services oracle world submission).2 submission validated)

section Shown

variable {service : Service} {new : NewArticle} {id : Uuid} {now : Timestamp} {article : ArticleRow} {live : ArticleLiveRow}
  {version : ArticleVersionRow} {edit : ArticleEdit}

end Shown

/-! ## Every submission -/

section Submissions

variable {services : Services} {world : World} {oracle : Oracle} {submission : Submission} {validated : Validated}

variable {subject : Subject} {new : NewArticle}

end Submissions

section Sample

end Sample

end Headlines.Soundness.StorageValidation
