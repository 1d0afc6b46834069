import Headlines.Api.Service
import Headlines.Core.Tso
import Headlines.Store.EventQuery
import Headlines.Store.EventRepo

/-! # `EventServiceImpl`

Recording one event or a batch, and listing what was recorded. Every event of a batch is validated before any is
stored; the answer is made of the stored rows, whose properties are read back from their JSON.
-/

namespace Headlines.Api

open Core Store

/-- Handler code over statements that commit on their own. -/
abbrev EventHandler (ρ : Type) := Autocommit.Throwing EventStatement.Result Answer Status ρ

inductive ProtoEventType where
  | unspecified
  | impression
  | open
  | dwell
  | like
  | unlike
  | share
deriving DecidableEq, Repr

/-- The `properties` of an event, the same in requests and answers. -/
inductive Properties where
  | impression (feedKind : String) (position : Int32)
  | open (feedKind : String) (position : Int32)
  | dwell (dwellMs : Int64)
  | like
  | unlike
  | share (target : String)
deriving DecidableEq, Repr

structure RecordEventRequest where
  userId : String
  articleId : String
  type : Int32
  occurredAt : Option ProtoTimestamp
  surface : String
  properties : Option Properties

structure RecordEventBatchRequest where
  events : List RecordEventRequest

structure ListEventsRequest where
  pageSize : Int32
  pageToken : String
  userId : String
  articleId : String
  types : List Int32
  receivedAfter : Option ProtoTimestamp
  receivedBefore : Option ProtoTimestamp

structure ProtoEvent where
  id : String
  userId : String
  articleId : String
  type : Int32
  occurredAt : Option ProtoTimestamp
  receivedAt : Option ProtoTimestamp
  surface : String
  properties : Option Properties

structure RecordEventBatchResponse where
  recorded : List ProtoEvent
  storedCount : Int32

structure ListEventsResponse where
  items : List ProtoEvent
  nextPageToken : String

/-- What the service is built with; `debugChar` is how a character is printed for debugging. -/
structure EventService where
  parsers : Parsers
  debugChar : Char → String
  batchMaxItems : ℕ

/-- `DEFAULT_EVENTS_BATCH_MAX_ITEMS`. -/
def defaultEventsBatchMaxItems : ℕ := 500

def feedKinds : List String := ["recommendation", "follow", "account", "direct"]
def surfaceMax : ℕ := 32
def shareTargetMax : ℕ := 32

/-- `DWELL_MS_MAX`, 24 hours. -/
def dwellMsMax : ℤ := 86400000

def occurredAtPastWindowHours : ℤ := 24
def occurredAtFutureWindowSeconds : ℤ := 60

/-- The physical time of what the time source answered. -/
def tsoNow (time : Except String Tso) : Except HeadlinesError DateTime := do
  let tso ← time.mapError fun e => HeadlinesError.internal "time source" (.external e)
  let ms := tso.physicalMs.toNat
  match DateTime.fromTimestampMillis ms with
  | some now => return now
  | none => throw (.internal s!"TSO physical_ms out of range: {ms}" .malformed)

def protoToChrono (t : ProtoTimestamp) : Option DateTime := DateTime.fromTimestamp t.seconds t.nanos

namespace ProtoEventType

def number : ProtoEventType → Int32
  | .unspecified => 0
  | .impression => 1
  | .open => 2
  | .dwell => 3
  | .like => 4
  | .unlike => 5
  | .share => 6

def all : List ProtoEventType := [.unspecified, .impression, .open, .dwell, .like, .unlike, .share]

def tryFrom (t : Int32) : Option ProtoEventType := all.find? fun type => decide (type.number = t)

end ProtoEventType

def eventTypeString (t : Int32) : Except HeadlinesError String :=
  match (ProtoEventType.tryFrom t).getD .unspecified with
  | .unspecified => .error (.invalidArgument "type" "must not be EVENT_TYPE_UNSPECIFIED")
  | .impression => .ok "IMPRESSION"
  | .open => .ok "OPEN"
  | .dwell => .ok "DWELL"
  | .like => .ok "LIKE"
  | .unlike => .ok "UNLIKE"
  | .share => .ok "SHARE"

def eventTypeFromString (s : String) : Int32 :=
  match s with
  | "IMPRESSION" => ProtoEventType.impression.number
  | "OPEN" => ProtoEventType.open.number
  | "DWELL" => ProtoEventType.dwell.number
  | "LIKE" => ProtoEventType.like.number
  | "UNLIKE" => ProtoEventType.unlike.number
  | "SHARE" => ProtoEventType.share.number
  | _ => ProtoEventType.unspecified.number

/-- `[a-z0-9_-]`. -/
def surfaceChar (c : Char) : Bool := c.isLower || c.isDigit || c == '_' || c == '-'

/-- The first character outside the set is the error. -/
def validateSurface (service : EventService) (s : String) : Except HeadlinesError Unit :=
  if s.isEmpty then .error (.invalidArgument "surface" "must not be empty")
  else if s.length > surfaceMax then .error (.invalidArgument "surface" "must be ≤32 chars")
  else
    match s.toList.find? fun c => !surfaceChar c with
    | some c => .error (.invalidArgument "surface" ("contains disallowed char: " ++ service.debugChar c))
    | none => .ok ()

def validateFeedKind (s : String) : Except HeadlinesError Unit :=
  if feedKinds.contains s then .ok ()
  else .error (.invalidArgument "feed_kind"
    "must be one of [\"recommendation\", \"follow\", \"account\", \"direct\"]")

def validatePosition (p : Int32) : Except HeadlinesError Unit :=
  if p < 0 then .error (.invalidArgument "position" "must be ≥ 0") else .ok ()

def validateDwellMs (ms : Int64) : Except HeadlinesError Unit :=
  if 0 ≤ ms.toInt ∧ ms.toInt ≤ dwellMsMax then .ok ()
  else .error (.invalidArgument "dwell_ms" "must be in [0, 86400000]")

def validateShareTarget (t : String) : Except HeadlinesError Unit :=
  if t.isEmpty then .error (.invalidArgument "target" "must not be empty")
  else if t.length > shareTargetMax then .error (.invalidArgument "target" "must be ≤32 chars")
  else .ok ()

def propertiesSelectorName : Option Properties → String
  | none => "<unset>"
  | some (.impression ..) => "impression"
  | some (.open ..) => "open"
  | some (.dwell _) => "dwell"
  | some .like => "like"
  | some .unlike => "unlike"
  | some (.share _) => "share"

/-- What is stored for properties that agree with the type. -/
def validatePropertiesForType (type : String) (properties : Option Properties) : Except HeadlinesError Json :=
  match type, properties with
  | "IMPRESSION", some (.impression feedKind position) => do
      validateFeedKind feedKind
      validatePosition position
      return .object [("feed_kind", .string feedKind), ("position", .int position.toInt)]
  | "OPEN", some (.open feedKind position) => do
      validateFeedKind feedKind
      validatePosition position
      return .object [("feed_kind", .string feedKind), ("position", .int position.toInt)]
  | "DWELL", some (.dwell dwellMs) => do
      validateDwellMs dwellMs
      return .object [("dwell_ms", .int dwellMs.toInt)]
  | "LIKE", some .like => .ok (.object [])
  | "UNLIKE", some .unlike => .ok (.object [])
  | "SHARE", some (.share target) => do
      validateShareTarget target
      return .object [("target", .string target)]
  | type, properties => .error (.eventTypeMismatch type (propertiesSelectorName properties))

/-- From 24 hours before now to 60 seconds after. -/
def validateOccurredAt (occurredAt now : DateTime) : Except HeadlinesError Unit :=
  let lower := now.shifted (-(occurredAtPastWindowHours * 3600))
  let upper := now.shifted occurredAtFutureWindowSeconds
  if occurredAt.key < lower ∨ upper < occurredAt.key then .error (.eventTimestampOutOfRange occurredAt) else .ok ()

/-- A user may only record events of its own. -/
def ownEvent (subject : Subject) (userId : Uuid) : Except HeadlinesError Unit :=
  match subject with
  | .user subjectUserId _ => if userId = subjectUserId then .ok () else .error (.unauthorizedUserId subjectUserId userId)
  | _ => .ok ()

def prepareEvent (service : EventService) (request : RecordEventRequest) (subject : Subject) (now : DateTime) :
    Except HeadlinesError EventRecord := do
  let userId ← parseUuid service.parsers "user_id" request.userId
  let articleId ← parseUuid service.parsers "article_id" request.articleId
  let type ← eventTypeString request.type
  let occurredAt ← (request.occurredAt.bind protoToChrono).elim
    (.error (.invalidArgument "occurred_at" "missing or malformed")) .ok
  validateOccurredAt occurredAt now
  validateSurface service request.surface
  let properties ← validatePropertiesForType type request.properties
  ownEvent subject userId
  return { userId := userId
           articleId := some articleId
           type := ⟨type⟩
           occurredAt := occurredAt.instant
           surface := request.surface
           properties := properties }

def parseFeedKindAndPosition (j : Json) : Except HeadlinesError (String × Int32) := do
  let feedKind ← ((j.getKey "feed_kind").bind Json.asStr).elim
    (.error (.internal "stored event missing feed_kind" .malformed)) .ok
  let position ← ((j.getKey "position").bind Json.asI64).elim
    (.error (.internal "stored event missing position" .malformed)) .ok
  return (feedKind, Int32.ofInt position)

/-- The properties of a stored event. -/
def storedProperties (type : String) (properties : Json) : Except HeadlinesError Properties :=
  match type with
  | "IMPRESSION" => do
      let (feedKind, position) ← parseFeedKindAndPosition properties
      return .impression feedKind position
  | "OPEN" => do
      let (feedKind, position) ← parseFeedKindAndPosition properties
      return .open feedKind position
  | "DWELL" => do
      let dwellMs ← ((properties.getKey "dwell_ms").bind Json.asI64).elim
        (.error (.internal "stored DWELL event missing dwell_ms" .malformed)) .ok
      return .dwell (Int64.ofInt dwellMs)
  | "LIKE" => .ok .like
  | "UNLIKE" => .ok .unlike
  | "SHARE" => do
      let target ← ((properties.getKey "target").bind Json.asStr).elim
        (.error (.internal "stored SHARE event missing target" .malformed)) .ok
      return .share target
  | other => .error (.internal ("stored event has unknown type: " ++ other) .malformed)

def eventToProto (e : Event) : Except HeadlinesError ProtoEvent := do
  let properties ← storedProperties e.type.value e.properties
  return { id := e.id.display
           userId := e.userId.display
           articleId := e.articleId.elim "" Uuid.display
           type := eventTypeFromString e.type.value
           occurredAt := some (tsToProto e.occurredAt)
           receivedAt := some (tsToProto e.receivedAt)
           surface := e.surface
           properties := some properties }

/-- A user, or a system with the scope. -/
def isAuthorizedWriter (subject : Subject) : Bool :=
  match subject with
  | .user .. => true
  | .system .. => subject.hasScope "events.write"
  | _ => false

namespace EventHandler

/-- A repository call. -/
def repo (call : EventDb ρ) : EventHandler ρ := ExceptT.adapt .domain call

/-- A validation or conversion. -/
def check (outcome : Except HeadlinesError ρ) : EventHandler ρ :=
  Autocommit.Throwing.ofExcept (outcome.mapError .domain)

end EventHandler

namespace EventService

def recordEvent (service : EventService) (subject : Subject) (time : Except String Tso)
    (request : RecordEventRequest) : EventHandler ProtoEvent := do
  Autocommit.Throwing.require (isAuthorizedWriter subject) (.permissionDenied "events.write required")
  let now ← EventHandler.check (tsoNow time)
  let prepared ← EventHandler.check (prepareEvent service request subject now)
  let stored ← EventHandler.repo (PgEventRepo.record prepared)
  EventHandler.check (eventToProto stored)

def recordEventBatch (service : EventService) (subject : Subject) (time : Except String Tso)
    (request : RecordEventBatchRequest) : EventHandler RecordEventBatchResponse := do
  Autocommit.Throwing.require (isAuthorizedWriter subject) (.permissionDenied "events.write required")
  Autocommit.Throwing.require (!request.events.isEmpty)
    (.domain (.invalidArgument "events" "must contain at least one event"))
  Autocommit.Throwing.require (decide (request.events.length ≤ service.batchMaxItems))
    (.domain (.batchTooLarge request.events.length service.batchMaxItems))
  let now ← EventHandler.check (tsoNow time)
  let prepared ← EventHandler.check (request.events.mapM fun event => prepareEvent service event subject now)
  let stored ← EventHandler.repo (PgEventRepo.recordBatch prepared)
  let recorded ← EventHandler.check (stored.mapM eventToProto)
  return { recorded := recorded, storedCount := Int32.ofNat stored.length }

/-- The filter of a request; an empty id and a time that no calendar has are none. -/
def listFilter (service : EventService) (request : ListEventsRequest) : Except HeadlinesError ListEventsFilter := do
  let userId ← if request.userId.isEmpty then .ok none
    else some <$> parseUuid service.parsers "user_id" request.userId
  let articleId ← if request.articleId.isEmpty then .ok none
    else some <$> parseUuid service.parsers "article_id" request.articleId
  let types ← request.types.mapM eventTypeString
  return { userId := userId
           articleId := articleId
           types := types.map EventType.mk
           receivedAfter := (request.receivedAfter.bind protoToChrono).map DateTime.instant
           receivedBefore := (request.receivedBefore.bind protoToChrono).map DateTime.instant }

/-- Only a system with the scope reads the log. -/
def isAuthorizedReader (subject : Subject) : Bool :=
  match subject with
  | .system .. => subject.hasScope "events.read"
  | _ => false

def listEvents (service : EventService) (codec : CursorCodec) (database : Database) (subject : Subject)
    (request : ListEventsRequest) : Handler ListEventsResponse := do
  ReadCommitted.Throwing.require (isAuthorizedReader subject) (.permissionDenied "events.read required")
  let filter ← Handler.check (listFilter service request)
  let page ← Handler.repo (PgEventRepo.listBuilt codec database filter request.pageSize ⟨request.pageToken⟩)
  let items ← Handler.check (page.items.mapM eventToProto)
  return { items := items, nextPageToken := page.nextPageToken.value }

end EventService

/-- A call to record events, with its caller and what the time source answers it. -/
inductive EventCall where
  | recordEvent (subject : Subject) (time : Except String Tso) (request : RecordEventRequest)
  | recordEventBatch (subject : Subject) (time : Except String Tso) (request : RecordEventBatchRequest)

inductive EventResponse where
  | event (event : ProtoEvent)
  | batch (response : RecordEventBatchResponse)

namespace EventService

/-- The handler of a call. -/
def handle (service : EventService) : EventCall → EventHandler EventResponse
  | .recordEvent subject time request => .event <$> recordEvent service subject time request
  | .recordEventBatch subject time request => .batch <$> recordEventBatch service subject time request

/-- Calls that record events over one database. -/
def server (service : EventService) :
    Autocommit.System EventStatement.Result Answer EventCall (Except Status EventResponse) Database where
  execute := EventStatement.send
  program call := (service.handle call).run

end EventService

end Headlines.Api
