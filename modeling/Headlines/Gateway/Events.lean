import Headlines.Api.Event

/-! # The event routes of the REST gateway

The body of `POST /v1/events` and the query of `GET /v1/events` become requests of the event service, and its
events become JSON. What is missing or does not parse takes a default.
-/

namespace Headlines.Gateway

open Core Rust Api

/-- RFC 3339 texts of times, read and written. -/
structure Rfc3339 where
  parse : String → Option DateTime
  format : DateTime → String

/-- `str::parse::<i32>`, without its errors. -/
def parseI32 (s : String) : Option Int32 :=
  let number (sign : ℤ) (digits : List Char) : Option Int32 :=
    if digits.isEmpty then none
    else (pushDigits 0 digits).toOption.bind fun magnitude =>
      if -2 ^ 31 ≤ sign * magnitude ∧ sign * magnitude < 2 ^ 31 then some (Int32.ofInt (sign * magnitude)) else none
  match s.toList with
  | '-' :: digits => number (-1) digits
  | '+' :: digits => number 1 digits
  | digits => number 1 digits

variable (rfc : Rfc3339)

def dateTimeToProto (time : DateTime) : ProtoTimestamp := ⟨time.seconds, time.nanos⟩

def parseRfc3339ToProto (s : String) : Option ProtoTimestamp := (rfc.parse s).map dateTimeToProto

/-- A time that no calendar has is written as nothing. -/
def timestampToRfc3339 (ts : ProtoTimestamp) : String := (protoToChrono ts).elim "" rfc.format

/-- The name of a type, with or without its prefix. -/
def parseEventTypeStr (s : String) : Option Int32 :=
  match (stripPrefix "EVENT_TYPE_" s).getD s with
  | "IMPRESSION" => some ProtoEventType.impression.number
  | "OPEN" => some ProtoEventType.open.number
  | "DWELL" => some ProtoEventType.dwell.number
  | "LIKE" => some ProtoEventType.like.number
  | "UNLIKE" => some ProtoEventType.unlike.number
  | "SHARE" => some ProtoEventType.share.number
  | "UNSPECIFIED" => some ProtoEventType.unspecified.number
  | _ => none

def eventTypeStr (value : Int32) : String :=
  match (ProtoEventType.tryFrom value).getD .unspecified with
  | .unspecified => "EVENT_TYPE_UNSPECIFIED"
  | .impression => "EVENT_TYPE_IMPRESSION"
  | .open => "EVENT_TYPE_OPEN"
  | .dwell => "EVENT_TYPE_DWELL"
  | .like => "EVENT_TYPE_LIKE"
  | .unlike => "EVENT_TYPE_UNLIKE"
  | .share => "EVENT_TYPE_SHARE"

/-- A string member, or the empty string. -/
def strField (v : Json) (key : String) : String := ((v.getKey key).bind Json.asStr).getD ""

/-- An integer member, or zero. -/
def intField (v : Json) (key : String) : ℤ := ((v.getKey key).bind Json.asI64).getD 0

/-- The first kind that the object names; a position keeps its low 32 bits. -/
def parseRecordEventProperties (v : Json) : Option Properties :=
  match v.getKey "impression" with
  | some o => some (.impression (strField o "feed_kind") (Int32.ofInt (intField o "position")))
  | none =>
    match v.getKey "open" with
    | some o => some (.open (strField o "feed_kind") (Int32.ofInt (intField o "position")))
    | none =>
      match v.getKey "dwell" with
      | some o => some (.dwell (Int64.ofInt (intField o "dwell_ms")))
      | none =>
        if (v.getKey "like").isSome then some .like
        else if (v.getKey "unlike").isSome then some .unlike
        else (v.getKey "share").map fun o => .share (strField o "target")

def parseRecordEventRequest (v : Json) : RecordEventRequest where
  userId := strField v "user_id"
  articleId := strField v "article_id"
  type := (((v.getKey "type").bind Json.asStr).bind parseEventTypeStr).getD ProtoEventType.unspecified.number
  occurredAt := ((v.getKey "occurred_at").bind Json.asStr).bind (parseRfc3339ToProto rfc)
  surface := strField v "surface"
  properties := (v.getKey "properties").bind parseRecordEventProperties

def eventPropertiesToJson : Option Properties → Json
  | none => .null
  | some (.impression feedKind position) => .object [("impression",
      .object [("feed_kind", .string feedKind), ("position", .int position.toInt)])]
  | some (.open feedKind position) => .object [("open",
      .object [("feed_kind", .string feedKind), ("position", .int position.toInt)])]
  | some (.dwell dwellMs) => .object [("dwell", .object [("dwell_ms", .int dwellMs.toInt)])]
  | some .like => .object [("like", .object [])]
  | some .unlike => .object [("unlike", .object [])]
  | some (.share target) => .object [("share", .object [("target", .string target)])]

def eventToJson (e : ProtoEvent) : Json :=
  .object [
    ("article_id", .string e.articleId),
    ("id", .string e.id),
    ("occurred_at", e.occurredAt.elim .null fun t => .string (timestampToRfc3339 rfc t)),
    ("properties", eventPropertiesToJson e.properties),
    ("received_at", e.receivedAt.elim .null fun t => .string (timestampToRfc3339 rfc t)),
    ("surface", .string e.surface),
    ("type", .string (eventTypeStr e.type)),
    ("user_id", .string e.userId)]

/-- One parameter of the query; of several with one name the last counts, but for the types. -/
def listEventsParam (request : ListEventsRequest) : String × String → ListEventsRequest
  | ("user_id", v) => { request with userId := v }
  | ("article_id", v) => { request with articleId := v }
  | ("page_size", v) => { request with pageSize := (parseI32 v).getD 0 }
  | ("page_token", v) => { request with pageToken := v }
  | ("received_after", v) => { request with receivedAfter := parseRfc3339ToProto rfc v }
  | ("received_before", v) => { request with receivedBefore := parseRfc3339ToProto rfc v }
  | ("types", v) | ("types[]", v) => { request with types := request.types ++ (parseEventTypeStr v).toList }
  | _ => request

/-- The request that the parameters of a query make, in their order. -/
def parseListEventsRequest (qs : List (String × String)) : ListEventsRequest :=
  qs.foldl (listEventsParam rfc)
    { userId := "", articleId := "", pageSize := 0, pageToken := "", types := [],
      receivedAfter := none, receivedBefore := none }

def listEventsResponseToJson (response : ListEventsResponse) : Json :=
  .object [("items", .array (response.items.map (eventToJson rfc))), ("next_page_token", .string response.nextPageToken)]

end Headlines.Gateway
