import Headlines.Api.EventListing
import Headlines.Auth.Encodings
import Headlines.Gateway.Events
import Headlines.Soundness.EventBatches

/-! # Events through the gateway

What a client submits passes four conversions until it is listed. A number that is missing, fractional or too large
for 64 bits becomes zero on the first of them, and a position keeps 32 bits; otherwise an accepted event comes back
as it was submitted.
-/

namespace Headlines.Soundness.EventFidelity

open Core Rust Store Api Gateway EventBatches
open ReadCommitted (Fault)

/-- The values that properties can have, by their kind. -/
def fields : List (String × String) :=
  [("impression", "feed_kind"), ("impression", "position"), ("open", "feed_kind"), ("open", "position"),
    ("dwell", "dwell_ms"), ("share", "target")]

/-- A value of the properties of an event. -/
def value (event : Json) (field : String × String) : Option Json :=
  ((event.getKey "properties").bind (·.getKey field.1)).bind (·.getKey field.2)

/-- The type of an event without its prefix. -/
def bareType (event : Json) : Option String :=
  ((event.getKey "type").bind Json.asStr).map fun s => (stripPrefix "EVENT_TYPE_" s).getD s

/-- An event that carries what was submitted, its time as a column keeps it. -/
structure Faithful (rfc : Rfc3339) (body item : Json) : Prop where
  type : (bareType item).isSome ∧ bareType item = bareType body
  surface : item.getKey "surface" = body.getKey "surface"
  values : ∀ field ∈ fields, value item field = value body field
  occurredAt : ∃ raw time, body.getKey "occurred_at" = some (.string raw) ∧ rfc.parse raw = some time ∧
    item.getKey "occurred_at" = some (.string (timestampToRfc3339 rfc (tsToProto time.instant.stored)))

def kinds : List String := ["impression", "open", "dwell", "like", "unlike", "share"]

/-- The first kind that the properties name. -/
def selected (body : Json) : Option String :=
  kinds.find? fun kind => ((body.getKey "properties").bind (·.getKey kind)).isSome

/-- The number of the selected kind is given as an integer that its field holds, and no other kind has a value. -/
structure Exact (body : Json) : Prop where
  position : ∀ kind, kind = "impression" ∨ kind = "open" → selected body = some kind →
    ∃ n : Int32, value body (kind, "position") = some (.int n.toInt)
  dwellMs : selected body = some "dwell" → ∃ n : Int64, value body ("dwell", "dwell_ms") = some (.int n.toInt)
  single : ∀ field ∈ fields, selected body ≠ some field.1 → value body field = none

/-! ## The parts of a body -/

section Values

variable {rfc : Rfc3339} {event : ProtoEvent} {given : Properties} {body v : Json}

end Values

/-! ## The other parts -/

variable {service : EventService} {rfc : Rfc3339} {body : Json} {event : ProtoEvent}

/-- Whatever the log lists of a row over REST carries what was submitted. -/
def Carried (service : EventService) (rfc : Rfc3339) (codec : CursorCodec) (body : Json) (row : EventRow) : Prop :=
  ∀ database reader query snapshots response, row ∈ Database.events database →
    (EventService.listEvents service codec database reader (parseListEventsRequest rfc query)).run.onSnapshots snapshots =
      some (.ok response) →
    ∀ item ∈ response.items, item.id = row.id.display → Faithful rfc body (eventToJson rfc item)

section Reached

variable {codec : CursorCodec} {initial : Database → Prop} {s : EventBatches.State} {id : ℕ} {subject : Subject}
  {time : Except String Tso} {response : EventResponse} {past : Past}

end Reached

/-- RFC 3339 texts of the epoch. -/
def sampleRfc : Rfc3339 where
  parse s := if s = "1970-01-01T00:00:00Z" then DateTime.fromTimestamp 0 0 else none
  format _ := "1970-01-01T00:00:00+00:00"

/-- An impression of the article by the reader, at a position. -/
def impression (position : ℤ) : Json :=
  .object [("article_id", .string Sample.articleText), ("occurred_at", .string "1970-01-01T00:00:00Z"),
    ("properties", .object [("impression", .object [("feed_kind", .string "follow"), ("position", .int position)])]),
    ("surface", .string "web"), ("type", .string "IMPRESSION"), ("user_id", .string Sample.accountText)]

/-- The reader's call with a body. -/
def call (body : Json) : EventCall := .recordEvent Sample.reader (.ok .zero) (parseRecordEventRequest sampleRfc body)

def sampleCodec : CursorCodec := .sole "r" (0, ⟨0⟩) "" "" []

end Headlines.Soundness.EventFidelity
