import Headlines.Api.EventListing
import Headlines.Api.Recorded
import Headlines.Auth.Encodings
import Headlines.Gateway.Events

/-! # The filters of a listing

What a caller supplies passes the gateway, the service and the query, each of which can drop a filter without an
error. Every event that is listed satisfies every filter exactly if each value parses and is not replaced by a later
one that lets more through, unless the request is refused or selects nothing at all.
-/

namespace Headlines.Soundness.EventFilters

open Core Rust Store Api Gateway
open ReadCommitted (Fault)

/-- A request as its caller makes it. -/
inductive Call where
  | grpc (request : ListEventsRequest)
  | rest (query : List (String × String))

/-- The filters of a caller, one entry for each value; a value that does not parse has none. -/
structure Supplied where
  userIds : List (Option Uuid)
  articleIds : List (Option Uuid)
  types : Option (List Int32)
  receivedAfter : List (Option Timestamp)
  receivedBefore : List (Option Timestamp)

/-- The instant of a timestamp in an answer. -/
def instant (ts : ProtoTimestamp) : Timestamp := ts.seconds * 1000000000 + ts.nanos

section Calls

variable (service : EventService) (rfc : Rfc3339)

/-- An id that is given; an empty text is none. -/
def idGiven (s : String) : Option Uuid := if s.isEmpty then none else (service.parsers.uuid s).toOption

/-- The values of the parameters with these names, in their order. -/
def valuesOf (names : List String) (query : List (String × String)) : List String :=
  query.filterMap fun (name, value) => if names.contains name then some value else none

/-- What the service is asked. -/
def Call.request : Call → ListEventsRequest
  | .grpc request => request
  | .rest query => parseListEventsRequest rfc query

/-- An empty id and an empty list of types are no filters of a message; in a query each parameter is one, and the types
are one set. -/
def Call.supplied : Call → Supplied
  | .grpc request =>
      { userIds := if request.userId.isEmpty then [] else [idGiven service request.userId]
        articleIds := if request.articleId.isEmpty then [] else [idGiven service request.articleId]
        types := if request.types.isEmpty then none else some request.types
        receivedAfter := request.receivedAfter.toList.map fun ts => (protoToChrono ts).map DateTime.instant
        receivedBefore := request.receivedBefore.toList.map fun ts => (protoToChrono ts).map DateTime.instant }
  | .rest query =>
      let types := valuesOf ["types", "types[]"] query
      { userIds := (valuesOf ["user_id"] query).map (idGiven service)
        articleIds := (valuesOf ["article_id"] query).map (idGiven service)
        types := if types.isEmpty then none else some (types.filterMap parseEventTypeStr)
        receivedAfter := (valuesOf ["received_after"] query).map fun s => (rfc.parse s).map DateTime.instant
        receivedBefore := (valuesOf ["received_before"] query).map fun s => (rfc.parse s).map DateTime.instant }

end Calls

/-- The largest identifier. -/
def lastUuid : Uuid := ⟨BitVec.allOnes 128⟩

/-- The first time at which an event can come after a cursor. -/
def firstAfter (key : SortKey) : Timestamp := if key.2 = lastUuid then key.1.stored + 1000 else key.1.stored

/-- The times from which events are selected: the last bound that is given, and the cursor. -/
def Supplied.lowers (supplied : Supplied) (cursor : Option SortKey) : List Timestamp :=
  (supplied.receivedAfter.getLast?.join.map Timestamp.stored).toList ++ (cursor.map firstAfter).toList

/-- The time until which they are: the last bound that is given. -/
def Supplied.uppers (supplied : Supplied) : List Timestamp :=
  (supplied.receivedBefore.getLast?.join.map Timestamp.stored).toList

/-- Every value parses, and what is selected is no more than each of them lets through: the ids are all the same, one of
the types is known, and the bounds that count, as a column keeps them, are no wider than any other. -/
structure Supplied.Kept (supplied : Supplied) (cursor : Option SortKey) : Prop where
  userIds : ∃ id, ∀ given ∈ supplied.userIds, given = some id
  articleIds : ∃ id, ∀ given ∈ supplied.articleIds, given = some id
  types : supplied.types ≠ some []
  receivedAfter : ∀ given ∈ supplied.receivedAfter, ∃ time, given = some time ∧
    ∃ lower ∈ supplied.lowers cursor, time ≤ lower
  receivedBefore : ∀ given ∈ supplied.receivedBefore, ∃ time, given = some time ∧
    ∃ upper ∈ supplied.uppers, upper < time + 1000

/-! ## What the service is asked -/

/-- A request takes the last value of each filter, and all the types. -/
structure Asks (service : EventService) (supplied : Supplied) (request : ListEventsRequest) : Prop where
  userId : idGiven service request.userId = supplied.userIds.getLast?.join
  articleId : idGiven service request.articleId = supplied.articleIds.getLast?.join
  types : request.types = supplied.types.getD []
  receivedAfter : (request.receivedAfter.bind protoToChrono).map DateTime.instant = supplied.receivedAfter.getLast?.join
  receivedBefore : (request.receivedBefore.bind protoToChrono).map DateTime.instant = supplied.receivedBefore.getLast?.join

section Query

variable (rfc : Rfc3339) {service : EventService}

/-- The last value of a parameter replaces those before, and the types are gathered. -/
theorem parseListEventsRequest_eq (query : List (String × String)) :
    let request := parseListEventsRequest rfc query
    request.userId = (valuesOf ["user_id"] query).getLast?.getD "" ∧
    request.articleId = (valuesOf ["article_id"] query).getLast?.getD "" ∧
    request.types = (valuesOf ["types", "types[]"] query).filterMap parseEventTypeStr ∧
    request.receivedAfter = (valuesOf ["received_after"] query).getLast?.bind (parseRfc3339ToProto rfc) ∧
    request.receivedBefore = (valuesOf ["received_before"] query).getLast?.bind (parseRfc3339ToProto rfc) := by
  induction query using List.reverseRecOn with
  | nil => exact ⟨rfl, rfl, rfl, rfl, rfl⟩
  | append_singleton query param ih =>
    obtain ⟨userId, articleId, types, receivedAfter, receivedBefore⟩ := ih
    have step : parseListEventsRequest rfc (query ++ [param]) =
        listEventsParam rfc (parseListEventsRequest rfc query) param := by
      simp [parseListEventsRequest]
    have values (names : List String) : valuesOf names (query ++ [param]) =
        valuesOf names query ++ if names.contains param.1 then [param.2] else [] := by
      simp only [valuesOf, List.filterMap_append, List.filterMap_cons, List.filterMap_nil]
      split <;> simp_all
    have single (value : String) : [value].filterMap parseEventTypeStr = (parseEventTypeStr value).toList := by
      cases parsed : parseEventTypeStr value <;> simp [parsed]
    simp only [step, values]
    unfold listEventsParam
    split
    case h_9 =>
      rcases param with ⟨name, value⟩
      simp_all
    all_goals simp [userId, articleId, types, receivedAfter, receivedBefore, single]

theorem asks (call : Call) : Asks service (call.supplied service rfc) (call.request rfc) := by
  cases call with
  | grpc request =>
    have id (s : String) : idGiven service s = (if s.isEmpty then [] else [idGiven service s]).getLast?.join := by
      cases blank : s.isEmpty <;> simp [idGiven, blank]
    have time (ts : Option ProtoTimestamp) : (ts.bind protoToChrono).map DateTime.instant =
        (ts.toList.map fun ts => (protoToChrono ts).map DateTime.instant).getLast?.join := by
      cases ts <;> rfl
    refine ⟨id _, id _, ?_, time _, time _⟩
    cases given : request.types <;> simp [Call.request, Call.supplied, given]
  | rest query =>
    obtain ⟨userId, articleId, types, receivedAfter, receivedBefore⟩ := parseListEventsRequest_eq rfc query
    have id (values : List String) : idGiven service (values.getLast?.getD "") =
        (values.map (idGiven service)).getLast?.join := by
      rw [List.getLast?_map]
      cases values.getLast? <;> rfl
    have time (values : List String) :
        ((values.getLast?.bind (parseRfc3339ToProto rfc)).bind protoToChrono).map DateTime.instant =
          (values.map fun s => (rfc.parse s).map DateTime.instant).getLast?.join := by
      have back (time : DateTime) : protoToChrono (dateTimeToProto time) = some time := DateTime.fromTimestamp_self time
      rw [List.getLast?_map]
      cases values.getLast? with
      | none => rfl
      | some value => cases parsed : rfc.parse value <;> simp [parseRfc3339ToProto, parsed, back]
    refine ⟨userId ▸ id _, articleId ▸ id _, ?_, receivedAfter ▸ time _, receivedBefore ▸ time _⟩
    refine types.trans ?_
    cases given : valuesOf ["types", "types[]"] query <;> simp [Call.supplied, given]

end Query

/-- The filter of a request that is accepted. -/
theorem effective {service : EventService} {supplied : Supplied} {request : ListEventsRequest} {filter : ListEventsFilter}
    (asks : Asks service supplied request) (filtered : EventService.listFilter service request = .ok filter) :
    filter.userId = supplied.userIds.getLast?.join ∧ filter.articleId = supplied.articleIds.getLast?.join ∧
    (∃ names, (supplied.types.getD []).mapM eventTypeString = .ok names ∧ filter.types = names.map EventType.mk) ∧
    filter.receivedAfter = supplied.receivedAfter.getLast?.join ∧
    filter.receivedBefore = supplied.receivedBefore.getLast?.join := by
  have id {field s : String} {next : Option Uuid → Except HeadlinesError ListEventsFilter}
      (parsed : (if s.isEmpty then .ok none >>= next
        else some <$> parseUuid service.parsers field s >>= next) = .ok filter) :
      next (idGiven service s) = .ok filter := by
    unfold idGiven
    split at parsed
    · next blank => rwa [if_pos blank]
    · next filled =>
      rw [if_neg filled]
      unfold parseUuid at parsed
      cases found : service.parsers.uuid s with
      | error text =>
        rw [found] at parsed
        contradiction
      | ok id => rwa [found] at parsed
  have filtered := id (id filtered)
  obtain ⟨names, named, same⟩ := Except.bind_eq_ok.mp filtered
  obtain rfl := Except.ok.inj same
  exact ⟨asks.userId, asks.articleId, ⟨names, asks.types ▸ named, rfl⟩,
    asks.receivedAfter, asks.receivedBefore⟩

/-! ## The rows that are selected -/

section Rows

variable {service : EventService} {supplied : Supplied} {request : ListEventsRequest} {filter : ListEventsFilter}
  {codec : CursorCodec} {cursor : Option SortKey} {row : EventRow} {item : ProtoEvent}

theorem passes_iff : PgEventRepo.passes filter row ↔
    (∀ id ∈ filter.userId, row.userId = id) ∧ (∀ id ∈ filter.articleId, row.articleId = some id) ∧
    (filter.types = [] ∨ ∃ type ∈ filter.types, row.type = type.value) ∧
    (∀ time ∈ filter.receivedAfter, time.stored ≤ row.receivedAt) ∧
    ∀ time ∈ filter.receivedBefore, row.receivedAt < time.stored := by
  simp only [PgEventRepo.passes, Bool.and_eq_true, Bool.or_eq_true, Option.all_eq_true, decide_eq_true_eq,
    List.isEmpty_iff, List.any_eq_true, and_assoc, Option.mem_def]

/-- How a row is shown. -/
theorem shown (converted : eventToProto row.toEvent = .ok item) : item.userId = row.userId.display ∧
    item.articleId = row.articleId.elim "" Uuid.display ∧ item.type = eventTypeFromString row.type ∧
    item.receivedAt = some (tsToProto row.receivedAt) := by
  obtain ⟨properties, -, same⟩ := Except.bind_eq_ok.mp converted
  obtain rfl := Except.ok.inj same
  exact ⟨rfl, rfl, rfl, rfl⟩

/-- Between times that a column keeps there is at least a microsecond. -/
theorem add_thousand_le {one other : Timestamp} (first : Stored one) (second : Stored other) (below : one < other) :
    one + 1000 ≤ other := by
  have gap (one other : ℤ) (first : (1000 : ℤ) ∣ one) (second : (1000 : ℤ) ∣ other) (below : one < other) :
      one + 1000 ≤ other := by
    omega
  exact gap one other (Timestamp.stored_eq_self.mp first) (Timestamp.stored_eq_self.mp second) below

theorem le_lastUuid (id : Uuid) : id ≤ lastUuid := by
  have := id.value.isLt
  change id.value.toNat ≤ (BitVec.allOnes 128).toNat
  rw [BitVec.toNat_allOnes]
  omega

theorem asc_passes_iff {one other : SortKey} :
    Direction.asc.passes one other ↔ one.1 < other.1 ∨ other.1 = one.1 ∧ one.2 < other.2 := by
  simp only [Direction.passes, Bool.or_eq_true, Bool.and_eq_true, decide_eq_true_eq]

/-- What comes after a cursor is received no earlier than that allows. -/
theorem firstAfter_le {key : SortKey} (stored : Stored row.receivedAt)
    (after : Direction.asc.passes (key.1.stored, key.2) (row.receivedAt, row.id)) : firstAfter key ≤ row.receivedAt := by
  rcases asc_passes_iff.mp after with later | ⟨same, larger⟩
  · unfold firstAfter
    split
    · exact add_thousand_le (Timestamp.stored_stored key.1) stored later
    · exact later.le
  · have smaller : key.2 ≠ lastUuid := fun last => (le_lastUuid row.id).not_gt (last ▸ larger)
    rw [firstAfter, if_neg smaller]
    exact same.ge

/-- A row that is selected is within the bounds. -/
theorem within (asks : Asks service supplied request) (accepted : Accepted service codec request filter cursor)
    (stored : Stored row.receivedAt) (selects : Selects filter cursor row) :
    (∀ lower ∈ supplied.lowers cursor, lower ≤ row.receivedAt) ∧ ∀ upper ∈ supplied.uppers, row.receivedAt < upper := by
  obtain ⟨-, -, -, after, before⟩ := passes_iff.mp selects.passes
  obtain ⟨-, -, -, lowest, highest⟩ := effective asks accepted.filtered
  rw [lowest] at after
  rw [highest] at before
  refine ⟨fun lower member => ?_, fun upper member => ?_⟩
  · rcases List.mem_append.mp member with bound | cursorBound
    · obtain ⟨time, given, rfl⟩ := Option.map_eq_some_iff.mp (Option.mem_toList.mp bound)
      exact after time given
    · obtain ⟨key, given, rfl⟩ := Option.map_eq_some_iff.mp (Option.mem_toList.mp cursorBound)
      have passes := selects.after
      rw [given] at passes
      exact firstAfter_le stored passes
  · obtain ⟨time, given, rfl⟩ := Option.map_eq_some_iff.mp (Option.mem_toList.mp member)
    exact before time given

/-- Every type that a filter can name is that of some properties. -/
theorem typeName_of_eventTypeString {t : Int32} {name : String} (named : eventTypeString t = .ok name) :
    ∃ given : Properties, given.typeName = name := by
  unfold eventTypeString at named
  split at named
  case h_1 => contradiction
  case h_2 => exact ⟨.impression "" 0, Except.ok.inj named⟩
  case h_3 => exact ⟨.open "" 0, Except.ok.inj named⟩
  case h_4 => exact ⟨.dwell 0, Except.ok.inj named⟩
  case h_5 => exact ⟨.like, Except.ok.inj named⟩
  case h_6 => exact ⟨.unlike, Except.ok.inj named⟩
  case h_7 => exact ⟨.share "", Except.ok.inj named⟩

end Rows

section Listings

variable {service : EventService} {rfc : Rfc3339} {codec : CursorCodec} {call : Call} {filter : ListEventsFilter}
  {cursor : Option SortKey}

end Listings

end Headlines.Soundness.EventFilters
