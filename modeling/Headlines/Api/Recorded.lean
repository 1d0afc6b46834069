import Headlines.Api.Event
import Headlines.Api.Server

/-! # What is recorded of an event

An event that passes the checks is stored with the values of its request, and what is read back from a stored
event are the values that were stored.
-/

namespace Headlines.Api

open Core Store

namespace Properties

/-- The type that goes with the properties. -/
def typeName : Properties → String
  | .impression .. => "IMPRESSION"
  | .open .. => "OPEN"
  | .dwell _ => "DWELL"
  | .like => "LIKE"
  | .unlike => "UNLIKE"
  | .share _ => "SHARE"

/-- What the column holds for them. -/
def toStored : Properties → Json
  | .impression feedKind position | .open feedKind position =>
      .object [("feed_kind", .string feedKind), ("position", .int position.toInt)]
  | .dwell dwellMs => .object [("dwell_ms", .int dwellMs.toInt)]
  | .like | .unlike => .object []
  | .share target => .object [("target", .string target)]

/-- The checks on the values. -/
def validate : Properties → Except HeadlinesError Unit
  | .impression feedKind position | .open feedKind position => do
      validateFeedKind feedKind
      validatePosition position
  | .dwell dwellMs => validateDwellMs dwellMs
  | .like | .unlike => .ok ()
  | .share target => validateShareTarget target

end Properties

/-- What a request may name is a type that goes with some properties. -/
private theorem typeName_of_eventTypeString {t : Int32} {type : String} (named : eventTypeString t = .ok type) :
    ∃ kind : Properties, type = kind.typeName := by
  unfold eventTypeString at named
  cases kind : (ProtoEventType.tryFrom t).getD .unspecified <;> rw [kind] at named <;> cases named
  case impression => exact ⟨.impression "" 0, rfl⟩
  case «open» => exact ⟨.open "" 0, rfl⟩
  case dwell => exact ⟨.dwell 0, rfl⟩
  case like => exact ⟨.like, rfl⟩
  case unlike => exact ⟨.unlike, rfl⟩
  case share => exact ⟨.share "", rfl⟩

/-- Properties that pass under the name of a type are those that go with it. -/
private theorem selected_of_validated {kind : Properties} {properties : Option Properties} {json : Json}
    (validated : validatePropertiesForType kind.typeName properties = .ok json) :
    ∃ given, properties = some given ∧ kind.typeName = given.typeName := by
  cases kind <;> match properties, validated with
    | some given, validated => cases given <;> first
      | exact ⟨_, rfl, rfl⟩
      | contradiction

/-- What is stored is properties that pass their checks, under the type that goes with them. -/
theorem validatePropertiesForType_ok {t : Int32} {type : String} (named : eventTypeString t = .ok type)
    {properties : Option Properties} {json : Json} :
    validatePropertiesForType type properties = .ok json ↔
      ∃ given, properties = some given ∧ type = given.typeName ∧ given.validate = .ok () ∧ json = given.toStored := by
  constructor
  · intro validated
    obtain ⟨kind, rfl⟩ := typeName_of_eventTypeString named
    obtain ⟨given, rfl, same⟩ := selected_of_validated validated
    rw [same] at validated
    refine ⟨given, rfl, same, ?_⟩
    cases given with
    | like | unlike =>
      obtain rfl := Except.ok.inj validated
      exact ⟨rfl, rfl⟩
    | impression feedKind position | «open» feedKind position =>
      obtain ⟨_, kind, validated⟩ := Except.bind_eq_ok.mp validated
      obtain ⟨_, place, same⟩ := Except.bind_eq_ok.mp validated
      obtain rfl := Except.ok.inj same
      exact ⟨Except.bind_eq_ok.mpr ⟨_, kind, place⟩, rfl⟩
    | dwell _ | share _ =>
      obtain ⟨_, checked, same⟩ := Except.bind_eq_ok.mp validated
      obtain rfl := Except.ok.inj same
      exact ⟨checked, rfl⟩
  · rintro ⟨given, rfl, rfl, checked, rfl⟩
    cases given with
    | like | unlike => rfl
    | impression feedKind position | «open» feedKind position =>
      obtain ⟨_, kind, place⟩ := Except.bind_eq_ok.mp checked
      exact Except.bind_eq_ok.mpr ⟨_, kind, Except.bind_eq_ok.mpr ⟨_, place, rfl⟩⟩
    | dwell _ | share _ => exact Except.bind_eq_ok.mpr ⟨_, checked, rfl⟩

/-- Every type but the unspecified one has a name of its own. -/
theorem eventTypeFromString_of_eventTypeString {t : Int32} {type : String} (named : eventTypeString t = .ok type) :
    eventTypeFromString type = t := by
  have number (kind : ProtoEventType) (found : ProtoEventType.tryFrom t = some kind) : kind.number = t := by
    have holds := List.find?_some found
    exact of_decide_eq_true holds
  unfold eventTypeString at named
  cases found : ProtoEventType.tryFrom t with
  | none =>
    rw [found] at named
    contradiction
  | some kind =>
    rw [found] at named
    rw [← number kind found]
    cases kind <;> cases named <;> rfl

/-- An integer of 32 bits is read back. -/
private theorem asI64_int32 (value : Int32) : (Json.int value.toInt).asI64 = some value.toInt := by
  have := value.le_toInt
  have := value.toInt_lt
  exact Json.asI64_eq_some.mpr ⟨rfl, by omega, by omega⟩

/-- What is read back is what was stored, whether or not it passed any check. -/
theorem storedProperties_toStored (given : Properties) : storedProperties given.typeName given.toStored = .ok given := by
  have place (feedKind : String) (position : Int32) :
      parseFeedKindAndPosition (Properties.impression feedKind position).toStored = .ok (feedKind, position) := by
    refine Except.bind_eq_ok.mpr ⟨feedKind, rfl, Except.bind_eq_ok.mpr ⟨position.toInt, ?_, ?_⟩⟩
    · exact congrArg (fun read => Option.elim read _ _) (asI64_int32 position)
    · exact congrArg (fun number => Except.ok (feedKind, number)) (Int32.ofInt_toInt position)
  cases given with
  | like | unlike | share target => rfl
  | impression feedKind position | «open» feedKind position =>
    exact Except.bind_eq_ok.mpr ⟨_, place feedKind position, rfl⟩
  | dwell dwellMs =>
    have read : (Json.int dwellMs.toInt).asI64 = some dwellMs.toInt :=
      Json.asI64_eq_some.mpr ⟨rfl, dwellMs.le_toInt, dwellMs.toInt_lt⟩
    refine Except.bind_eq_ok.mpr ⟨dwellMs.toInt, ?_, ?_⟩
    · exact congrArg (fun read => Option.elim read _ _) read
    · exact congrArg (fun number => Except.ok (Properties.dwell number)) (Int64.ofInt_toInt dwellMs)

/-- A record that holds the values of a request, which pass their checks. -/
structure Prepared (service : EventService) (subject : Subject) (now : DateTime) (request : RecordEventRequest)
    (record : EventRecord) : Prop where
  userId : service.parsers.uuid request.userId = .ok record.userId
  articleId : ∃ id, service.parsers.uuid request.articleId = .ok id ∧ record.articleId = some id
  type : eventTypeString request.type = .ok record.type.value
  occurredAt : ∃ time, request.occurredAt.bind protoToChrono = some time ∧ validateOccurredAt time now = .ok () ∧
    record.occurredAt = time.instant
  surface : record.surface = request.surface ∧ validateSurface service request.surface = .ok ()
  properties : ∃ given, request.properties = some given ∧ record.type.value = given.typeName ∧
    given.validate = .ok () ∧ record.properties = given.toStored
  own : ownEvent subject record.userId = .ok ()

private theorem elim_eq_ok {value : Option ρ} {error : HeadlinesError} {result : ρ}
    (given : value.elim (.error error) .ok = Except.ok result) : value = some result := by
  cases value with
  | none => contradiction
  | some value => exact congrArg some (Except.ok.inj given)

theorem prepared_of_prepareEvent {service : EventService} {subject : Subject} {now : DateTime}
    {request : RecordEventRequest} {record : EventRecord}
    (prepared : prepareEvent service request subject now = .ok record) :
    Prepared service subject now request record := by
  obtain ⟨userId, user, prepared⟩ := Except.bind_eq_ok.mp prepared
  obtain ⟨articleId, article, prepared⟩ := Except.bind_eq_ok.mp prepared
  obtain ⟨type, named, prepared⟩ := Except.bind_eq_ok.mp prepared
  obtain ⟨time, occurred, prepared⟩ := Except.bind_eq_ok.mp prepared
  obtain ⟨_, window, prepared⟩ := Except.bind_eq_ok.mp prepared
  obtain ⟨_, surface, prepared⟩ := Except.bind_eq_ok.mp prepared
  obtain ⟨properties, validated, prepared⟩ := Except.bind_eq_ok.mp prepared
  obtain ⟨_, own, prepared⟩ := Except.bind_eq_ok.mp prepared
  obtain rfl := Except.ok.inj prepared
  exact {
    userId := Except.mapError_eq_ok.mp user
    articleId := ⟨articleId, Except.mapError_eq_ok.mp article, rfl⟩
    type := named
    occurredAt := ⟨time, elim_eq_ok occurred, window, rfl⟩
    surface := ⟨rfl, surface⟩
    properties := (validatePropertiesForType_ok named).mp validated
    own := own }

/-- The answer for a record that was stored. -/
def Prepared.answer (request : RecordEventRequest) (record : EventRecord) (id : Uuid) (receivedAt : Timestamp) :
    ProtoEvent where
  id := id.display
  userId := record.userId.display
  articleId := record.articleId.elim "" Uuid.display
  type := request.type
  occurredAt := some (tsToProto record.occurredAt.stored)
  receivedAt := some (tsToProto receivedAt.stored)
  surface := request.surface
  properties := request.properties

/-- The row of a prepared record is answered with the values of its request. -/
theorem Prepared.eventToProto {service : EventService} {subject : Subject} {now : DateTime}
    {request : RecordEventRequest} {record : EventRecord} (prepared : Prepared service subject now request record)
    (id : Uuid) (receivedAt : Timestamp) :
    eventToProto (PgEventRepo.insertEvent record id receivedAt).stored.toEvent =
      .ok (answer request record id receivedAt) := by
  obtain ⟨given, selected, named, -, stored⟩ := prepared.properties
  have read : storedProperties record.type.value record.properties = .ok given := by
    rw [named, stored, storedProperties_toStored]
  refine Except.bind_eq_ok.mpr ⟨given, read, ?_⟩
  have type := eventTypeFromString_of_eventTypeString prepared.type
  simp only [EventRow.stored, EventRow.toEvent, PgEventRepo.insertEvent, answer, type, prepared.surface.1, selected]
  rfl

namespace Sample

def eventService : EventService := ⟨parsers, fun c => String.ofList ['\'', c, '\''], defaultEventsBatchMaxItems⟩

/-- A database without rows. -/
def noRows : Database := .empty

/-- A system that may record events and read them. -/
def collector : Subject := .system ⟨5⟩ ⟨6⟩ ["events.*"]

/-- A user, with the id of `accountText`. -/
def reader : Subject := .user account ⟨7⟩

/-- A like of the article by the reader, at the epoch. -/
def like : RecordEventRequest where
  userId := accountText
  articleId := articleText
  type := 4
  occurredAt := some ⟨0, 0⟩
  surface := "web"
  properties := some .like

/-- Identifiers that count up, and a clock that stands still. -/
def answers (n : ℕ) : (question : Question) → Answer question
  | .now => 0
  | .nowV7 => ⟨n⟩

end Sample

end Headlines.Api
