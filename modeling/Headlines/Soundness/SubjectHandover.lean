import Headlines.Auth.TrustedSubject
import Headlines.Gateway.Visible

/-! # The subject on the trusted listener

The gateway writes the subject as JSON into a header, which holds visible ASCII. Control characters are escaped in
JSON; what is not ASCII is not, nor is the delete character.
-/

namespace Headlines.Soundness.SubjectHandover

open Core Auth Gateway

/-- Text of visible ASCII is a header value, and only such a value is text. -/
structure Converts (types : HeaderTypes) : Prop where
  keeps : ∀ text value, types.metadataValue text = some value → value = text
  holds : ∀ text, Visible text → (types.metadataValue text).isSome
  reads : ∀ value raw, types.toStr value = some raw ↔ Visible value ∧ bytes raw = value

/-- The ids of a subject. -/
def idsOf : Subject → List Uuid
  | .user id keyId | .account id keyId | .system id keyId _ => [id, keyId]
  | .anonymous => []

/-- The JSON of the subject and its ids are parsed as they are printed. -/
structure Parses (parsers : SubjectParsers) (subject : Subject) : Prop where
  json : ∀ raw, bytes raw = (subjectToJson subject).toVec → parsers.json raw = some (subjectToJson subject)
  uuid : ∀ id ∈ idsOf subject, parsers.uuid id.display = some id

/-- All scopes are ASCII without the delete character. -/
def Plain (subject : Subject) : Prop := ∀ scope ∈ grantedScopes subject, ∀ byte ∈ bytes scope, byte < 127

/-! ## What is visible -/

section Visibility

theorem visible_append {left right : List UInt8} : Visible (left ++ right) ↔ Visible left ∧ Visible right :=
  List.forall_mem_append

theorem visible_cons {byte : UInt8} {rest : List UInt8} : Visible (byte :: rest) ↔ visibleAscii byte = true ∧ Visible rest :=
  List.forall_mem_cons

theorem visible_escape (byte : UInt8) : Visible (Json.escape byte) ↔ byte < 127 := by
  have all : ∀ n : Fin 256, Visible (Json.escape (UInt8.ofNat n)) ↔ UInt8.ofNat n < 127 := by decide +kernel
  have same : UInt8.ofNat byte.toNat = byte := UInt8.ofNat_toNat
  rw [← same]
  exact all ⟨byte.toNat, byte.toNat_lt⟩

theorem visible_quote {s : String} : Visible (Json.quote s) ↔ ∀ byte ∈ bytes s, byte < 127 := by
  have ends : Visible [34] := by decide
  have escaped : Visible ((bytes s).flatMap Json.escape) ↔ ∀ byte ∈ bytes s, byte < 127 := by
    constructor
    · intro visible byte member
      refine (visible_escape byte).mp fun inner found => visible inner ?_
      exact List.mem_flatMap.mpr ⟨byte, member, found⟩
    · intro small
      exact .flatMap fun byte member => (visible_escape byte).mpr (small byte member)
  rw [Json.quote, visible_append, visible_cons, escaped, and_iff_left ends, and_iff_right (by decide)]

theorem visible_elements {items : List Json} : Visible (Json.elements items) ↔ ∀ item ∈ items, Visible item.toVec := by
  constructor
  · intro visible
    induction items with
    | nil => exact List.forall_mem_nil _
    | cons item rest ih =>
      cases rest with
      | nil =>
        rw [Json.elements] at visible
        exact List.forall_mem_singleton.mpr visible
      | cons next rest =>
        rw [Json.elements, visible_append, visible_cons] at visible
        · exact List.forall_mem_cons.mpr ⟨visible.1, ih visible.2.2⟩
        · exact List.cons_ne_nil _ _
  · exact Visible.elements

/-- The text whose characters have the given codes. -/
def textOf (text : List UInt8) : String := String.ofList (text.map fun byte => Char.ofNat byte.toNat)

theorem bytes_textOf {text : List UInt8} (visible : Visible text) : bytes (textOf text) = text := by
  have all : ∀ n : Fin 256, visibleAscii (UInt8.ofNat n) = true →
      String.utf8EncodeChar (Char.ofNat (UInt8.ofNat n).toNat) = [UInt8.ofNat n] := by decide +kernel
  rw [textOf, bytes_ofList, List.flatMap_map]
  induction text with
  | nil => rfl
  | cons byte rest ih =>
    obtain ⟨first, others⟩ := visible_cons.mp visible
    have same : UInt8.ofNat byte.toNat = byte := UInt8.ofNat_toNat
    have single : String.utf8EncodeChar (Char.ofNat byte.toNat) = [byte] := by
      rw [← same] at first ⊢
      exact all ⟨byte.toNat, byte.toNat_lt⟩ first
    rw [List.flatMap_cons, single, ih others, List.singleton_append]

theorem visible_id (id : Uuid) : Visible (Json.string id.display).toVec := (visible_display id).string

/-- The JSON of a subject is visible if and only if its scopes are plain. -/
theorem visible_subject (subject : Subject) : Visible (subjectToJson subject).toVec ↔ Plain subject := by
  cases subject with
  | user userId keyId =>
    exact iff_of_true (visible_subjectToJson (List.forall_mem_nil _)) (List.forall_mem_nil _)
  | account accountId keyId =>
    exact iff_of_true (visible_subjectToJson (List.forall_mem_nil _)) (List.forall_mem_nil _)
  | anonymous => exact iff_of_true (visible_subjectToJson (List.forall_mem_nil _)) (List.forall_mem_nil _)
  | system systemId keyId scopes =>
    have scopesVisible : Visible (Json.elements (scopes.map .string)) ↔ Plain (.system systemId keyId scopes) := by
      rw [visible_elements, List.forall_mem_map]
      refine forall₂_congr fun scope _ => ?_
      rw [Json.toVec, visible_quote]
    have system : Visible (Json.quote "System") := Visible.quote (by decide)
    have idName : Visible (Json.quote "system_id") := Visible.quote (by decide)
    have keyName : Visible (Json.quote "key_id") := Visible.quote (by decide)
    have scopesName : Visible (Json.quote "scopes") := Visible.quote (by decide)
    have id (id : Uuid) : Visible (Json.quote id.display) := by
      have whole := visible_id id
      rwa [Json.toVec] at whole
    have braces : visibleAscii 123 = true ∧ visibleAscii 125 = true ∧ visibleAscii 91 = true ∧ visibleAscii 93 = true := by decide
    have between : visibleAscii 58 = true ∧ visibleAscii 44 = true := by decide
    rw [← scopesVisible]
    simp only [subjectToJson, Json.toVec, Json.fields, visible_append, visible_cons, system, idName, keyName, scopesName, id,
      braces, between, Visible.nil, true_and, and_true]

end Visibility

/-! ## What is read back -/

section Reading

variable {parsers : SubjectParsers} {subject : Subject}

theorem scopesOf_strings (scopes : List String) : SubjectParsers.scopesOf (.array (scopes.map .string)) = some scopes := by
  rw [SubjectParsers.scopesOf]
  induction scopes with
  | nil => rfl
  | cons scope rest ih =>
    rw [List.map_cons, List.mapM_cons, ih]
    rfl

theorem uuidOf_display {id : Uuid} (parsed : parsers.uuid id.display = some id) : parsers.uuidOf (.string id.display) = some id :=
  parsed

/-- A variant with an id and a key. -/
theorem pairOf_object {variant : Uuid → Uuid → Subject} {name : String} {id keyId : Uuid} (apart : name ≠ "key_id")
    (first : parsers.uuid id.display = some id) (second : parsers.uuid keyId.display = some keyId) :
    parsers.pairOf variant name (.object [(name, .string id.display), ("key_id", .string keyId.display)]) =
      some (variant id keyId) := by
  have fields : SubjectParsers.fieldsOf [name, "key_id"] (.object [(name, .string id.display), ("key_id", .string keyId.display)]) =
      some [.string id.display, .string keyId.display] := by
    simp [SubjectParsers.fieldsOf, SubjectParsers.fieldOf, apart, Ne.symm apart]
  rw [SubjectParsers.pairOf, fields]
  dsimp only
  rw [uuidOf_display first, uuidOf_display second]
  rfl

/-- The derived deserializer inverts the derived serializer. -/
theorem subjectOf_subjectToJson (parsed : ∀ id ∈ idsOf subject, parsers.uuid id.display = some id) :
    parsers.subjectOf (subjectToJson subject) = some subject := by
  cases subject with
  | anonymous => rfl
  | user userId keyId =>
    obtain ⟨first, rest⟩ := List.forall_mem_cons.mp parsed
    have second : parsers.uuid keyId.display = some keyId := rest keyId (List.mem_singleton_self _)
    rw [subjectToJson, SubjectParsers.subjectOf]
    exact pairOf_object (by decide) first second
  | account accountId keyId =>
    obtain ⟨first, rest⟩ := List.forall_mem_cons.mp parsed
    have second : parsers.uuid keyId.display = some keyId := rest keyId (List.mem_singleton_self _)
    rw [subjectToJson, SubjectParsers.subjectOf]
    exact pairOf_object (by decide) first second
  | system systemId keyId scopes =>
    obtain ⟨first, rest⟩ := List.forall_mem_cons.mp parsed
    have second : parsers.uuid keyId.display = some keyId := rest keyId (List.mem_singleton_self _)
    have fields : SubjectParsers.fieldsOf ["system_id", "key_id", "scopes"] (.object [("system_id", .string systemId.display),
        ("key_id", .string keyId.display), ("scopes", .array (scopes.map .string))]) =
        some [.string systemId.display, .string keyId.display, .array (scopes.map .string)] := by
      simp [SubjectParsers.fieldsOf, SubjectParsers.fieldOf]
    rw [subjectToJson, SubjectParsers.subjectOf, SubjectParsers.systemOf, fields]
    dsimp only
    rw [uuidOf_display first, uuidOf_display second, scopesOf_strings]
    rfl

end Reading

/-- The call on the trusted listener goes on with the subject. -/
def GoesOn (types : HeaderTypes) (parsers : SubjectParsers) (subject : Subject) (value : Option HeaderValue) : Prop :=
  ∀ request : Request, request.trustedSubject = value →
    callTrusted types parsers request = .inner { request with trustedSubject := none } subject

section Handover

variable {Message : Type*} {types : HeaderTypes} {parsers : SubjectParsers} {subject : Subject}

/-- A header with the JSON of a subject is refused if it is no text. -/
theorem callTrusted_eq (converts : Converts types) (parses : Parses parsers subject) {request : Request}
    (held : request.trustedSubject = some (subjectToJson subject).toVec) :
    callTrusted types parsers request = (types.toStr (subjectToJson subject).toVec).elim
      (.unauthenticated "malformed_trusted_subject_header") fun _ => .inner { request with trustedSubject := none } subject := by
  rw [callTrusted, held]
  dsimp only
  cases text : types.toStr (subjectToJson subject).toVec with
  | none => rfl
  | some raw =>
    have parsed : parsers.fromStr raw = some subject := by
      rw [SubjectParsers.fromStr, parses.json raw ((converts.reads _ _).mp text).2]
      exact subjectOf_subjectToJson parses.uuid
    dsimp only
    rw [parsed]
    rfl

theorem goesOn_iff (converts : Converts types) (parses : Parses parsers subject) :
    GoesOn types parsers subject (some (subjectToJson subject).toVec) ↔ Plain subject := by
  constructor
  · intro goes
    have call := goes ⟨"", "", none, none, some (subjectToJson subject).toVec, none⟩ rfl
    rw [callTrusted_eq converts parses rfl] at call
    cases text : types.toStr (subjectToJson subject).toVec with
    | none =>
      rw [text] at call
      contradiction
    | some raw => exact (visible_subject subject).mp ((converts.reads _ _).mp text).1
  · intro plain request held
    have visible := (visible_subject subject).mpr plain
    rw [callTrusted_eq converts parses held, (converts.reads _ _).mpr ⟨visible, bytes_textOf visible⟩, Option.elim_some]

theorem insertSubject_ok (converts : Converts types) {outbound attached : Outbound Message}
    (inserted : insertSubject types subject outbound = .ok attached) :
    attached = ⟨outbound.message, some (subjectToJson subject).toVec, none⟩ := by
  rw [insertSubject] at inserted
  cases value : types.metadataValue (subjectToJson subject).toVec with
  | none =>
    rw [value] at inserted
    contradiction
  | some found =>
    rw [value] at inserted
    cases inserted
    rw [converts.keeps _ _ value]

/-- The subject that the gateway has resolved reaches the trusted listener if its scopes are plain, and only then. No call
there goes on with any other subject. -/
theorem subject_handover {Message : Type*} (types : HeaderTypes) (parsers : SubjectParsers) (decoders : Decoders)
    (sha256 : List UInt8 → Digest) (encode : Message → List UInt8)
    (authenticate : SignedRequestParts → Except AuthError Subject) (method restPath rawQuery : String)
    (authorization : Option HeaderValue) (outbound : Outbound Message) (subject : Subject) (converts : Converts types)
    (parses : Parses parsers subject)
    (resolved : resolveSubject types decoders authenticate method restPath rawQuery authorization
      (requestHash sha256 encode outbound) = .ok subject) :
    ((∃ attached, attachAuth types decoders sha256 encode authenticate method restPath rawQuery authorization outbound =
        .ok attached ∧ GoesOn types parsers subject attached.trustedSubject) ↔ Plain subject) ∧
    ∀ attached, attachAuth types decoders sha256 encode authenticate method restPath rawQuery authorization outbound =
        .ok attached →
      (attached.message = outbound.message ∧ attached.authorization = none) ∧
      ∀ request inner other, request.trustedSubject = attached.trustedSubject →
        callTrusted types parsers request = .inner inner other → other = subject := by
  have attach : attachAuth types decoders sha256 encode authenticate method restPath rawQuery authorization outbound =
      insertSubject types subject outbound := by
    rw [attachAuth, resolved]
    rfl
  rw [attach]
  refine ⟨⟨?_, fun plain => ?_⟩, fun attached inserted => ?_⟩
  · rintro ⟨attached, inserted, goes⟩
    rw [insertSubject_ok converts inserted] at goes
    exact (goesOn_iff converts parses).mp goes
  · obtain ⟨value, held⟩ := Option.isSome_iff_exists.mp (converts.holds _ ((visible_subject subject).mpr plain))
    have inserted : insertSubject types subject outbound = .ok ⟨outbound.message, some value, none⟩ := by
      rw [insertSubject, held]
    refine ⟨_, inserted, ?_⟩
    rw [converts.keeps _ _ held]
    exact (goesOn_iff converts parses).mpr plain
  · rw [insertSubject_ok converts inserted]
    refine ⟨⟨rfl, rfl⟩, fun request inner other held call => ?_⟩
    rw [callTrusted_eq converts parses held] at call
    cases text : types.toStr (subjectToJson subject).toVec with
    | none =>
      rw [text] at call
      contradiction
    | some raw =>
      rw [text, Option.elim_some] at call
      exact (Response.inner.inj call).2.symm

end Handover

namespace Sample

def types : HeaderTypes where
  toStr value := if Visible value then some (textOf value) else none
  metadataValue text := if Visible text then some text else none

theorem converts : Converts types where
  keeps text value held := by
    rw [types] at held
    dsimp only at held
    split_ifs at held
    exact (Option.some.inj held).symm
  holds text visible := by
    rw [types]
    dsimp only
    rw [if_pos visible]
    rfl
  reads value raw := by
    rw [types]
    dsimp only
    constructor
    · intro text
      split_ifs at text with visible
      cases text
      exact ⟨visible, bytes_textOf visible⟩
    · rintro ⟨visible, rfl⟩
      rw [if_pos visible]
      exact congrArg some (bytes_injective (bytes_textOf visible))

def subject : Subject := .system ⟨1⟩ ⟨7⟩ ["admin.*"]

def parsers : SubjectParsers where
  json raw := if bytes raw = (subjectToJson subject).toVec then some (subjectToJson subject) else none
  uuid text := if text = (⟨1⟩ : Uuid).display then some ⟨1⟩ else some ⟨7⟩

theorem parses : Parses parsers subject where
  json raw same := if_pos same
  uuid := by decide

theorem plain : Plain subject := by
  intro scope granted
  obtain rfl := List.mem_singleton.mp granted
  have visible : Visible (bytes "admin.*") := by decide
  exact visible_quote.mp (.quote visible)

def decoders : Decoders where
  uuid _ := .ok ⟨7⟩
  base64 text := some (bytes text)

/-- SHA-256 of the message. -/
def sha256 (_ : List UInt8) : Digest :=
  #v[186, 120, 22, 191, 143, 1, 207, 234, 65, 65, 64, 222, 93, 174, 34, 35,
    176, 3, 97, 163, 150, 23, 122, 156, 180, 16, 255, 97, 242, 0, 21, 173]

def header : HeaderValue := bytes "Signature key_id=7, algo=a, ts=1, nonce=n, sig=s"

def outbound : Outbound (List UInt8) := ⟨bytes "abc", none, none⟩

/-- The signature is accepted. -/
theorem resolved : resolveSubject types decoders (fun _ => .ok subject) "POST" "/v1/articles" "" (some header)
    (requestHash sha256 id outbound) = .ok subject := by
  decide +kernel

end Sample

theorem subject_handover_system :
    ∃ attached, attachAuth Sample.types Sample.decoders Sample.sha256 id (fun _ => .ok Sample.subject) "POST" "/v1/articles" ""
        (some Sample.header) Sample.outbound = .ok attached ∧
      GoesOn Sample.types Sample.parsers Sample.subject attached.trustedSubject :=
  (subject_handover Sample.types Sample.parsers Sample.decoders Sample.sha256 id _ "POST" "/v1/articles" "" _ _ Sample.subject
    Sample.converts Sample.parses Sample.resolved).1.mpr Sample.plain

end Headlines.Soundness.SubjectHandover
