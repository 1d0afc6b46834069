import Headlines.Gateway.Visible

/-! # One authentication decision on both surfaces

The two code paths agree unless the header cannot be read as text, where the listener goes on with an
anonymous caller and the gateway refuses, or the subject has scopes that its JSON cannot carry in metadata.
-/

namespace Headlines.Soundness.OneDecision

open Core Auth Gateway

/-- The subject of a call that goes on, or a refusal. -/
def decision : Response → Option Subject
  | .inner _ subject => some subject
  | .unauthenticated _ => none

section

variable {Message : Type*} (types : HeaderTypes) (decoders : Decoders) (sha256 : List UInt8 → Digest)
  (encode : Message → List UInt8) (authenticate : SignedRequestParts → Except AuthError Subject)
  (request : Request) (outbound : Outbound Message)

/-- What `attachAuth` decides: the subject it resolved, if it attached it. -/
def gatewayDecision : Option Subject :=
  match resolveSubject types decoders authenticate request.method request.path
      (request.query.getD "") request.authorization (requestHash sha256 encode outbound),
    attachAuth types decoders sha256 encode authenticate request.method request.path
      (request.query.getD "") request.authorization outbound with
  | .ok subject, .ok _ => some subject
  | _, _ => none

/-- The header is absent or is text. -/
def Readable : Prop := ∀ value, request.authorization = some value → (types.toStr value).isSome

/-- The metadata can hold the JSON of a subject. -/
def Carried (subject : Subject) : Prop := (types.metadataValue (subjectToJson subject).toVec).isSome

/-- The strategy accepts the credential in the header of a request with this hash. -/
def Accepts (requestHash : Digest) (subject : Subject) : Prop :=
  ∃ value text parsed, request.authorization = some value ∧ types.toStr value = some text ∧
    parseAuthorizationHeader decoders text = .ok parsed ∧
    authenticate (parsed.signedParts request.method request.path (request.query.getD "") requestHash) =
      .ok subject

end

section

variable {Message : Type*} {types : HeaderTypes} {decoders : Decoders} {sha256 : List UInt8 → Digest}
  {encode : Message → List UInt8} {authenticate : SignedRequestParts → Except AuthError Subject}
  {request : Request} {outbound : Outbound Message} {collected : List UInt8}

/-- Visible text fits into metadata, so only the scopes of a system can stand in the way. -/
theorem carried_of_visible (ascii : ∀ text, Visible text → (types.metadataValue text).isSome)
    {subject : Subject} (visible : ∀ scope ∈ grantedScopes subject, Visible (bytes scope)) :
    Carried types subject :=
  ascii _ (visible_subjectToJson visible)

/-- With a readable header, the interceptor decides as the gateway resolves. -/
theorem decision_call (read : request.body = some collected)
    (same : protoBodyHash sha256 collected = .ok (requestHash sha256 encode outbound))
    (readable : Readable types request) :
    decision (call types decoders (protoBodyHash sha256) authenticate request) =
      (resolveSubject types decoders authenticate request.method request.path
        (request.query.getD "") request.authorization (requestHash sha256 encode outbound)).toOption := by
  unfold call resolveSubject
  cases present : request.authorization with
  | none => rfl
  | some value =>
    obtain ⟨text, converted⟩ := Option.isSome_iff_exists.mp (readable value present)
    simp only [Option.bind_some, converted]
    cases parsed : parseAuthorizationHeader decoders text with
    | error _ => rfl
    | ok header =>
      simp only [read, same]
      cases authenticate (header.signedParts request.method request.path (request.query.getD "")
        (requestHash sha256 encode outbound)) <;> rfl

theorem decision_call_unreadable {value : HeaderValue} (present : request.authorization = some value)
    (unreadable : types.toStr value = none) :
    decision (call types decoders (protoBodyHash sha256) authenticate request) = some .anonymous := by
  simp [call, present, unreadable, decision]

theorem gatewayDecision_unreadable {value : HeaderValue} (present : request.authorization = some value)
    (unreadable : types.toStr value = none) :
    gatewayDecision types decoders sha256 encode authenticate request outbound = none := by
  simp [gatewayDecision, resolveSubject, present, unreadable]

theorem gatewayDecision_error {error : GatewayError}
    (resolved : resolveSubject types decoders authenticate request.method request.path
      (request.query.getD "") request.authorization (requestHash sha256 encode outbound) = .error error) :
    gatewayDecision types decoders sha256 encode authenticate request outbound = none := by
  simp [gatewayDecision, resolved]

/-- A resolved subject is the decision exactly if the metadata can hold it. -/
theorem gatewayDecision_ok {subject : Subject}
    (resolved : resolveSubject types decoders authenticate request.method request.path
      (request.query.getD "") request.authorization (requestHash sha256 encode outbound) = .ok subject) :
    gatewayDecision types decoders sha256 encode authenticate request outbound = some subject ↔
      Carried types subject := by
  unfold gatewayDecision attachAuth insertSubject Carried
  rw [resolved]
  cases held : types.metadataValue (subjectToJson subject).toVec <;> simp [Except.bind, held]

/-- What the gateway resolves, without a header or with one that the strategy accepts. -/
theorem resolveSubject_ok_iff {requestHash : Digest} {subject : Subject} :
    resolveSubject types decoders authenticate request.method request.path
        (request.query.getD "") request.authorization requestHash = .ok subject ↔
      request.authorization = none ∧ subject = .anonymous ∨
        Accepts types decoders authenticate request requestHash subject := by
  unfold resolveSubject Accepts
  cases present : request.authorization with
  | none => simp [eq_comm]
  | some value =>
    cases converted : types.toStr value with
    | none => simp [converted]
    | some text =>
      cases parsed : parseAuthorizationHeader decoders text with
      | error _ => simp [converted, parsed]
      | ok header =>
        cases outcome : authenticate (header.signedParts request.method request.path
          (request.query.getD "") requestHash) with
        | error _ => simp [converted, parsed, outcome, Except.mapError]
        | ok _ => simp [converted, parsed, outcome, Except.mapError]

end

/-- The surfaces decide alike exactly on readable headers whose subject the metadata can hold. -/
theorem same_decision_iff {Message : Type*} (types : HeaderTypes) (decoders : Decoders)
    (sha256 : List UInt8 → Digest) (encode : Message → List UInt8)
    (authenticate : SignedRequestParts → Except AuthError Subject) (request : Request)
    (outbound : Outbound Message) (collected : List UInt8)
    (ascii : ∀ text, Visible text → (types.metadataValue text).isSome)
    (read : request.body = some collected)
    (same : protoBodyHash sha256 collected = .ok (requestHash sha256 encode outbound)) :
    decision (call types decoders (protoBodyHash sha256) authenticate request) =
        gatewayDecision types decoders sha256 encode authenticate request outbound ↔
      Readable types request ∧
        ∀ systemId keyId scopes,
          Accepts types decoders authenticate request (requestHash sha256 encode outbound)
            (.system systemId keyId scopes) →
          Carried types (.system systemId keyId scopes) := by
  by_cases readable : Readable types request
  · rw [decision_call read same readable, and_iff_right readable]
    cases resolved : resolveSubject types decoders authenticate request.method request.path
        (request.query.getD "") request.authorization (requestHash sha256 encode outbound) with
    | error error =>
      rw [gatewayDecision_error resolved]
      refine iff_of_true rfl fun systemId keyId scopes accepts => ?_
      rw [resolveSubject_ok_iff.mpr (.inr accepts)] at resolved
      contradiction
    | ok subject =>
      rw [Except.toOption, eq_comm, gatewayDecision_ok resolved]
      constructor
      · intro carried systemId keyId scopes accepts
        rw [resolveSubject_ok_iff.mpr (.inr accepts)] at resolved
        rwa [Except.ok.inj resolved]
      · intro systems
        cases subject with
        | system systemId keyId scopes =>
          obtain ⟨_, impossible⟩ | accepts := resolveSubject_ok_iff.mp resolved
          · contradiction
          · exact systems systemId keyId scopes accepts
        | _ => exact carried_of_visible ascii (List.forall_mem_nil _)
  · refine iff_of_false ?_ fun both => readable both.1
    unfold Readable at readable
    push_neg at readable
    obtain ⟨value, present, unreadable⟩ := readable
    have unreadable := Option.not_isSome_iff_eq_none.mp unreadable
    rw [decision_call_unreadable present unreadable, gatewayDecision_unreadable present unreadable]
    exact Option.some_ne_none _

namespace Sample

def types : HeaderTypes where
  toStr value :=
    if value.all visibleAscii then some (String.ofList (value.map fun byte => Char.ofNat byte.toNat)) else none
  metadataValue text := if text.all fun byte => 32 ≤ byte && byte ≠ 127 || byte = 9 then some text else none

def decoders : Decoders where
  uuid _ := .ok ⟨7⟩
  base64 text := some (bytes text)

/-- The digest of the empty input, the only one that is asked for. -/
def sha256 (_ : List UInt8) : Digest :=
  #v[227, 176, 196, 66, 152, 252, 28, 20, 154, 251, 244, 200, 153, 111, 185, 36,
    39, 174, 65, 228, 100, 155, 147, 76, 164, 149, 153, 27, 120, 82, 184, 85]

def authenticate (_ : SignedRequestParts) : Except AuthError Subject := .ok (.system ⟨1⟩ ⟨7⟩ ["admin.*"])

def request (authorization : Option HeaderValue) : Request where
  method := "POST"
  path := "/v1/articles"
  query := none
  authorization := authorization
  trustedSubject := none
  body := some [0, 0, 0, 0, 0]

def outbound : Outbound (List UInt8) := ⟨[], none, none⟩

theorem visible_held (text : List UInt8) (visible : Visible text) :
    (types.metadataValue text).isSome := by
  have held : text.all fun byte => 32 ≤ byte && byte ≠ 127 || byte = 9 := by
    refine List.all_eq_true.mpr fun byte member => ?_
    have visible := visible byte member
    simp only [visibleAscii, Bool.or_eq_true, Bool.and_eq_true, decide_eq_true_eq, beq_iff_eq] at visible ⊢
    obtain ⟨printable, below⟩ | tab := visible
    · exact .inl ⟨printable, fun delete => absurd below (by rw [delete]; decide)⟩
    · exact .inr tab
  simp only [types, held, if_true, Option.isSome_some]

end Sample

theorem same_decision_iff_system :
    decision (call Sample.types Sample.decoders (protoBodyHash Sample.sha256) Sample.authenticate
        (Sample.request (some (bytes "Signature key_id=7, algo=a, ts=1, nonce=n, sig=s")))) =
      gatewayDecision Sample.types Sample.decoders Sample.sha256 id Sample.authenticate
        (Sample.request (some (bytes "Signature key_id=7, algo=a, ts=1, nonce=n, sig=s"))) Sample.outbound :=
  (same_decision_iff _ _ _ _ _ _ _ [0, 0, 0, 0, 0] Sample.visible_held rfl rfl).mpr
    ⟨fun value present => by obtain rfl := Option.some.inj present; decide,
      fun systemId keyId scopes ⟨_, _, _, _, _, _, accepted⟩ => by
        obtain ⟨-, -, rfl⟩ := Subject.system.inj (Except.ok.inj accepted)
        refine carried_of_visible Sample.visible_held fun scope granted => ?_
        obtain rfl := List.mem_singleton.mp granted
        decide⟩

/-- An unreadable header is anonymous on one surface and refused on the other. -/
theorem unreadable_header :
    decision (call Sample.types Sample.decoders (protoBodyHash Sample.sha256) Sample.authenticate
        (Sample.request (some [255]))) ≠
      gatewayDecision Sample.types Sample.decoders Sample.sha256 id Sample.authenticate
        (Sample.request (some [255])) Sample.outbound := by
  decide

end Headlines.Soundness.OneDecision
