import Headlines.Auth.Interceptor
import Headlines.Core.Json

/-! # Authentication in the REST gateway

`attachAuth` decides on the inbound `Authorization` header and forwards the subject as JSON in the metadata
of the request it sends to the trusted listener.
-/

namespace Headlines.Gateway

open Core Auth

inductive Code where
  | unauthenticated
  | internal
deriving DecidableEq, Repr

/-- `GatewayError::Grpc`, the only variant raised here. -/
structure GatewayError where
  code : Code
  message : String
deriving DecidableEq, Repr

/-- The request to the trusted listener: a message and the two metadata keys that are touched. -/
structure Outbound (Message : Type*) where
  message : Message
  trustedSubject : Option HeaderValue
  authorization : Option HeaderValue

/-- The subject as `serde` writes it: a tagged object with the fields in their order. -/
def subjectToJson : Subject → Json
  | .user userId keyId =>
      .object [("User", .object [("user_id", .string userId.display), ("key_id", .string keyId.display)])]
  | .account accountId keyId =>
      .object [("Account", .object
        [("account_id", .string accountId.display), ("key_id", .string keyId.display)])]
  | .system systemId keyId scopes =>
      .object [("System", .object [("system_id", .string systemId.display),
        ("key_id", .string keyId.display), ("scopes", .array (scopes.map Json.string))])]
  | .anonymous => .string "Anonymous"

def authErrToGatewayErr (error : AuthError) : GatewayError := ⟨.unauthenticated, errorText error⟩

/-- The hash of the message that is forwarded, encoded again. -/
def requestHash {Message : Type*} (sha256 : List UInt8 → Digest) (encode : Message → List UInt8)
    (request : Outbound Message) : Digest :=
  sha256 (encode request.message)

/-- The subject of an inbound request whose message has the given hash. -/
def resolveSubject (types : HeaderTypes) (decoders : Decoders)
    (authenticate : SignedRequestParts → Except AuthError Subject) (method restPath rawQuery : String)
    (authorization : Option HeaderValue) (requestHash : Digest) : Except GatewayError Subject :=
  match authorization with
  | none => .ok .anonymous
  | some value =>
      match types.toStr value with
      | none => .error ⟨.unauthenticated, "malformed_authorization_header"⟩
      | some raw =>
          match parseAuthorizationHeader decoders raw with
          | .error _ => .error ⟨.unauthenticated, "malformed_authorization_header"⟩
          | .ok parsed =>
              (authenticate (parsed.signedParts method restPath rawQuery requestHash)).mapError
                authErrToGatewayErr

/-- Put the subject into the metadata, and take out any credential. -/
def insertSubject {Message : Type*} (types : HeaderTypes) (subject : Subject)
    (request : Outbound Message) : Except GatewayError (Outbound Message) :=
  match types.metadataValue (subjectToJson subject).toVec with
  | none => .error ⟨.internal, "subject metadata encode failed"⟩
  | some value => .ok { request with trustedSubject := some value, authorization := none }

/-- `attach_auth`. -/
def attachAuth {Message : Type*} (types : HeaderTypes) (decoders : Decoders)
    (sha256 : List UInt8 → Digest) (encode : Message → List UInt8)
    (authenticate : SignedRequestParts → Except AuthError Subject) (method restPath rawQuery : String)
    (authorization : Option HeaderValue) (request : Outbound Message) :
    Except GatewayError (Outbound Message) :=
  (resolveSubject types decoders authenticate method restPath rawQuery authorization
    (requestHash sha256 encode request)).bind fun subject => insertSubject types subject request

end Headlines.Gateway
