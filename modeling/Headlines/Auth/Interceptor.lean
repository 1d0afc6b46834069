import Headlines.Auth.Header
import Headlines.Proto.Wire

/-! # The interceptor of the public listener

A request without a readable `Authorization` header goes on as anonymous. Any other is parsed, its body is
hashed and the strategy decides. The strategy, SHA-256 and the header types are parameters.
-/

namespace Headlines.Auth

open Core

/-- A header value: any bytes but control characters. -/
abbrev HeaderValue := List UInt8

/-- Conversions between header values and text, which belong to the HTTP libraries. -/
structure HeaderTypes where
  toStr : HeaderValue → Option String
  metadataValue : List UInt8 → Option HeaderValue

abbrev Digest := Vector UInt8 32

/-- `hash_proto_request`, with which a client computes what it signs. -/
def hashProtoRequest (sha256 : List UInt8 → Digest) (message : Proto.Message) : Digest :=
  sha256 message.encodeToVec

inductive BodyHashError where
  | compressedFrame
deriving DecidableEq, Repr

/-- `ProtoBodyHasher`: the bytes after the frame header, or all bytes of a body too short to have one. -/
def protoBodyHash (sha256 : List UInt8 → Digest) (body : List UInt8) : Except BodyHashError Digest :=
  match body with
  | flag :: _ :: _ :: _ :: _ :: payload =>
      if flag = 0 then .ok (sha256 payload) else .error .compressedFrame
  | short => .ok (sha256 short)

/-- The head and body of a request; `body` is what collecting the body yields. -/
structure Request where
  method : String
  path : String
  query : Option String
  authorization : Option HeaderValue
  trustedSubject : Option HeaderValue
  body : Option (List UInt8)

/-- A call of the inner service with the subject in its extensions, or a refusal. -/
inductive Response where
  | inner (request : Request) (subject : Subject)
  | unauthenticated (message : String)

/-- `Display` of an error of the strategy. -/
def errorText : AuthError → String
  | .unauthenticated reason => "unauthenticated: " ++ reason

/-- The parts of the header with those of the request. -/
def ParsedAuthHeader.signedParts (parsed : ParsedAuthHeader) (method path query : String)
    (requestHash : Digest) : SignedRequestParts where
  method := method
  path := path
  canonicalQuery := canonicalizeQuery query
  requestHash := requestHash
  keyId := parsed.keyId
  algo := parsed.algo
  ts := parsed.ts
  nonce := parsed.nonce
  signature := parsed.signature

/-- `AuthInterceptorService::call`. -/
def call (types : HeaderTypes) (decoders : Decoders) (hash : List UInt8 → Except BodyHashError Digest)
    (authenticate : SignedRequestParts → Except AuthError Subject) (incoming : Request) : Response :=
  let request := { incoming with trustedSubject := none }
  match request.authorization.bind types.toStr with
  | none => .inner request .anonymous
  | some value =>
      match parseAuthorizationHeader decoders value with
      | .error _ => .unauthenticated "malformed_authorization_header"
      | .ok parsed =>
          match request.body with
          | none => .unauthenticated "body_read_failed"
          | some collected =>
              match hash collected with
              | .error .compressedFrame => .unauthenticated "compressed_frame_not_supported"
              | .ok requestHash =>
                  match authenticate (parsed.signedParts request.method request.path
                    (request.query.getD "") requestHash) with
                  | .ok subject => .inner request subject
                  | .error error => .unauthenticated (errorText error)

end Headlines.Auth
