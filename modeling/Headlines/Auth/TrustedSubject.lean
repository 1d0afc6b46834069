import Headlines.Auth.Interceptor
import Headlines.Core.Json

/-! # The interceptor of the trusted listener

The REST gateway forwards the subject it has resolved as JSON in a header. The interceptor reads it back and strips
the header.
-/

namespace Headlines.Auth

open Core

/-- The parsers of other crates: JSON text and UUIDs. -/
structure SubjectParsers where
  json : String → Option Json
  uuid : String → Option Uuid

namespace SubjectParsers

variable (parsers : SubjectParsers)

def uuidOf (json : Json) : Option Uuid := json.asStr.bind parsers.uuid

def scopeOf : Json → Option String
  | .string scope => some scope
  | _ => none

def scopesOf : Json → Option (List String)
  | .array items => items.mapM scopeOf
  | _ => none

/-- A field of a variant. A key that comes twice is an error, and so is one that does not come. -/
def fieldOf (members : List (String × Json)) (key : String) : Option Json :=
  match members.filter fun member => member.1 = key with
  | [member] => some member.2
  | _ => none

/-- The fields of a variant, from an object or in their order from an array. -/
def fieldsOf (names : List String) : Json → Option (List Json)
  | .object members => names.mapM (fieldOf members)
  | .array items => if items.length = names.length then some items else none
  | _ => none

/-- The variants with an id and a key. -/
def pairOf (variant : Uuid → Uuid → Subject) (name : String) (json : Json) : Option Subject :=
  match fieldsOf [name, "key_id"] json with
  | some [id, keyId] => do
      let id ← parsers.uuidOf id
      let keyId ← parsers.uuidOf keyId
      pure (variant id keyId)
  | _ => none

def systemOf (json : Json) : Option Subject :=
  match fieldsOf ["system_id", "key_id", "scopes"] json with
  | some [id, keyId, scopes] => do
      let id ← parsers.uuidOf id
      let keyId ← parsers.uuidOf keyId
      let scopes ← scopesOf scopes
      pure (.system id keyId scopes)
  | _ => none

/-- The derived `Deserialize`: an object with the name of the variant, or the name alone if it has no fields. -/
def subjectOf : Json → Option Subject
  | .string "Anonymous" => some .anonymous
  | .object [("Anonymous", .null)] => some .anonymous
  | .object [("User", fields)] => parsers.pairOf .user "user_id" fields
  | .object [("Account", fields)] => parsers.pairOf .account "account_id" fields
  | .object [("System", fields)] => parsers.systemOf fields
  | _ => none

/-- `serde_json::from_str` -/
def fromStr (raw : String) : Option Subject := (parsers.json raw).bind parsers.subjectOf

end SubjectParsers

/-- `TrustedSubjectInterceptorService::call` -/
def callTrusted (types : HeaderTypes) (parsers : SubjectParsers) (incoming : Request) : Response :=
  match incoming.trustedSubject with
  | none => .unauthenticated "missing_trusted_subject_header"
  | some value =>
      match types.toStr value with
      | none => .unauthenticated "malformed_trusted_subject_header"
      | some raw =>
          match parsers.fromStr raw with
          | none => .unauthenticated "malformed_trusted_subject_header"
          | some subject => .inner { incoming with trustedSubject := none } subject

end Headlines.Auth
