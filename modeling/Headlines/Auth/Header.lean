import Headlines.Core.Auth
import Headlines.Rust.Str

/-! # The `Authorization` header

`Signature key_id=…, algo=…, ts=…, nonce=…, sig=…`, parsed pair by pair; a later pair with the same name
replaces an earlier one. Parsing of UUIDs and base64 is external.
-/

namespace Headlines.Auth

open Core Rust

/-- Decoders of other crates, with the text of their errors where it is kept. -/
structure Decoders where
  uuid : String → Except String Uuid
  base64 : String → Option (List UInt8)

/-- The part of a signed request that the header carries. -/
structure ParsedAuthHeader where
  keyId : Uuid
  algo : String
  ts : Tso
  nonce : List UInt8
  signature : List UInt8
deriving DecidableEq, Repr

inductive ParseError where
  | missingScheme
  | malformedPair (pair : String)
  | unknownField (field : String)
  | missingField (field : String)
  | malformedKeyId (text : String)
  | malformedTs (text : String)
  | malformedBase64 (field : String)
  | nonUtf8
deriving DecidableEq, Repr

/-- What the pairs read so far have set. -/
structure Fields where
  keyId : Option Uuid
  algo : Option String
  ts : Option Tso
  nonce : Option (List UInt8)
  sig : Option (List UInt8)

def Fields.unset : Fields := ⟨none, none, none, none, none⟩

def decodeBase64 (decoders : Decoders) (field value : String) : Except ParseError (List UInt8) :=
  match decoders.base64 value with
  | some raw => .ok raw
  | none => .error (.malformedBase64 field)

/-- One `name=value` pair. -/
def Fields.read (decoders : Decoders) (fields : Fields) (raw : String) : Except ParseError Fields :=
  let pair := trim raw
  if pair.isEmpty then .error (.malformedPair "empty pair")
  else
    match splitOnce '=' pair with
    | none => .error (.malformedPair pair)
    | some (name, text) =>
        let field := trim name
        let value := trim text
        match field with
        | "key_id" => ((decoders.uuid value).mapError .malformedKeyId).map
            fun keyId => { fields with keyId := some keyId }
        | "algo" => .ok { fields with algo := some value }
        | "ts" => ((parseU64 value).mapError fun error => .malformedTs error.text).map
            fun ts => { fields with ts := some ⟨ts⟩ }
        | "nonce" => (decodeBase64 decoders "nonce" value).map
            fun nonce => { fields with nonce := some nonce }
        | "sig" => (decodeBase64 decoders "sig" value).map fun sig => { fields with sig := some sig }
        | _ => .error (.unknownField field)

/-- Every field must have been set; the first that is missing is the error. -/
def Fields.complete (fields : Fields) : Except ParseError ParsedAuthHeader :=
  match fields with
  | ⟨none, _, _, _, _⟩ => .error (.missingField "key_id")
  | ⟨_, none, _, _, _⟩ => .error (.missingField "algo")
  | ⟨_, _, none, _, _⟩ => .error (.missingField "ts")
  | ⟨_, _, _, none, _⟩ => .error (.missingField "nonce")
  | ⟨_, _, _, _, none⟩ => .error (.missingField "sig")
  | ⟨some keyId, some algo, some ts, some nonce, some sig⟩ => .ok ⟨keyId, algo, ts, nonce, sig⟩

def parseAuthorizationHeader (decoders : Decoders) (value : String) :
    Except ParseError ParsedAuthHeader :=
  if ¬value.toList.all (·.toNat < 128) then .error .nonUtf8
  else
    match stripPrefix "Signature " value with
    | none => .error .missingScheme
    | some body => ((split ',' body).foldlM (Fields.read decoders) .unset).bind Fields.complete

/-- The pairs of a query string; a pair without `=` has an empty value and an empty pair is skipped. -/
def queryPairs (raw : String) : List (String × String) :=
  ((split '&' raw).filter fun pair => ¬pair.isEmpty).map
    fun pair => (splitOnce '=' pair).getD (pair, "")

/-- Pairs by key, those of one key in their order. -/
def canonicalizeQuery (raw : String) : String :=
  if raw.isEmpty then ""
  else
    "&".intercalate (((queryPairs raw).mergeSort fun left right => left.1 ≤ right.1).map
      fun pair => pair.1 ++ "=" ++ pair.2)

end Headlines.Auth
