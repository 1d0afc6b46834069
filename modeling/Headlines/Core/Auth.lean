import Headlines.Core.Subject
import Headlines.Core.Tso

/-! # The seams of the auth pipeline

Errors, the signed parts of a request and what a key resolves to. Signature verification belongs to
a cryptographic library, so a registered algorithm is its `verify` function.
-/

namespace Headlines.Core

/-- What a time source may answer. -/
inductive TimeError where
  | outsideHorizon
  | nonMonotonic
  | internal (message : String)
deriving DecidableEq, Repr

inductive VerifyError where
  | malformedKey (message : String)
  | malformedSignature
  | badSignature
deriving DecidableEq, Repr

inductive NonceError where
  | replay
  | capacity
  | internal (message : String)
deriving DecidableEq, Repr

inductive AuthError where
  | unauthenticated (reason : String)
deriving DecidableEq, Repr

/-- What a strategy receives: the request line, its hash and the `Authorization` header. -/
structure SignedRequestParts where
  method : String
  path : String
  canonicalQuery : String
  requestHash : Vector UInt8 32
  keyId : Uuid
  algo : String
  ts : Tso
  nonce : List UInt8
  signature : List UInt8
deriving DecidableEq, Repr

/-- The part of a request that replay protection identifies it by. -/
def SignedRequestParts.triple (parts : SignedRequestParts) : Uuid × List UInt8 × Tso :=
  (parts.keyId, parts.nonce, parts.ts)

/-- Verify `signature` over `canonical` under a public key. -/
structure SignatureAlgorithm where
  verify : (publicKey canonical signature : List UInt8) → Except VerifyError Unit

/-- Name-keyed registry of algorithms. -/
abbrev AlgorithmRegistry := String → Option SignatureAlgorithm

/-- Some registered algorithm has a key under which every message has a valid signature. -/
def Signable (algos : AlgorithmRegistry) : Prop :=
  ∃ name algo publicKey, algos name = some algo ∧
    ∀ canonical, ∃ signature, algo.verify publicKey canonical signature = .ok ()

/-- What a key resolver returns on success. -/
structure ResolvedKey where
  algo : String
  publicKey : List UInt8
  subject : Subject
deriving DecidableEq, Repr

inductive ResolveError where
  | notFound
  | revoked
  | internal (message : String)
deriving DecidableEq, Repr

end Headlines.Core
