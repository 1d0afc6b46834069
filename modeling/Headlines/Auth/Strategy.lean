import Headlines.Auth.InProcessTso
import Headlines.Auth.LocalClock
import Headlines.Auth.NonceStore

/-! # The signed-request strategy

`authenticateInner` is cut at its two effects on shared state: everything up to the signature check is
`verifyRequest`, then the time source judges the timestamp, then the nonce store records the nonce. A
sequential call is their composition; concurrent calls interleave the last two.
-/

namespace Headlines.Auth

open Core

/-- Lower-case hexadecimal encoding. -/
def hexEncode (raw : List UInt8) : List Char :=
  raw.flatMap fun b => [hexDigit (b.toNat >>> 4), hexDigit (b.toNat &&& 0x0F)]

/-- Standard base64 alphabet. -/
def base64Char (sextet : ℕ) : Char :=
  "ABCDEFGHIJKLMNOPQRSTUVWXYZabcdefghijklmnopqrstuvwxyz0123456789+/".toList.getD sextet '='

/-- Padded standard base64. -/
def base64Encode : List UInt8 → List Char
  | [] => []
  | [a] => [base64Char (a.toNat / 4), base64Char (a.toNat % 4 * 16), '=', '=']
  | [a, b] => [base64Char (a.toNat / 4), base64Char (a.toNat % 4 * 16 + b.toNat / 16),
      base64Char (b.toNat % 16 * 4), '=']
  | a :: b :: c :: rest => base64Char (a.toNat / 4) :: base64Char (a.toNat % 4 * 16 + b.toNat / 16) ::
      base64Char (b.toNat % 16 * 4 + c.toNat / 64) :: base64Char (c.toNat % 64) :: base64Encode rest

/-- The string a client signs. -/
def buildCanonicalString (parts : SignedRequestParts) : String :=
  let hashHex := String.ofList (hexEncode parts.requestHash.toList)
  let nonceB64 := String.ofList (base64Encode parts.nonce)
  "HEADLINES-SIGN-V1\n" ++ parts.method ++ "\n" ++ parts.path ++ "\n" ++ parts.canonicalQuery ++
    "\n" ++ hashHex ++ "\n" ++ parts.keyId.display ++ "\n" ++ toString parts.ts.raw.toNat ++ "\n" ++
    nonceB64

/-- Steps 1 to 5 of `authenticateInner`: resolve the key, match the algorithm, verify. -/
def verifyRequest (resolved : Except ResolveError ResolvedKey) (algos : AlgorithmRegistry)
    (parts : SignedRequestParts) : Except AuthError Subject :=
  match resolved with
  | .error .notFound => .error (.unauthenticated "unknown_key")
  | .error .revoked => .error (.unauthenticated "key revoked")
  | .error (.internal e) => .error (.unauthenticated ("resolver: " ++ e))
  | .ok resolved =>
      if parts.algo ≠ resolved.algo then .error (.unauthenticated "algo_mismatch")
      else
        match algos parts.algo with
        | none => .error (.unauthenticated "unsupported_algo")
        | some algo =>
            let canonical := buildCanonicalString parts
            match algo.verify resolved.publicKey (bytes canonical) parts.signature with
            | .error .badSignature => .error (.unauthenticated "bad_signature")
            | .error (.malformedKey _) => .error (.unauthenticated "malformed_key")
            | .error .malformedSignature => .error (.unauthenticated "malformed_signature")
            | .ok () => .ok resolved.subject

def timeError : TimeError → AuthError
  | .outsideHorizon => .unauthenticated "expired"
  | .nonMonotonic => .unauthenticated "future_ts"
  | .internal s => .unauthenticated ("time: " ++ s)

def nonceError : NonceError → AuthError
  | .replay => .unauthenticated "replay"
  | .capacity => .unauthenticated "nonce_store_full"
  | .internal s => .unauthenticated ("nonce: " ++ s)

/-- Step 7: record the nonce and answer with the subject. -/
def recordNonce (store : InMemoryNonceStore) (parts : SignedRequestParts) (subject : Subject) :
    Except AuthError Subject × InMemoryNonceStore :=
  match store.record parts.keyId parts.nonce parts.ts with
  | (.ok (), after) => (.ok subject, after)
  | (.error e, after) => (.error (nonceError e), after)

/-- The cache key of a request. -/
def nonceKey (parts : SignedRequestParts) : NonceKey := ⟨parts.keyId, parts.nonce⟩

theorem nonceKey_congr {one other : SignedRequestParts} (same : one.triple = other.triple) :
    nonceKey one = nonceKey other := by
  have keyId : one.keyId = other.keyId := congrArg (·.1) same
  have nonce : one.nonce = other.nonce := congrArg (·.2.1) same
  rw [nonceKey, nonceKey, keyId, nonce]

section recordNonce

variable {store : InMemoryNonceStore} {parts : SignedRequestParts} {subject : Subject}

theorem recordNonce_snd :
    (recordNonce store parts subject).2 = (store.record parts.keyId parts.nonce parts.ts).2 := by
  unfold recordNonce
  split <;> next outcome => rw [outcome]

theorem recordNonce_isOk (accepted : (recordNonce store parts subject).1.isOk) :
    (store.record parts.keyId parts.nonce parts.ts).1 = .ok () := by
  unfold recordNonce at accepted
  split at accepted
  · next outcome => rw [outcome]
  · contradiction

/-- An accepted request is held under its own timestamp. -/
theorem held_of_recordNonce (accepted : (recordNonce store parts subject).1.isOk) :
    (recordNonce store parts subject).2.held (nonceKey parts) = some parts.ts := by
  rw [recordNonce_snd]
  exact InMemoryNonceStore.held_of_record_ok (recordNonce_isOk accepted)

theorem held_recordNonce {key : NonceKey} {entry : Tso} (found : store.held key = some entry) :
    (recordNonce store parts subject).2.held key = some entry ∨
      Expired store.horizonMs parts.ts entry := by
  rw [recordNonce_snd]
  exact InMemoryNonceStore.held_record found _ _ _

/-- A request whose entry the store still holds is not accepted again. -/
theorem recordNonce_replay (found : store.held (nonceKey parts) = some parts.ts) :
    (recordNonce store parts subject).1 = .error (nonceError .replay) := by
  have replay := InMemoryNonceStore.record_replay found
  unfold recordNonce
  split
  · next outcome =>
    rw [outcome] at replay
    contradiction
  · next outcome =>
    rw [outcome] at replay
    cases replay
    rfl

@[simp] theorem horizonMs_recordNonce :
    (recordNonce store parts subject).2.horizonMs = store.horizonMs := by
  rw [recordNonce_snd, InMemoryNonceStore.horizonMs_record]

end recordNonce

/-- A request and what the strategy answered. -/
structure Answer where
  parts : SignedRequestParts
  result : Except AuthError Subject

def Answer.accepted (answer : Answer) : Prop := answer.result.isOk

instance (answer : Answer) : Decidable answer.accepted := inferInstanceAs (Decidable (_ = true))

/-- The time source the strategy is built with. -/
inductive TimeSource where
  | inProcessTso (tso : InProcessTso)
  | localClock (clock : LocalClock)
deriving DecidableEq, Repr

namespace TimeSource

def now (source : TimeSource) (wallMs : UInt64) : Except TimeError Tso × TimeSource :=
  match source with
  | .inProcessTso tso => ((tso.issue wallMs).1, .inProcessTso (tso.issue wallMs).2)
  | .localClock clock => (.ok (clock.now wallMs), source)

def validate (source : TimeSource) (wallMs : UInt64) (ts : Tso) : Except TimeError Unit :=
  match source with
  | .inProcessTso tso => tso.validateSync wallMs ts
  | .localClock clock => clock.validate wallMs ts

end TimeSource

/-- One call, with nothing else touching the time source or the store in between. -/
def authenticateInner (resolved : Except ResolveError ResolvedKey) (algos : AlgorithmRegistry)
    (source : TimeSource) (wallMs : UInt64) (store : InMemoryNonceStore) (parts : SignedRequestParts) :
    Except AuthError Subject × InMemoryNonceStore :=
  match verifyRequest resolved algos parts with
  | .error e => (.error e, store)
  | .ok subject =>
      match source.validate wallMs parts.ts with
      | .error e => (.error (timeError e), store)
      | .ok () => recordNonce store parts subject

section authenticateInner

variable {resolved : Except ResolveError ResolvedKey} {algos : AlgorithmRegistry}
  {source : TimeSource} {wallMs : UInt64} {store after : InMemoryNonceStore}
  {parts : SignedRequestParts} {subject : Subject}

/-- A call that fails before the nonce store leaves it alone; any other was validated. -/
theorem authenticateInner_cases :
    (∃ e, authenticateInner resolved algos source wallMs store parts = (.error e, store)) ∨
    ∃ subject, source.validate wallMs parts.ts = .ok () ∧
      authenticateInner resolved algos source wallMs store parts = recordNonce store parts subject := by
  unfold authenticateInner
  split
  · exact .inl ⟨_, rfl⟩
  · next subject _ =>
    split
    · exact .inl ⟨_, rfl⟩
    · next valid => exact .inr ⟨subject, valid, rfl⟩

theorem authenticateInner_ok (verified : verifyRequest resolved algos parts = .ok subject)
    (valid : source.validate wallMs parts.ts = .ok ())
    (recorded : store.record parts.keyId parts.nonce parts.ts = (.ok (), after)) :
    authenticateInner resolved algos source wallMs store parts = (.ok subject, after) := by
  rw [authenticateInner, verified]
  dsimp only
  rw [valid]
  dsimp only
  rw [recordNonce, recorded]

end authenticateInner

/-- Where messages can be signed, a request exists for every key id, nonce and timestamp. -/
theorem exists_signed {algos : AlgorithmRegistry} (signable : Signable algos) (keyId : Uuid) (nonce : List UInt8) (ts : Tso) :
    ∃ parts resolved subject, parts.keyId = keyId ∧ parts.nonce = nonce ∧ parts.ts = ts ∧
      verifyRequest resolved algos parts = .ok subject := by
  obtain ⟨name, algo, publicKey, registered, sign⟩ := signable
  let unsigned : SignedRequestParts :=
    ⟨"POST", "/", "", Vector.replicate 32 0, keyId, name, ts, nonce, []⟩
  obtain ⟨signature, valid⟩ := sign (bytes (buildCanonicalString unsigned))
  -- The canonical string does not contain the signature.
  have canonical : buildCanonicalString { unsigned with signature := signature } =
      buildCanonicalString unsigned := rfl
  refine ⟨{ unsigned with signature := signature }, .ok ⟨name, publicKey, .anonymous⟩, .anonymous,
    rfl, rfl, rfl, ?_⟩
  rw [verifyRequest]
  dsimp only [unsigned] at canonical valid ⊢
  rw [if_neg (not_not_intro rfl), registered]
  dsimp only
  rw [canonical, valid]

end Headlines.Auth
