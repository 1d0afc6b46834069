import Headlines.Core.Auth
import Headlines.Rust.LruCache
import Headlines.ToMathlib.SaturatingUInt

/-! # The in-process nonce store

`record` evicts what its own timestamp makes expired, then refuses a nonce it still holds, then refuses
to displace anything. The clock of the eviction is the caller's timestamp, not a time source, so
the laws below speak of that timestamp only.
-/

namespace Headlines.Auth

open Headlines.Core

/-- Key shape of the cache. -/
structure NonceKey where
  keyId : Uuid
  nonce : List UInt8
deriving DecidableEq, Repr

structure InMemoryNonceStore where
  inner : LruCache NonceKey Tso
  horizonMs : UInt64

/-- Replay protection within `horizonMs` drops `ts` once the clock reads `now`. -/
def Expired (horizonMs : UInt64) (now ts : Tso) : Prop :=
  horizonMs < now.physicalMs.saturatingSub ts.physicalMs

instance (horizonMs : UInt64) (now ts : Tso) : Decidable (Expired horizonMs now ts) :=
  inferInstanceAs (Decidable (_ < _))

theorem expired_iff {horizonMs : UInt64} {now ts : Tso} : Expired horizonMs now ts ↔
    ts.physicalMs.toNat + horizonMs.toNat < now.physicalMs.toNat := by
  rw [Expired, UInt64.lt_iff_toNat_lt, UInt64.toNat_saturatingSub]
  omega

theorem not_expired_self (horizonMs : UInt64) (ts : Tso) : ¬Expired horizonMs ts ts := by
  rw [expired_iff]
  omega

namespace InMemoryNonceStore

/-- Explicit capacity and horizon; a zero capacity panics in the source. -/
def withConfig (capacity : ℕ) (positive : 0 < capacity) (horizonMs : UInt64) : InMemoryNonceStore :=
  ⟨LruCache.new capacity positive, horizonMs⟩

/-- The capacity and horizon the server uses. -/
def new : InMemoryNonceStore := withConfig 100000 (by decide) 30000

/-- Drop the entries that are expired at `now`. -/
def evictExpired (store : InMemoryNonceStore) (cache : LruCache NonceKey Tso) (now : Tso) :
    LruCache NonceKey Tso :=
  let toDrop := cache.iter.filterMap fun entry =>
    if Expired store.horizonMs now entry.2 then some entry.1 else none
  toDrop.foldl LruCache.pop cache

/-- Record a nonce under the timestamp of the request that carries it. -/
def record (store : InMemoryNonceStore) (keyId : Uuid) (nonce : List UInt8) (ts : Tso) :
    Except NonceError Unit × InMemoryNonceStore :=
  let key : NonceKey := ⟨keyId, nonce⟩
  let cache := store.evictExpired store.inner ts
  let seen := (cache.get key).1
  let cache := (cache.get key).2
  if seen.isSome then (.error .replay, { store with inner := cache })
  -- A full store holds only unexpired entries, so nothing may be displaced.
  else if cache.cap ≤ cache.len then (.error .capacity, { store with inner := cache })
  else (.ok (), { store with inner := cache.put key ts })

/-- The timestamp a nonce is held under. -/
def held (store : InMemoryNonceStore) (key : NonceKey) : Option Tso := store.inner.lookup key

/-- What eviction at `now` leaves of the held nonces. -/
def kept (store : InMemoryNonceStore) (now : Tso) (key : NonceKey) : Option Tso :=
  (store.held key).filter fun ts => decide ¬Expired store.horizonMs now ts

@[simp] theorem held_withConfig (capacity : ℕ) (positive : 0 < capacity) (horizonMs : UInt64)
    (key : NonceKey) : (withConfig capacity positive horizonMs).held key = none := rfl

theorem lookup_evictExpired (store : InMemoryNonceStore) (now : Tso) (key : NonceKey) :
    (store.evictExpired store.inner now).lookup key = store.kept now key := by
  have dropped : key ∈ (store.inner.iter.filterMap fun entry =>
      if Expired store.horizonMs now entry.2 then some entry.1 else none) ↔
      ∃ ts, store.inner.lookup key = some ts ∧ Expired store.horizonMs now ts := by
    rw [List.mem_filterMap]
    constructor
    · rintro ⟨⟨k, ts⟩, member, same⟩
      split at same
      · next late =>
        cases same
        exact ⟨ts, LruCache.mem_iter.mp member, late⟩
      · contradiction
    · rintro ⟨ts, found, late⟩
      exact ⟨(key, ts), LruCache.mem_iter.mpr found, if_pos late⟩
  rw [evictExpired, LruCache.lookup_foldl_pop, kept, held]
  cases found : store.inner.lookup key with
  | none => simp
  | some ts =>
    by_cases late : Expired store.horizonMs now ts
    · rw [if_pos (dropped.mpr ⟨ts, found, late⟩), Option.filter_some, if_neg (by simpa using late)]
    · rw [if_neg, Option.filter_some, if_pos (by simpa using late)]
      intro member
      obtain ⟨other, same, expired⟩ := dropped.mp member
      rw [found] at same
      exact late (Option.some.inj same ▸ expired)

theorem kept_eq_some {store : InMemoryNonceStore} {now ts : Tso} {key : NonceKey} :
    store.kept now key = some ts ↔ store.held key = some ts ∧ ¬Expired store.horizonMs now ts := by
  simp [kept, Option.filter_eq_some_iff]

/-- The outcomes of `record`, and the content of the store after each. -/
inductive Recorded (store : InMemoryNonceStore) (key : NonceKey) (ts : Tso) :
    Except NonceError Unit × InMemoryNonceStore → Prop
  | replay {after : InMemoryNonceStore} (seen : (store.kept ts key).isSome)
      (horizon : after.horizonMs = store.horizonMs) (content : after.held = store.kept ts) :
      Recorded store key ts (.error .replay, after)
  | capacity {after : InMemoryNonceStore} (unseen : store.kept ts key = none)
      (horizon : after.horizonMs = store.horizonMs) (content : after.held = store.kept ts) :
      Recorded store key ts (.error .capacity, after)
  | ok {after : InMemoryNonceStore} (unseen : store.kept ts key = none)
      (horizon : after.horizonMs = store.horizonMs)
      (content : after.held = Function.update (store.kept ts) key (some ts)) :
      Recorded store key ts (.ok (), after)

theorem recorded (store : InMemoryNonceStore) (keyId : Uuid) (nonce : List UInt8) (ts : Tso) :
    Recorded store ⟨keyId, nonce⟩ ts (store.record keyId nonce ts) := by
  have survivors (key : NonceKey) :
      ((store.evictExpired store.inner ts).get ⟨keyId, nonce⟩).2.lookup key = store.kept ts key := by
    rw [LruCache.lookup_get_snd, lookup_evictExpired]
  have seen : ((store.evictExpired store.inner ts).get ⟨keyId, nonce⟩).1 =
      store.kept ts ⟨keyId, nonce⟩ := by
    rw [LruCache.get_fst, lookup_evictExpired]
  unfold record
  simp only [seen]
  split
  · next found => exact .replay found rfl (funext survivors)
  · next missing =>
    have unseen : store.kept ts ⟨keyId, nonce⟩ = none := by simpa using missing
    split
    · exact .capacity unseen rfl (funext survivors)
    · next below =>
      refine .ok unseen rfl (funext fun key => ?_)
      by_cases same : key = ⟨keyId, nonce⟩
      · rw [same, Function.update_self]
        exact LruCache.lookup_put_self _ _ _
      · rw [Function.update_of_ne same, ← survivors]
        exact LruCache.lookup_put_ne (.inl (not_le.mp below)) _ same

@[simp] theorem horizonMs_record (store : InMemoryNonceStore) (keyId : Uuid) (nonce : List UInt8)
    (ts : Tso) : (store.record keyId nonce ts).2.horizonMs = store.horizonMs := by
  rcases outcome : store.record keyId nonce ts with ⟨result, after⟩
  have spec := store.recorded keyId nonce ts
  rw [outcome] at spec
  cases spec <;> assumption

/-- A recorded nonce is held under the timestamp it came with. -/
theorem held_of_record_ok {store : InMemoryNonceStore} {keyId : Uuid} {nonce : List UInt8} {ts : Tso}
    (recordedNow : (store.record keyId nonce ts).1 = .ok ()) :
    (store.record keyId nonce ts).2.held ⟨keyId, nonce⟩ = some ts := by
  rcases outcome : store.record keyId nonce ts with ⟨result, after⟩
  have spec := store.recorded keyId nonce ts
  rw [outcome] at spec recordedNow
  cases spec with
  | replay | capacity => contradiction
  | ok _ _ content => rw [content, Function.update_self]

/-- Recording drops or overwrites an entry only when the recorded timestamp makes it expired. -/
theorem held_record {store : InMemoryNonceStore} {key : NonceKey} {entry : Tso}
    (found : store.held key = some entry) (keyId : Uuid) (nonce : List UInt8) (ts : Tso) :
    (store.record keyId nonce ts).2.held key = some entry ∨ Expired store.horizonMs ts entry := by
  by_cases late : Expired store.horizonMs ts entry
  · exact .inr late
  · left
    have kept : store.kept ts key = some entry := kept_eq_some.mpr ⟨found, late⟩
    rcases outcome : store.record keyId nonce ts with ⟨result, after⟩
    have spec := store.recorded keyId nonce ts
    rw [outcome] at spec
    cases spec with
    | replay _ _ content | capacity _ _ content => rw [content, kept]
    | ok unseen _ content =>
      have other : key ≠ ⟨keyId, nonce⟩ := by
        rintro rfl
        rw [kept] at unseen
        contradiction
      rw [content, Function.update_of_ne other, kept]

/-- A nonce whose entry is not expired yet is a replay. -/
theorem record_error_replay {store : InMemoryNonceStore} {keyId : Uuid} {nonce : List UInt8} {ts entry : Tso}
    (found : store.held ⟨keyId, nonce⟩ = some entry) (inside : ¬Expired store.horizonMs ts entry) :
    (store.record keyId nonce ts).1 = .error .replay := by
  have kept := kept_eq_some.mpr ⟨found, inside⟩
  rcases outcome : store.record keyId nonce ts with ⟨result, after⟩
  have spec := store.recorded keyId nonce ts
  rw [outcome] at spec
  cases spec with
  | replay => rfl
  | capacity unseen | ok unseen => rw [kept] at unseen; contradiction

/-- A nonce held under the timestamp it is presented with again is a replay. -/
theorem record_replay {store : InMemoryNonceStore} {keyId : Uuid} {nonce : List UInt8} {ts : Tso}
    (found : store.held ⟨keyId, nonce⟩ = some ts) :
    (store.record keyId nonce ts).1 = .error .replay :=
  record_error_replay found (not_expired_self store.horizonMs ts)

/-- A refused nonce leaves what the eviction leaves. -/
theorem held_of_record_error {store : InMemoryNonceStore} {keyId : Uuid} {nonce : List UInt8} {ts : Tso} {error : NonceError}
    (refused : (store.record keyId nonce ts).1 = .error error) :
    (store.record keyId nonce ts).2.held = store.kept ts := by
  rcases outcome : store.record keyId nonce ts with ⟨result, after⟩
  have spec := store.recorded keyId nonce ts
  rw [outcome] at spec refused
  cases spec with
  | replay _ _ content | capacity _ _ content => exact content
  | ok => contradiction

@[simp] theorem cap_record (store : InMemoryNonceStore) (keyId : Uuid) (nonce : List UInt8) (ts : Tso) :
    (store.record keyId nonce ts).2.inner.cap = store.inner.cap := by
  unfold record
  dsimp only
  split_ifs <;> simp only [LruCache.cap_put, LruCache.cap_get_snd, evictExpired, LruCache.cap_foldl_pop]

/-- The entries of the store, as a set. -/
def entries (store : InMemoryNonceStore) : Set (NonceKey × Tso) := { entry | entry ∈ store.inner.iter }

theorem mem_entries {store : InMemoryNonceStore} {key : NonceKey} {ts : Tso} :
    (key, ts) ∈ store.entries ↔ store.held key = some ts := LruCache.mem_iter

end InMemoryNonceStore

end Headlines.Auth
