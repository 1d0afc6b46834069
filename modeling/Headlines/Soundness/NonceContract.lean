import Headlines.Auth.NonceStore
import Headlines.Machine.Run

/-! # What the nonce store promises

`record` is called with any timestamps in any order. The clock of the store is the timestamp of the call, so a
nonce is remembered until some call carries one past the horizon of its entry, and only such a call drops it.
-/

namespace Headlines.Soundness.NonceContract

open Core Auth

/-- One answered call. -/
structure Answered where
  key : NonceKey
  ts : Tso
  result : Except NonceError Unit

/-- Answers stand newest first. -/
structure State where
  store : InMemoryNonceStore
  answers : List Answered

/-- A call is its key and the timestamp it carries. -/
def next (s : State) (call : NonceKey × Tso) : Option State :=
  let outcome := s.store.record call.1.keyId call.1.nonce call.2
  some ⟨outcome.2, ⟨call.1, call.2, outcome.1⟩ :: s.answers⟩

def machine (capacity : ℕ) (positive : 0 < capacity) (horizonMs : UInt64) : Machine State (NonceKey × Tso) where
  Start s := s = ⟨.withConfig capacity positive horizonMs, []⟩
  next := next

/-- No call after the recording, up to the present one, is dated past the horizon of the entry. -/
def Inside (horizonMs : UInt64) (first : Answered) (since : List Answered) : Prop :=
  ∀ answer ∈ since, answer.ts.physicalMs.toNat ≤ first.ts.physicalMs.toNat + horizonMs.toNat

/-- A recorded nonce is a replay until some call is dated past its horizon. -/
def Remembered (horizonMs : UInt64) (answers : List Answered) : Prop :=
  ∀ later again between first earlier, answers = later ++ again :: (between ++ first :: earlier) →
    first.result = .ok () → again.key = first.key → Inside horizonMs first (again :: between) →
    again.result = .error .replay

/-- What one call does to the entries. -/
structure Careful (horizonMs : UInt64) (before : InMemoryNonceStore) (ts : Tso)
    (outcome : Except NonceError Unit × InMemoryNonceStore) : Prop where
  /-- Only expired entries go. -/
  spared : ∀ key entry, (key, entry) ∈ before.entries → (key, entry) ∉ outcome.2.entries →
    entry.physicalMs.toNat + horizonMs.toNat < ts.physicalMs.toNat
  /-- A refused call only drops entries, and those are expired. -/
  refused : ∀ error, outcome.1 = .error error → outcome.2.entries ⊆ before.entries

/-- A nonce is held as long as it has to be. -/
structure Inv (capacity : ℕ) (horizonMs : UInt64) (s : State) : Prop where
  horizon : s.store.horizonMs = horizonMs
  cap : s.store.inner.cap = capacity
  held : ∀ between first earlier, s.answers = between ++ first :: earlier → first.result = .ok () →
    Inside horizonMs first between → s.store.held first.key = some first.ts
  remembered : Remembered horizonMs s.answers

variable {capacity : ℕ} {horizonMs : UInt64} {s after : State}

theorem not_expired_of_inside {first answer : Answered} {since : List Answered} (inside : Inside horizonMs first since)
    (member : answer ∈ since) : ¬Expired horizonMs answer.ts first.ts := by
  have bound := inside answer member
  rw [expired_iff]
  omega

theorem inv_start (positive : 0 < capacity) : Inv capacity horizonMs ⟨.withConfig capacity positive horizonMs, []⟩ where
  horizon := rfl
  cap := rfl
  held between first earlier split := by simp at split
  remembered later again between first earlier split := by simp at split

theorem inv_step {call : NonceKey × Tso} (inv : Inv capacity horizonMs s) (step : next s call = some after) :
    Inv capacity horizonMs after := by
  obtain ⟨key, ts⟩ := call
  obtain rfl := Option.some.inj step
  refine ⟨?_, ?_, fun between first earlier split recorded inside => ?_,
    fun later again between first earlier split recorded same inside => ?_⟩
  · rw [InMemoryNonceStore.horizonMs_record, inv.horizon]
  · rw [InMemoryNonceStore.cap_record, inv.cap]
  · cases between with
    | nil =>
      obtain ⟨rfl, -⟩ := List.cons.inj split
      exact InMemoryNonceStore.held_of_record_ok recorded
    | cons newest between =>
      obtain ⟨rfl, rest⟩ := List.cons.inj split
      have found := inv.held between first earlier rest recorded fun answer member =>
        inside answer (List.mem_cons_of_mem _ member)
      have live := not_expired_of_inside inside (List.mem_cons_self ..)
      rw [← inv.horizon] at live
      exact (InMemoryNonceStore.held_record found _ _ _).resolve_right live
  · cases later with
    | nil =>
      obtain ⟨rfl, rest⟩ := List.cons.inj split
      have found := inv.held between first earlier rest recorded fun answer member =>
        inside answer (List.mem_cons_of_mem _ member)
      have live := not_expired_of_inside inside (List.mem_cons_self ..)
      rw [← inv.horizon] at live
      rw [← same] at found
      exact InMemoryNonceStore.record_error_replay found live
    | cons newest later =>
      exact inv.remembered later again between first earlier (List.cons.inj split).2 recorded same inside

/-- A call drops an entry only if it is expired at the timestamp of the call. -/
theorem careful (horizon : s.store.horizonMs = horizonMs) (key : NonceKey) (ts : Tso) :
    Careful horizonMs s.store ts (s.store.record key.keyId key.nonce ts) where
  spared other entry present gone := by
    rw [InMemoryNonceStore.mem_entries] at present gone
    have expired := (InMemoryNonceStore.held_record present key.keyId key.nonce ts).resolve_left gone
    rwa [expired_iff, horizon] at expired
  refused error refused := by
    rintro ⟨other, entry⟩ present
    rw [InMemoryNonceStore.mem_entries, InMemoryNonceStore.held_of_record_error refused] at present
    exact InMemoryNonceStore.mem_entries.mpr (InMemoryNonceStore.kept_eq_some.mp present).1

/-- After any calls: recorded nonces are remembered, the store is within its capacity, and whatever call comes
next drops expired entries only, and adds nothing if it is refused. -/
theorem nonce_contract (positive : 0 < capacity)
    (reached : (machine capacity positive horizonMs).Reachable Machine.anything s) :
    Remembered horizonMs s.answers ∧ s.store.inner.iter.length ≤ capacity ∧
      ∀ key : NonceKey, ∀ ts, Careful horizonMs s.store ts (s.store.record key.keyId key.nonce ts) := by
  have inv : Inv capacity horizonMs s :=
    reached.invariant (fun _ start => start ▸ inv_start positive) fun _ _ _ inv _ step => inv_step inv step
  refine ⟨inv.remembered, ?_, fun key ts => careful inv.horizon key ts⟩
  have bounded := s.store.inner.bounded
  rwa [inv.cap, ← List.length_map] at bounded

/-- A store of one entry: recorded, replayed at the horizon, refused to another nonce, forgotten past the horizon. -/
private def filled : List (NonceKey × Tso) :=
  [(⟨⟨7⟩, [1]⟩, Tso.fromParts 1000 0), (⟨⟨7⟩, [1]⟩, Tso.fromParts 6000 0),
    (⟨⟨7⟩, [2]⟩, Tso.fromParts 500 0), (⟨⟨7⟩, [2]⟩, Tso.fromParts 6001 0)]

/-- What each call of `filled` answers. -/
private def answersFilled (s : State) : Bool :=
  s.answers.map (·.result) = [.ok (), .error .capacity, .error .replay, .ok ()]

theorem nonce_contract_filled : ∃ s, answersFilled s ∧
    Remembered 5000 s.answers ∧ s.store.inner.iter.length ≤ 1 ∧
      ∀ key : NonceKey, ∀ ts, Careful 5000 s.store ts (s.store.record key.keyId key.nonce ts) := by
  obtain ⟨s, reached, answered⟩ := (machine 1 (by decide) 5000).reachable_of_check Machine.anything
    ⟨.withConfig 1 (by decide) 5000, []⟩ filled answersFilled rfl (by decide)
  exact ⟨s, answered, nonce_contract (by decide) reached⟩

end Headlines.Soundness.NonceContract
