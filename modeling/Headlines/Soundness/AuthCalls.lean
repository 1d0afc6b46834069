import Mathlib
import Headlines.Auth.Strategy
import Headlines.Machine.Run

/-! # Concurrent calls of the strategy

Any number of calls share one oracle and one nonce store. A call verifies, then validates, then
records; the last two are separate atomic steps and those of other calls come in between. The clock
of a validation is the oracle's, the clock of an eviction is the recorded request's own timestamp.
-/

namespace Headlines.Soundness.AuthCalls

open Core Auth

/-- Where a call stands. -/
inductive Call where
  | idle
  | verified (parts : SignedRequestParts) (subject : Subject)
  | validated (parts : SignedRequestParts) (subject : Subject)
  | ended (answer : Answer)

/-- Answers stand newest first; `recorded` keeps those that came from the nonce store. -/
structure State where
  wallMs : UInt64
  tso : InProcessTso
  nonces : InMemoryNonceStore
  calls : ℕ → Call
  recorded : List Answer

inductive Label where
  | tick (wallMs : UInt64)
  | issue
  | verify (call : ℕ) (parts : SignedRequestParts) (resolved : Except ResolveError ResolvedKey)
  | validate (call : ℕ)
  | record (call : ℕ)

def State.set (s : State) (call : ℕ) (at' : Call) : State :=
  { s with calls := Function.update s.calls call at' }

/-- The clock never runs backwards; every other choice is open. -/
def next (algos : AlgorithmRegistry) (s : State) : Label → Option State
  | .tick wallMs => if s.wallMs ≤ wallMs then some { s with wallMs := wallMs } else none
  | .issue => some { s with tso := (s.tso.issue s.wallMs).2 }
  | .verify call parts resolved =>
      match s.calls call with
      | .idle =>
          match verifyRequest resolved algos parts with
          | .error e => some (s.set call (.ended ⟨parts, .error e⟩))
          | .ok subject => some (s.set call (.verified parts subject))
      | _ => none
  | .validate call =>
      match s.calls call with
      | .verified parts subject =>
          match s.tso.validateSync s.wallMs parts.ts with
          | .error e => some (s.set call (.ended ⟨parts, .error (timeError e)⟩))
          | .ok () => some (s.set call (.validated parts subject))
      | _ => none
  | .record call =>
      match s.calls call with
      | .validated parts subject =>
          let outcome := recordNonce s.nonces parts subject
          let answer : Answer := ⟨parts, outcome.1⟩
          some { s.set call (.ended answer) with
            nonces := outcome.2, recorded := answer :: s.recorded }
      | _ => none

/-- One horizon for the oracle and the store, any word, clock and capacity. -/
def machine (algos : AlgorithmRegistry) : Machine State Label where
  Start s := s.calls = (fun _ => .idle) ∧ s.recorded = [] ∧
    ∃ capacity positive, s.nonces = .withConfig capacity positive s.tso.horizonMs
  next := next algos

/-- Two different calls that carry the same triple do not both end accepted. -/
def AcceptedOnce (s : State) : Prop :=
  ∀ first second one other, first ≠ second → s.calls first = .ended one →
    s.calls second = .ended other → one.parts.triple = other.parts.triple → one.accepted →
    ¬other.accepted

/-- The triple was accepted, and a request dated beyond its horizon was recorded since. -/
def Overtaken (horizonMs : UInt64) (parts : SignedRequestParts) : List Answer → Prop
  | [] => False
  | newest :: older =>
      Overtaken horizonMs parts older ∨
      Expired horizonMs newest.parts.ts parts.ts ∧
        ∃ answer ∈ older, answer.parts.triple = parts.triple ∧ answer.accepted

instance (horizonMs : UInt64) (parts : SignedRequestParts) :
    (answers : List Answer) → Decidable (Overtaken horizonMs parts answers)
  | [] => isFalse id
  | _ :: older =>
      have := instDecidableOvertaken horizonMs parts older
      inferInstanceAs (Decidable (_ ∨ _ ∧ ∃ _ ∈ older, _))

/-- The request whose nonce a call is about to record. -/
def Call.toRecord : Call → Option SignedRequestParts
  | .validated parts _ => some parts
  | _ => none

/-- No call records its nonce after its accepted triple has been overtaken. -/
def InTime (s : State) : Label → Prop
  | .record call => ∀ parts ∈ (s.calls call).toRecord,
      ¬Overtaken s.nonces.horizonMs parts s.recorded
  | _ => True

instance (s : State) : (label : Label) → Decidable (InTime s label)
  | .record _ => inferInstanceAs (Decidable (∀ _ ∈ _, _))
  | .tick _ | .issue | .verify .. | .validate _ => isTrue trivial

theorem overtaken_congr {horizonMs : UInt64} {one other : SignedRequestParts}
    (same : one.triple = other.triple) {answers : List Answer}
    (overtaken : Overtaken horizonMs one answers) : Overtaken horizonMs other answers := by
  induction answers with
  | nil => exact overtaken
  | cons newest older ih =>
    have ts : one.ts = other.ts := congrArg (·.2.2) same
    rcases overtaken with earlier | ⟨late, answer, member, carries, accepted⟩
    · exact .inl (ih earlier)
    · exact .inr ⟨ts ▸ late, answer, member, carries.trans same, accepted⟩

/-- Every accepted call was recorded, and its nonce is held until it is overtaken. -/
structure Inv (s : State) : Prop where
  recorded : ∀ call answer, s.calls call = .ended answer → answer.accepted → answer ∈ s.recorded
  held : ∀ answer ∈ s.recorded, answer.accepted →
    s.nonces.held (nonceKey answer.parts) = some answer.parts.ts ∨
    Overtaken s.nonces.horizonMs answer.parts s.recorded
  once : AcceptedOnce s

/-- Only a record step touches the store, and only it lets a call end accepted. -/
inductive Effect (s : State) (label : Label) (after : State) : Prop
  | quiet (nonces : after.nonces = s.nonces) (recorded : after.recorded = s.recorded)
      (calls : ∀ call answer, after.calls call = .ended answer → answer.accepted →
        s.calls call = .ended answer)
  | record (call : ℕ) (parts : SignedRequestParts) (subject : Subject) (taken : label = .record call)
      (at' : s.calls call = .validated parts subject)
      (result : after = { s.set call (.ended ⟨parts, (recordNonce s.nonces parts subject).1⟩) with
        nonces := (recordNonce s.nonces parts subject).2
        recorded := ⟨parts, (recordNonce s.nonces parts subject).1⟩ :: s.recorded })

private theorem calls_set (s : State) (call other : ℕ) (at' : Call) :
    (s.set call at').calls other = if other = call then at' else s.calls other :=
  Function.update_apply ..

/-- A call that moves without being accepted. -/
private theorem quiet_set {s : State} {label : Label} {call : ℕ} {at' : Call}
    (pending : ∀ answer, at' = .ended answer → ¬answer.accepted) :
    Effect s label (s.set call at') := by
  refine .quiet rfl rfl fun other answer ended accepted => ?_
  rw [calls_set] at ended
  split at ended
  · exact absurd accepted (pending answer ended)
  · exact ended

theorem step_effect {algos : AlgorithmRegistry} {s after : State} {label : Label}
    (step : next algos s label = some after) : Effect s label after := by
  cases label with
  | tick wallMs =>
    simp only [next, Option.ite_none_right_eq_some, Option.some.injEq] at step
    obtain ⟨_, rfl⟩ := step
    exact .quiet rfl rfl fun _ _ ended _ => ended
  | issue =>
    cases step
    exact .quiet rfl rfl fun _ _ ended _ => ended
  | verify call parts resolved =>
    simp only [next] at step
    split at step
    · split at step <;> cases step <;> apply quiet_set <;> rintro answer ⟨⟩
      exact Bool.false_ne_true
    · contradiction
  | validate call =>
    simp only [next] at step
    split at step
    · split at step <;> cases step <;> apply quiet_set <;> rintro answer ⟨⟩
      exact Bool.false_ne_true
    · contradiction
  | record call =>
    simp only [next] at step
    split at step
    · next parts subject at' =>
      cases step
      exact .record call parts subject rfl at' rfl
    · contradiction

theorem inv_start {algos : AlgorithmRegistry} {s : State} (start : (machine algos).Start s) :
    Inv s := by
  obtain ⟨idle, empty, _⟩ := start
  constructor
  · intro call answer ended
    rw [idle] at ended
    contradiction
  · rw [empty]
    exact fun _ member => (List.not_mem_nil member).elim
  · intro first second one other _ ended
    rw [idle] at ended
    contradiction

/-- Recording in time keeps the invariant: the store still refuses what it accepted. -/
theorem inv_record {s : State} (inv : Inv s) (call : ℕ) {parts : SignedRequestParts}
    (subject : Subject) (inTime : ¬Overtaken s.nonces.horizonMs parts s.recorded) :
    Inv { s.set call (.ended ⟨parts, (recordNonce s.nonces parts subject).1⟩) with
      nonces := (recordNonce s.nonces parts subject).2
      recorded := ⟨parts, (recordNonce s.nonces parts subject).1⟩ :: s.recorded } := by
  -- Another accepted answer with this triple contradicts the outcome of the record step.
  have refused : ∀ answer ∈ s.recorded, answer.accepted → answer.parts.triple = parts.triple →
      ¬(recordNonce s.nonces parts subject).1.isOk := by
    intro answer member accepted same
    rcases inv.held answer member accepted with held | overtaken
    · have ts : answer.parts.ts = parts.ts := congrArg (·.2.2) same
      rw [nonceKey_congr same, ts] at held
      rw [recordNonce_replay held]
      exact Bool.false_ne_true
    · exact absurd (overtaken_congr same overtaken) inTime
  constructor
  · intro other answer ended accepted
    change (s.set call _).calls other = _ at ended
    rw [calls_set] at ended
    split at ended
    · cases ended
      exact List.mem_cons_self
    · exact List.mem_cons_of_mem _ (inv.recorded other answer ended accepted)
  · intro answer member accepted
    rw [horizonMs_recordNonce]
    rcases List.mem_cons.mp member with rfl | member
    · exact .inl (held_of_recordNonce accepted)
    · rcases inv.held answer member accepted with held | overtaken
      · rcases held_recordNonce held with kept | late
        · exact .inl kept
        · exact .inr (.inr ⟨late, answer, member, rfl, accepted⟩)
      · exact .inr (.inl overtaken)
  · intro first second one other distinct endedOne endedOther same accepted
    change (s.set call _).calls first = _ at endedOne
    change (s.set call _).calls second = _ at endedOther
    rw [calls_set] at endedOne endedOther
    split at endedOne <;> split at endedOther
    · omega
    · cases endedOne
      intro acceptedOther
      exact refused other (inv.recorded second other endedOther acceptedOther) acceptedOther same.symm
        accepted
    · cases endedOther
      exact refused one (inv.recorded first one endedOne accepted) accepted same
    · exact inv.once first second one other distinct endedOne endedOther same accepted

theorem inv_step {algos : AlgorithmRegistry} {s after : State} {label : Label} (inv : Inv s)
    (inTime : InTime s label) (step : next algos s label = some after) : Inv after := by
  cases step_effect step with
  | quiet nonces recorded calls =>
    constructor
    · intro call answer ended accepted
      rw [recorded]
      exact inv.recorded call answer (calls call answer ended accepted) accepted
    · rw [nonces, recorded]
      exact inv.held
    · intro first second one other distinct endedOne endedOther same accepted acceptedOther
      exact inv.once first second one other distinct (calls first one endedOne accepted)
        (calls second other endedOther acceptedOther) same accepted acceptedOther
  | record call parts subject taken at' result =>
    subst taken result
    apply inv_record inv call subject
    apply inTime parts
    rw [at']
    rfl

/-- No triple is accepted twice in a run whose record steps all come in time. -/
theorem accepted_once (algos : AlgorithmRegistry) {s : State}
    (reached : (machine algos).Reachable InTime s) : AcceptedOnce s :=
  (reached.invariant (fun _ => inv_start) fun _ _ _ => inv_step).once

/-- A key whose two signed requests verify. -/
private def algos : AlgorithmRegistry := fun name =>
  if name = "ed25519" then some ⟨fun _ _ _ => .ok ()⟩ else none

private def keyId : Uuid := ⟨7⟩

private def resolved : Except ResolveError ResolvedKey :=
  .ok ⟨"ed25519", [], .user ⟨1⟩ keyId⟩

private def request (nonce : List UInt8) (tsMs : UInt64) : SignedRequestParts :=
  ⟨"POST", "/headlines.v1.ArticleService/GetArticle", "", Vector.replicate 32 0, keyId, "ed25519",
    Tso.fromParts tsMs 0, nonce, []⟩

private theorem capacity_pos : 0 < 100000 := by decide

private def origin : State :=
  ⟨1000000, ⟨Tso.fromParts 1000000 0, 30000⟩, .withConfig 100000 capacity_pos 30000, fun _ => .idle, []⟩

/-- Two copies of a request and a later one; all three are verified before any is validated. -/
private def verified : List Label :=
  [.verify 0 (request [1] 1000000) resolved, .verify 1 (request [1] 1000000) resolved,
    .verify 2 (request [2] 1030001) resolved]

/-- The copy records while the later request is still in the future. -/
theorem accepted_once_copy : ∃ s one other, (machine algos).Reachable InTime s ∧
    s.calls 0 = .ended one ∧ s.calls 1 = .ended other ∧ one.accepted ∧ ¬other.accepted := by
  have reached : (machine algos).Reachable InTime _ :=
    Machine.reachable_of_replay origin
      (verified ++ [.validate 0, .record 0, .tick 1030000, .validate 1, .record 1, .tick 1030001,
        .validate 2, .record 2]) ⟨rfl, rfl, 100000, by decide, rfl⟩ rfl
  have once := accepted_once algos reached
  exact ⟨_, _, _, reached, rfl, rfl, rfl, once 0 1 _ _ (by decide) rfl rfl rfl rfl⟩

/-- The copy is validated at the last millisecond of its horizon, the later request is recorded in
the next one and evicts the nonce, and the copy is accepted after all. -/
theorem accepted_twice : ¬∀ s, (machine algos).Reachable Machine.anything s → AcceptedOnce s := by
  intro once
  have reached : (machine algos).Reachable Machine.anything _ :=
    Machine.reachable_of_replay origin
      (verified ++ [.validate 0, .record 0, .tick 1030000, .validate 1, .tick 1030001,
        .validate 2, .record 2, .record 1]) ⟨rfl, rfl, 100000, by decide, rfl⟩ rfl
  exact once _ reached 0 1 _ _ (by decide) rfl rfl rfl rfl rfl

end Headlines.Soundness.AuthCalls
