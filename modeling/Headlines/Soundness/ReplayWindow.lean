import Headlines.Soundness.Deployment

/-! # Replay protection of one process and across restarts

Within a lifetime the store protects a request for as long as the time source admits it only if the
store's window is the wider one. Across restarts nothing but the distance between the request and
the boot protects it, because the store is new.
-/

namespace Headlines.Soundness.ReplayWindow

open Core Auth Server Deployment

/-- No process accepts one triple twice. -/
def AcceptedOnce (s : State) : Prop :=
  ∀ lifetime ∈ s.lifetimes, lifetime.answers.Pairwise fun later earlier =>
    later.parts.triple = earlier.parts.triple → earlier.accepted → ¬later.accepted

/-- No triple is accepted by one process and again by a later one. -/
def AcceptedOnceAcross (s : State) : Prop :=
  s.lifetimes.Pairwise fun later earlier => ∀ again ∈ later.answers, ∀ first ∈ earlier.answers,
    again.parts.triple = first.parts.triple → first.accepted → ¬again.accepted

/-- No triple is accepted by one process and again by a later one whose boot read the clock more than
the horizon past it. -/
def RefusedBeyond (horizonMs : UInt64) (s : State) : Prop :=
  s.lifetimes.Pairwise fun later earlier => ∀ again ∈ later.answers, ∀ first ∈ earlier.answers,
    first.parts.ts.physicalMs.toNat + horizonMs.toNat < later.bootMs.toNat →
    again.parts.triple = first.parts.triple → first.accepted → ¬again.accepted

theorem nowMs_issue (tso : InProcessTso) (wallMs : UInt64) :
    (InProcessTso.nowMs (tso.issue wallMs).2.last wallMs).toNat =
      (InProcessTso.nowMs tso.last wallMs).toNat := by
  rw [InProcessTso.issue]
  cases issued : InProcessTso.nextTso wallMs tso.last with
  | ok next => exact (InProcessTso.nextTso_advances issued).nowMs
  | error e => rfl

theorem horizonMs_issue (tso : InProcessTso) (wallMs : UInt64) :
    (tso.issue wallMs).2.horizonMs = tso.horizonMs := by
  rw [InProcessTso.issue]
  split <;> rfl

/-- What a lifetime has to show for itself, running or ended. -/
structure Kept (config : InProcessTsoConfig) (lifetime : Lifetime) : Prop where
  admitted : ∀ answer ∈ lifetime.answers, answer.accepted →
    lifetime.bootMs.toNat ≤ answer.parts.ts.physicalMs.toNat + config.horizonMs.toNat
  once : config.horizonMs.toNat ≤ 30000 → lifetime.answers.Pairwise fun later earlier =>
    later.parts.triple = earlier.parts.triple → earlier.accepted → ¬later.accepted

/-- The store of a running process holds each accepted nonce until the clock is past its window. -/
structure Running (config : InProcessTsoConfig) (s : State) (p : Process) : Prop where
  store : p.nonces.horizonMs = 30000
  booted : p.lifetime.bootMs ≤ s.wallMs
  source : ∃ tso, p.source = .inProcessTso tso ∧ tso.horizonMs = config.horizonMs ∧
    ∀ answer ∈ p.lifetime.answers, answer.accepted →
      p.nonces.held (nonceKey answer.parts) = some answer.parts.ts ∨
      answer.parts.ts.physicalMs.toNat + 30000 < (InProcessTso.nowMs tso.last s.wallMs).toNat

structure Inv (config : InProcessTsoConfig) (s : State) : Prop where
  ended : ∀ lifetime ∈ s.ended, Kept config lifetime
  current : ∀ p, s.process = some p → Kept config p.lifetime ∧ Running config s p

theorem Inv.kept {config : InProcessTsoConfig} {s : State} (inv : Inv config s) :
    ∀ lifetime ∈ s.lifetimes, Kept config lifetime := by
  intro lifetime member
  rcases List.mem_append.mp member with running | old
  · obtain ⟨p, up, rfl⟩ := Option.map_eq_some_iff.mp (Option.mem_toList.mp running)
    exact (inv.current p up).1
  · exact inv.ended lifetime old

section steps

variable {config : InProcessTsoConfig} {algos : AlgorithmRegistry} {s : State} {p : Process}

theorem inv_start (start : (machine (.inProcessTso config) algos).Start s) : Inv config s := by
  obtain ⟨down, ended, _⟩ := start
  constructor
  · rw [ended]
    exact fun _ member => (List.not_mem_nil member).elim
  · intro p up
    rw [down] at up
    contradiction

theorem running_boot {readings : List UInt64} {source : TimeSource} {row : HighWaterRow}
    (booted : (TimeSourceConfig.inProcessTso config).boot s.row readings = some (source, row)) :
    Running config { s with wallMs := readings.getLastD s.wallMs }
      ⟨source, .new, ⟨readings.getLastD s.wallMs, [], []⟩⟩ := by
  obtain ⟨tso, built, same⟩ := Option.map_eq_some_iff.mp booted
  cases same
  refine ⟨rfl, UInt64.le_refl _, tso, rfl, (InProcessTso.newWithClock_some built).1, ?_⟩
  exact fun _ member => (List.not_mem_nil member).elim

/-- Moving the clock forwards only adds to what the store may forget. -/
theorem running_clock (running : Running config s p) {wallMs : UInt64} (forward : s.wallMs ≤ wallMs) :
    Running config { s with wallMs := wallMs } p := by
  obtain ⟨store, booted, tso, source, horizon, held⟩ := running
  refine ⟨store, UInt64.le_trans booted forward, tso, source, horizon, fun answer member accepted => ?_⟩
  have later := UInt64.le_iff_toNat_le.mp forward
  rcases held answer member accepted with kept | past
  · exact .inl kept
  · right
    rw [InProcessTso.nowMs_toNat] at past ⊢
    dsimp only
    omega

/-- Issuing leaves boot, answers, store and the current time as they are. -/
theorem current_getTime (kept : Kept config p.lifetime) (running : Running config s p) :
    Kept config (p.getTime s.wallMs).lifetime ∧ Running config s (p.getTime s.wallMs) := by
  obtain ⟨store, booted, tso, source, horizon, held⟩ := running
  have answer : p.source.now s.wallMs =
      ((tso.issue s.wallMs).1, .inProcessTso (tso.issue s.wallMs).2) := by
    rw [source]
    rfl
  have still : ∀ answer ∈ p.lifetime.answers, answer.accepted →
      p.nonces.held (nonceKey answer.parts) = some answer.parts.ts ∨
      answer.parts.ts.physicalMs.toNat + 30000 <
        (InProcessTso.nowMs (tso.issue s.wallMs).2.last s.wallMs).toNat := by
    rw [nowMs_issue]
    exact held
  have width := (horizonMs_issue tso s.wallMs).trans horizon
  rw [Process.getTime, answer]
  cases (tso.issue s.wallMs).1 with
  | ok ts => exact ⟨⟨kept.admitted, kept.once⟩, store, booted, _, rfl, width, still⟩
  | error e => exact ⟨kept, store, booted, _, rfl, width, still⟩

/-- An accepted request is within the horizon, and its nonce was not held. -/
theorem current_authenticate (kept : Kept config p.lifetime) (running : Running config s p)
    (parts : SignedRequestParts) (resolved : Except ResolveError ResolvedKey) :
    Kept config (p.authenticate algos s.wallMs parts resolved).lifetime ∧
      Running config s (p.authenticate algos s.wallMs parts resolved) := by
  obtain ⟨store, booted, tso, source, horizon, held⟩ := running
  obtain ⟨admitted, once⟩ := kept
  rw [Process.authenticate]
  rcases authenticateInner_cases with ⟨e, outcome⟩ | ⟨subject, valid, outcome⟩
  · rw [outcome]
    have refused : ¬Answer.accepted ⟨parts, .error e⟩ := Bool.false_ne_true
    refine ⟨⟨fun answer member accepted => ?_, fun narrow => ?_⟩, store, booted, tso, source, horizon,
      fun answer member accepted => ?_⟩
    · rcases List.mem_cons.mp member with rfl | old
      · exact absurd accepted refused
      · exact admitted answer old accepted
    · exact .cons (fun _ _ _ _ => refused) (once narrow)
    · rcases List.mem_cons.mp member with rfl | old
      · exact absurd accepted refused
      · exact held answer old accepted
  · rw [outcome]
    rw [source] at valid
    obtain ⟨notAhead, within⟩ := InProcessTso.validateSync_ok_iff.mp valid
    rw [horizon] at within
    refine ⟨⟨fun answer member accepted => ?_, fun narrow => ?_⟩, ?_, booted, tso, source, horizon,
      fun answer member accepted => ?_⟩
    · rcases List.mem_cons.mp member with rfl | old
      · have := UInt64.le_iff_toNat_le.mp booted
        rw [InProcessTso.nowMs_toNat] at within
        dsimp only
        omega
      · exact admitted answer old accepted
    · refine .cons (fun answer member same accepted again => ?_) (once narrow)
      have ts : parts.ts = answer.parts.ts := congrArg (·.2.2) same
      rcases held answer member accepted with found | past
      · rw [← nonceKey_congr same, ← ts] at found
        change (recordNonce p.nonces parts subject).1.isOk at again
        rw [recordNonce_replay found] at again
        contradiction
      · rw [← ts] at past
        omega
    · exact horizonMs_recordNonce.trans store
    · rcases List.mem_cons.mp member with rfl | old
      · exact .inl (held_of_recordNonce accepted)
      · rcases held answer old accepted with found | past
        · rcases held_recordNonce found with still | late
          · exact .inl still
          · -- The cutoff of the eviction is a validated timestamp, so the clock has reached it.
            rw [expired_iff, store] at late
            right
            change answer.parts.ts.physicalMs.toNat + 30000 < parts.ts.physicalMs.toNat at late
            omega
        · exact .inr past

theorem inv_step {after : State} {label : Label} (inv : Inv config s) (forward : ClockForward s label)
    (step : next (.inProcessTso config) algos s label = some after) : Inv config after := by
  obtain ⟨past, current⟩ := inv
  cases step_effect step with
  | stored wallMs process ended =>
    refine ⟨ended ▸ past, fun p up => ?_⟩
    obtain ⟨kept, store, booted, source⟩ := current p (process ▸ up)
    exact ⟨kept, store, wallMs ▸ booted, wallMs ▸ source⟩
  | tick wallMs result =>
    subst result
    refine ⟨past, fun p up => ?_⟩
    obtain ⟨kept, running⟩ := current p up
    exact ⟨kept, running_clock running forward⟩
  | boot readings source row down booted result =>
    subst result
    refine ⟨past, ?_⟩
    rintro q ⟨⟩
    refine ⟨⟨fun _ member => (List.not_mem_nil member).elim, fun _ => .nil⟩, ?_⟩
    obtain ⟨store, boot, source⟩ := running_boot booted
    exact ⟨store, boot, source⟩
  | crash p up result =>
    subst result
    refine ⟨fun lifetime member => ?_, fun q stopped => by contradiction⟩
    rcases List.mem_cons.mp member with rfl | old
    · exact (current p up).1
    · exact past lifetime old
  | getTime p up result =>
    subst result
    refine ⟨past, ?_⟩
    rintro q ⟨⟩
    obtain ⟨kept, store, booted, source⟩ := current_getTime (current p up).1 (current p up).2
    exact ⟨kept, store, booted, source⟩
  | authenticate p parts resolved up result =>
    subst result
    refine ⟨past, ?_⟩
    rintro q ⟨⟩
    obtain ⟨kept, store, booted, source⟩ :=
      current_authenticate (current p up).1 (current p up).2 parts resolved
    exact ⟨kept, store, booted, source⟩

theorem inv_reachable (reached : (machine (.inProcessTso config) algos).Reachable ClockForward s) :
    Inv config s :=
  reached.invariant (fun _ => inv_start) fun _ _ _ => inv_step

end steps

/-- What one process accepted is refused by every later process that boots beyond its horizon. -/
theorem refused_after_restart (config : InProcessTsoConfig) (algos : AlgorithmRegistry) {s : State}
    (reached : (machine (.inProcessTso config) algos).Reachable ClockForward s) :
    RefusedBeyond config.horizonMs s := by
  refine List.pairwise_of_forall_mem_list fun later member earlier _ => ?_
  intro again answered first _ beyond same _ accepted
  have inside := ((inv_reachable reached).kept later member).admitted again answered accepted
  have ts : again.parts.ts = first.parts.ts := congrArg (·.2.2) same
  rw [ts] at inside
  omega

section evicted

variable {config : TimeSourceConfig} {algos : AlgorithmRegistry} {source : TimeSource}
  {p : Process} {wallMs : UInt64} {parts : SignedRequestParts} {after : InMemoryNonceStore}
  {resolved : Except ResolveError ResolvedKey} {subject : Subject}

private theorem authenticate_ok (verified : verifyRequest resolved algos parts = .ok subject)
    (valid : p.source.validate wallMs parts.ts = .ok ())
    (recorded : p.nonces.record parts.keyId parts.nonce parts.ts = (.ok (), after)) :
    p.authenticate algos wallMs parts resolved =
      ⟨p.source, after, ⟨p.lifetime.bootMs, p.lifetime.issued, ⟨parts, .ok subject⟩ :: p.lifetime.answers⟩⟩ := by
  rw [Process.authenticate, authenticateInner_ok verified valid recorded]

/-- A source that admits two timestamps further apart than the store's window, and then still admits
the earlier one, lets it be accepted twice. -/
theorem not_acceptedOnce_of_window (signable : Signable algos) {readings : List UInt64}
    {row : HighWaterRow} {laterMs : UInt64}
    (booted : config.boot none readings = some (source, row)) (last : readings.getLastD 1001 = 1001)
    (forward : (1001 :: readings).Pairwise (· ≤ ·)) (later : 1001 ≤ laterMs)
    (first : source.validate 1001 (Tso.fromParts 1001 0) = .ok ())
    (second : source.validate laterMs (Tso.fromParts 31002 0) = .ok ())
    (again : source.validate laterMs (Tso.fromParts 1001 0) = .ok ()) :
    ∃ s, (machine config algos).Reachable ClockForward s ∧ ¬AcceptedOnce s := by
  obtain ⟨old, oldKey, oldSubject, keyId, nonce, ts, verified⟩ :=
    exists_signed signable ⟨7⟩ [1] (Tso.fromParts 1001 0)
  obtain ⟨new, newKey, newSubject, newKeyId, newNonce, newTs, newVerified⟩ :=
    exists_signed signable ⟨7⟩ [2] (Tso.fromParts 31002 0)
  -- The second record evicts what the first one stored, so the third finds nothing.
  obtain ⟨one, two, three, recordedOne, recordedTwo, recordedThree⟩ :
      ∃ one two three : InMemoryNonceStore,
        InMemoryNonceStore.new.record ⟨7⟩ [1] (Tso.fromParts 1001 0) = (.ok (), one) ∧
        one.record ⟨7⟩ [2] (Tso.fromParts 31002 0) = (.ok (), two) ∧
        two.record ⟨7⟩ [1] (Tso.fromParts 1001 0) = (.ok (), three) := ⟨_, _, _, rfl, rfl, rfl⟩
  let down : State := ⟨1001, none, [], none, []⟩
  let serving (wallMs : UInt64) (nonces : InMemoryNonceStore) (answers : List Answer) : State :=
    ⟨wallMs, row, [], some ⟨source, nonces, ⟨1001, [], answers⟩⟩, []⟩
  have boot : next config algos down (.boot readings) = some (serving 1001 .new []) := by
    simp only [next, down, booted, last, serving]
  have callOne : next config algos (serving 1001 .new []) (.authenticate old oldKey) =
      some (serving 1001 one [⟨old, .ok oldSubject⟩]) := by
    simp only [next, serving, Option.map_some]
    rw [authenticate_ok verified (ts ▸ first) (by rw [keyId, nonce, ts]; exact recordedOne)]
  have callTwo : next config algos (serving laterMs one [⟨old, .ok oldSubject⟩])
      (.authenticate new newKey) =
      some (serving laterMs two [⟨new, .ok newSubject⟩, ⟨old, .ok oldSubject⟩]) := by
    simp only [next, serving, Option.map_some]
    rw [authenticate_ok newVerified (newTs ▸ second)
      (by rw [newKeyId, newNonce, newTs]; exact recordedTwo)]
  have callThree : next config algos
      (serving laterMs two [⟨new, .ok newSubject⟩, ⟨old, .ok oldSubject⟩]) (.authenticate old oldKey) =
      some (serving laterMs three
        [⟨old, .ok oldSubject⟩, ⟨new, .ok newSubject⟩, ⟨old, .ok oldSubject⟩]) := by
    simp only [next, serving, Option.map_some]
    rw [authenticate_ok verified (ts ▸ again) (by rw [keyId, nonce, ts]; exact recordedThree)]
  have run : (machine config algos).Run ClockForward down
      ([.boot readings] ++ [.authenticate old oldKey] ++ [.tick laterMs] ++
        [.authenticate new newKey] ++ [.authenticate old oldKey])
      (serving laterMs three [⟨old, .ok oldSubject⟩, ⟨new, .ok newSubject⟩, ⟨old, .ok oldSubject⟩]) :=
    .snoc (.snoc (.snoc (.snoc (.snoc .nil forward boot) trivial callOne) later rfl) trivial callTwo)
      trivial callThree
  refine ⟨_, ⟨down, _, ⟨rfl, rfl, rfl⟩, run⟩, fun once => ?_⟩
  have pairs := once _ List.mem_cons_self
  have distinct := (List.pairwise_cons.mp pairs).1 ⟨old, .ok oldSubject⟩
    (List.mem_cons_of_mem _ List.mem_cons_self)
  exact distinct rfl rfl rfl

/-- The oracle's horizon is wider than the store's window. -/
theorem oracle_not_acceptedOnce (signable : Signable algos) {horizonMs : UInt64}
    (wide : 30001 ≤ horizonMs.toNat) :
    ∃ s, (machine (.inProcessTso ⟨horizonMs, 1000⟩) algos).Reachable ClockForward s ∧
      ¬AcceptedOnce s := by
  have old : (Tso.fromParts 1001 0).physicalMs.toNat = 1001 := by decide
  have new : (Tso.fromParts 31002 0).physicalMs.toNat = 31002 := by decide
  have booting : (InProcessTso.nowMs (Tso.fromParts 1001 0) 1001).toNat = 1001 := by decide
  have later : (InProcessTso.nowMs (Tso.fromParts 1001 0) 31002).toNat = 31002 := by decide
  have booted : (TimeSourceConfig.inProcessTso ⟨horizonMs, 1000⟩).boot none [1001, 1001] =
      some (.inProcessTso ⟨Tso.fromParts 1001 0, horizonMs⟩, some 0) := rfl
  refine not_acceptedOnce_of_window signable booted rfl (by decide)
    (by decide : (1001 : UInt64) ≤ 31002) ?_ ?_ ?_
  · apply InProcessTso.validateSync_ok_iff.mpr
    rw [booting, old]
    omega
  · apply InProcessTso.validateSync_ok_iff.mpr
    rw [later, new]
    omega
  · apply InProcessTso.validateSync_ok_iff.mpr
    rw [later, old]
    dsimp only
    omega

/-- The wall clock admits both sides of itself, twice the store's window. -/
theorem localClock_not_acceptedOnce (signable : Signable algos) :
    ∃ s, (machine (.localClock .default) algos).Reachable ClockForward s ∧ ¬AcceptedOnce s := by
  have booted : (TimeSourceConfig.localClock .default).boot none [] =
      some (.localClock .default, none) := rfl
  have admits (wallMs tsMs : UInt64)
      (near : (Tso.fromParts tsMs 0).physicalMs.toNat ≤ wallMs.toNat + LocalClock.default.horizonMs.toNat ∧
        wallMs.toNat ≤ (Tso.fromParts tsMs 0).physicalMs.toNat + LocalClock.default.horizonMs.toNat) :
      (TimeSource.localClock .default).validate wallMs (Tso.fromParts tsMs 0) = .ok () :=
    LocalClock.validate_ok_iff.mpr near
  exact not_acceptedOnce_of_window signable booted rfl (by decide) (by decide : (1001 : UInt64) ≤ 1002)
    (admits 1001 1001 (by decide)) (admits 1002 31002 (by decide)) (admits 1002 1001 (by decide))

end evicted

/-- Replay protection within a lifetime holds for exactly the oracle with a horizon of at most the
store's thirty seconds. -/
theorem acceptedOnce_iff (config : AuthTimeConfig) (setup : TimeSourceConfig)
    (algos : AlgorithmRegistry) (wired : timeSourceConfig config = .ok setup)
    (signable : Signable algos) :
    (∀ s, (machine setup algos).Reachable ClockForward s → AcceptedOnce s) ↔
      config.source = "in_process_tso" ∧ config.horizonSeconds.toNat ≤ 30 := by
  have width := UInt64.toNat_saturatingMul config.horizonSeconds 1000
  have factor : (1000 : UInt64).toNat = 1000 := by decide
  rw [factor] at width
  unfold timeSourceConfig at wired
  split at wired
  · next oracle =>
    cases wired
    constructor
    · intro once
      refine ⟨oracle, ?_⟩
      by_contra wide
      obtain ⟨s, reached, twice⟩ := oracle_not_acceptedOnce signable
        (by omega : 30001 ≤ (config.horizonSeconds.saturatingMul 1000).toNat)
      exact twice (once s reached)
    · rintro ⟨_, narrow⟩ s reached lifetime member
      apply ((inv_reachable reached).kept lifetime member).once
      dsimp only
      omega
  · next other =>
    split at wired
    · cases wired
      refine ⟨fun once => ?_, fun holds => absurd holds.1 other⟩
      obtain ⟨s, reached, twice⟩ := localClock_not_acceptedOnce signable
      exact absurd (once s reached) twice
    · contradiction

/-- An algorithm whose signature of a message is the message. -/
private def echo : AlgorithmRegistry := fun name =>
  if name = "ed25519" then
    some ⟨fun _ canonical signature => if signature = canonical then .ok () else .error .badSignature⟩
  else none

private theorem signable_echo : Signable echo := by
  refine ⟨"ed25519", _, [], rfl, fun canonical => ⟨canonical, ?_⟩⟩
  dsimp only
  rw [if_pos rfl]

/-- The default configuration is protected. -/
theorem acceptedOnce_default :
    (∀ s, (machine (.inProcessTso ⟨30000, 1000⟩) echo).Reachable ClockForward s → AcceptedOnce s) ↔
      AuthTimeConfig.default.source = "in_process_tso" ∧
        AuthTimeConfig.default.horizonSeconds.toNat ≤ 30 :=
  acceptedOnce_iff .default _ echo rfl signable_echo

/-- A horizon of one minute is not, and neither is the wall clock. -/
theorem not_acceptedOnce_wide :
    (timeSourceConfig ⟨"in_process_tso", 60⟩ = .ok (.inProcessTso ⟨60000, 1000⟩) ∧
      ¬∀ s, (machine (.inProcessTso ⟨60000, 1000⟩) echo).Reachable ClockForward s → AcceptedOnce s) ∧
    timeSourceConfig ⟨"local_clock", 30⟩ = .ok (.localClock .default) ∧
      ¬∀ s, (machine (.localClock .default) echo).Reachable ClockForward s → AcceptedOnce s := by
  obtain ⟨wide, reachedWide, twiceWide⟩ := oracle_not_acceptedOnce signable_echo
    (by decide : 30001 ≤ (60000 : UInt64).toNat)
  obtain ⟨sided, reachedSided, twiceSided⟩ := localClock_not_acceptedOnce signable_echo
  exact ⟨⟨by decide, fun once => twiceWide (once wide reachedWide)⟩,
    by decide, fun once => twiceSided (once sided reachedSided)⟩

private def request : SignedRequestParts :=
  ⟨"GET", "/v1/feed", "", Vector.replicate 32 0, ⟨7⟩, "ed25519", Tso.fromParts 2000 0, [1], []⟩

private def signed : SignedRequestParts :=
  { request with signature := bytes (buildCanonicalString request) }

private def resolved : Except ResolveError ResolvedKey := .ok ⟨"ed25519", [], .anonymous⟩

private def down : State := ⟨2000, none, [], none, []⟩

/-- A restart five seconds later forgets the nonce and still admits the timestamp. -/
theorem not_acceptedOnceAcross : ¬∀ s,
    (machine (.inProcessTso .default) echo).Reachable ClockForward s → AcceptedOnceAcross s := by
  intro once
  have reached : (machine (.inProcessTso .default) echo).Reachable ClockForward _ :=
    Machine.reachable_of_replay down
      [.boot [2000, 2000], .authenticate signed resolved, .crash, .boot [7000, 7000],
        .authenticate signed resolved] ⟨rfl, rfl, rfl⟩ rfl
  have across := (List.pairwise_cons.mp (once _ reached)).1 _ List.mem_cons_self
  exact across _ List.mem_cons_self _ List.mem_cons_self rfl (by decide +kernel) (by decide +kernel)

/-- A restart past the horizon refuses it. -/
theorem refused_after_late_restart : ∃ s,
    (machine (.inProcessTso .default) echo).Reachable ClockForward s ∧ s.lifetimes.length = 2 ∧
    RefusedBeyond InProcessTsoConfig.default.horizonMs s := by
  have reached : (machine (.inProcessTso .default) echo).Reachable ClockForward _ :=
    Machine.reachable_of_replay down
      [.boot [2000, 2000], .authenticate signed resolved, .crash, .boot [32001, 32001],
        .authenticate signed resolved] ⟨rfl, rfl, rfl⟩ rfl
  exact ⟨_, reached, rfl, refused_after_restart _ _ reached⟩

end Headlines.Soundness.ReplayWindow
