import Headlines.Machine.Run
import Headlines.Server.Wiring

/-! # The auth state of a server across boots and crashes

Calls run one after another. A process holds its time source, its nonce store and what it did since
it booted; only the high-water row and the flushes already sent survive a crash. A flush that was
sent lands or is lost at any later moment, also under a later process.
-/

namespace Headlines.Soundness.Deployment

open Core Auth Server

/-- What one process did since its boot, newest first. -/
structure Lifetime where
  bootMs : UInt64
  issued : List Tso
  answers : List Answer

structure Process where
  source : TimeSource
  nonces : InMemoryNonceStore
  lifetime : Lifetime

/-- `flushes` holds the sent flushes with the number of lifetimes that had ended when they were. -/
structure State where
  wallMs : UInt64
  row : HighWaterRow
  flushes : List (ℕ × UInt64)
  process : Option Process
  ended : List Lifetime

inductive Label where
  | tick (wallMs : UInt64)
  | boot (readings : List UInt64)
  | crash
  | getTime
  | flush
  | land (index : ℕ)
  | lose (index : ℕ)
  | authenticate (parts : SignedRequestParts) (resolved : Except ResolveError ResolvedKey)

/-- Every lifetime so far, newest first. -/
def State.lifetimes (s : State) : List Lifetime :=
  (s.process.map Process.lifetime).toList ++ s.ended

theorem lifetimes_up {s : State} {p : Process} (up : s.process = some p) :
    s.lifetimes = p.lifetime :: s.ended := by
  rw [State.lifetimes, up]
  rfl

theorem lifetimes_down {s : State} (down : s.process = none) : s.lifetimes = s.ended := by
  rw [State.lifetimes, down]
  rfl

/-- The word a flush persists. -/
def flushed : TimeSource → UInt64
  | .inProcessTso tso => tso.last.physicalMs
  | .localClock _ => 0

def Process.getTime (p : Process) (wallMs : UInt64) : Process :=
  match p.source.now wallMs with
  | (.ok ts, source) => { p with
      source := source, lifetime := { p.lifetime with issued := ts :: p.lifetime.issued } }
  | (.error _, source) => { p with source := source }

def Process.authenticate (p : Process) (algos : AlgorithmRegistry) (wallMs : UInt64)
    (parts : SignedRequestParts) (resolved : Except ResolveError ResolvedKey) : Process :=
  let outcome := authenticateInner resolved algos p.source wallMs p.nonces parts
  { p with
    nonces := outcome.2
    lifetime := { p.lifetime with answers := ⟨parts, outcome.1⟩ :: p.lifetime.answers } }

def next (config : TimeSourceConfig) (algos : AlgorithmRegistry) (s : State) : Label → Option State
  | .tick wallMs => some { s with wallMs := wallMs }
  | .boot readings =>
      match s.process, config.boot s.row readings with
      | none, some (source, row) =>
          let wallMs := readings.getLastD s.wallMs
          some { s with wallMs := wallMs, row := row, process := some ⟨source, .new, ⟨wallMs, [], []⟩⟩ }
      | _, _ => none
  | .crash => s.process.map fun p => { s with process := none, ended := p.lifetime :: s.ended }
  | .getTime => s.process.map fun p => { s with process := some (p.getTime s.wallMs) }
  | .flush =>
      -- The task awaits each write before the next, so one process has at most one in flight.
      if config.flushes ∧ ∀ sent ∈ s.flushes, sent.1 ≠ s.ended.length then
        s.process.map fun p => { s with flushes := (s.ended.length, flushed p.source) :: s.flushes }
      else none
  | .land index => s.flushes[index]?.map fun sent =>
      { s with row := PostgresTsoStore.write s.row sent.2, flushes := s.flushes.eraseIdx index }
  | .lose index => s.flushes[index]?.map fun _ => { s with flushes := s.flushes.eraseIdx index }
  | .authenticate parts resolved => s.process.map fun p =>
      { s with process := some (p.authenticate algos s.wallMs parts resolved) }

/-- Any clock, any stored mark, nothing run yet. -/
def machine (config : TimeSourceConfig) (algos : AlgorithmRegistry) : Machine State Label where
  Start s := s.process = none ∧ s.ended = [] ∧ s.flushes = []
  next := next config algos

/-- The wall clock never runs backwards, boots included. -/
def ClockForward (s : State) : Label → Prop
  | .tick wallMs => s.wallMs ≤ wallMs
  | .boot readings => (s.wallMs :: readings).Pairwise (· ≤ ·)
  | _ => True

instance (s : State) : (label : Label) → Decidable (ClockForward s label)
  | .tick _ => inferInstanceAs (Decidable (_ ≤ _))
  | .boot _ => inferInstanceAs (Decidable (List.Pairwise _ _))
  | .crash | .getTime | .flush | .land _ | .lose _ | .authenticate .. => isTrue trivial

/-- What a step does to the lifetimes; everything else it does is to the row and the flushes. -/
inductive Effect (config : TimeSourceConfig) (algos : AlgorithmRegistry) (s after : State) :
    Label → Prop
  | stored {label : Label} (wallMs : after.wallMs = s.wallMs) (process : after.process = s.process)
      (ended : after.ended = s.ended) : Effect config algos s after label
  | tick (wallMs : UInt64) (result : after = { s with wallMs := wallMs }) :
      Effect config algos s after (.tick wallMs)
  | boot (readings : List UInt64) (source : TimeSource) (row : HighWaterRow) (down : s.process = none)
      (booted : config.boot s.row readings = some (source, row))
      (result : after = { s with
        wallMs := readings.getLastD s.wallMs
        row := row
        process := some ⟨source, .new, ⟨readings.getLastD s.wallMs, [], []⟩⟩ }) :
      Effect config algos s after (.boot readings)
  | crash (p : Process) (up : s.process = some p)
      (result : after = { s with process := none, ended := p.lifetime :: s.ended }) :
      Effect config algos s after .crash
  | getTime (p : Process) (up : s.process = some p)
      (result : after = { s with process := some (p.getTime s.wallMs) }) :
      Effect config algos s after .getTime
  | authenticate (p : Process) (parts : SignedRequestParts)
      (resolved : Except ResolveError ResolvedKey) (up : s.process = some p)
      (result : after = { s with process := some (p.authenticate algos s.wallMs parts resolved) }) :
      Effect config algos s after (.authenticate parts resolved)

theorem step_effect {config : TimeSourceConfig} {algos : AlgorithmRegistry} {s after : State}
    {label : Label} (step : next config algos s label = some after) :
    Effect config algos s after label := by
  cases label with
  | tick wallMs =>
    cases step
    exact .tick wallMs rfl
  | boot readings =>
    simp only [next] at step
    split at step
    · next source row down booted =>
      cases step
      exact .boot readings source row down booted rfl
    · contradiction
  | crash =>
    obtain ⟨p, up, rfl⟩ := Option.map_eq_some_iff.mp step
    exact .crash p up rfl
  | getTime =>
    obtain ⟨p, up, rfl⟩ := Option.map_eq_some_iff.mp step
    exact .getTime p up rfl
  | flush =>
    simp only [next] at step
    split at step
    · obtain ⟨p, up, rfl⟩ := Option.map_eq_some_iff.mp step
      exact .stored rfl rfl rfl
    · contradiction
  | land index =>
    obtain ⟨sent, _, rfl⟩ := Option.map_eq_some_iff.mp step
    exact .stored rfl rfl rfl
  | lose index =>
    obtain ⟨sent, _, rfl⟩ := Option.map_eq_some_iff.mp step
    exact .stored rfl rfl rfl
  | authenticate parts resolved =>
    obtain ⟨p, up, rfl⟩ := Option.map_eq_some_iff.mp step
    exact .authenticate p parts resolved up rfl

end Headlines.Soundness.Deployment
