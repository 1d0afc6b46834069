import Headlines.Auth.Strategy

/-! # What the server binary builds from its configuration

The time source follows `auth.time`; the nonce store follows nothing. The high-water row is an
argument and a result, since the boot of the oracle seeds it when it is missing.
-/

namespace Headlines.Server

open Auth

structure AuthTimeConfig where
  source : String
  horizonSeconds : UInt64
deriving DecidableEq, Repr

def AuthTimeConfig.default : AuthTimeConfig := ⟨"in_process_tso", 30⟩

/-- A time source that is configured and not yet booted. -/
inductive TimeSourceConfig where
  | inProcessTso (config : InProcessTsoConfig)
  | localClock (clock : LocalClock)
deriving DecidableEq, Repr

/-- The choice `buildTimeSource` makes; anything else fails the boot. -/
def timeSourceConfig (config : AuthTimeConfig) : Except String TimeSourceConfig :=
  if config.source = "in_process_tso" then
    .ok (.inProcessTso ⟨config.horizonSeconds.saturatingMul 1000, 1000⟩)
  else if config.source = "local_clock" then .ok (.localClock .default)
  else .error ("invalid auth.time.source: " ++ config.source.quote)

/-- Boot the source against the high-water row, with the clock readings its boot makes. -/
def TimeSourceConfig.boot (config : TimeSourceConfig) (row : HighWaterRow) (readings : List UInt64) :
    Option (TimeSource × HighWaterRow) :=
  match config with
  | .inProcessTso config =>
      let (row, stored) := PostgresTsoStore.read row
      (InProcessTso.newWithClock config stored readings).map fun tso => (.inProcessTso tso, row)
  | .localClock clock => if readings = [] then some (.localClock clock, row) else none

/-- The period of the background flush; a zero interval and the wall clock have none. -/
def TimeSourceConfig.flushes : TimeSourceConfig → Bool
  | .inProcessTso config => config.flushIntervalMs ≠ 0
  | .localClock _ => false

end Headlines.Server
