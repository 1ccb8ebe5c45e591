/-!
# Heartbeat.Cadence

How often, how soon and how many times an agent reports. `Settings` is what the operator asks for,
`Cadence` what the scheduler works with: every number in it is positive. Times are milliseconds.
-/

namespace Heartbeat

structure Settings where
  /-- Spacing of the ticks of one cycle. -/
  sendInterval : Nat := 3000
  /-- Delay before each slow refresh. -/
  refreshInterval : Nat := 24 * 60 * 60 * 1000
  /-- Ticks of a slow refresh or an ad hoc cycle, at most. -/
  maxTries : Nat := 3
  /-- How long a tick waits for the collector. -/
  responseTimeout : Nat := 3000
  deriving DecidableEq, Repr

inductive SettingsError where
  | sendIntervalZero
  | refreshIntervalZero
  | responseTimeoutZero
  | maxTriesZero
  deriving DecidableEq, Repr

def SettingsError.message : SettingsError → String
  | .sendIntervalZero => "send interval must be greater than 0"
  | .refreshIntervalZero => "refresh interval must be greater than 0"
  | .responseTimeoutZero => "response timeout must be greater than 0"
  | .maxTriesZero => "max tries per attempt must be greater than 0"

structure Cadence where
  sendInterval : Nat
  refreshInterval : Nat
  maxTries : Nat
  responseTimeout : Nat
  sendInterval_pos : 0 < sendInterval
  refreshInterval_pos : 0 < refreshInterval
  maxTries_pos : 0 < maxTries
  responseTimeout_pos : 0 < responseTimeout
  deriving DecidableEq, Repr

/-- The cadence of positive settings, or the first that is zero. -/
def Settings.cadence (s : Settings) : Except SettingsError Cadence :=
  if hs : s.sendInterval = 0 then .error .sendIntervalZero
  else if hr : s.refreshInterval = 0 then .error .refreshIntervalZero
  else if ht : s.responseTimeout = 0 then .error .responseTimeoutZero
  else if hm : s.maxTries = 0 then .error .maxTriesZero
  else .ok {
    sendInterval := s.sendInterval
    refreshInterval := s.refreshInterval
    maxTries := s.maxTries
    responseTimeout := s.responseTimeout
    sendInterval_pos := Nat.pos_of_ne_zero hs
    refreshInterval_pos := Nat.pos_of_ne_zero hr
    maxTries_pos := Nat.pos_of_ne_zero hm
    responseTimeout_pos := Nat.pos_of_ne_zero ht }

/-- A cadence has what the settings ask for. -/
theorem Settings.of_cadence {s : Settings} {c : Cadence} (h : s.cadence = .ok c) :
    s = ⟨c.sendInterval, c.refreshInterval, c.maxTries, c.responseTimeout⟩ := by
  unfold cadence at h
  split at h
  · cases h
  · split at h
    · cases h
    · split at h
      · cases h
      · split at h <;> cases h
        rfl

end Heartbeat
