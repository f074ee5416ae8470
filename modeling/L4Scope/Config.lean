/-
# Detection thresholds

The `[detect]` section of the configuration (`DetectConfig`) with its defaults.
-/
import L4Scope.Types

/-- Nanoseconds in a second. -/
def NS_PER_SEC : ℕ := 1000000000

/-- Seconds to nanoseconds in `u64` arithmetic, which wraps in the release profile. -/
def secsToNanos (secs : ℕ) : ℕ := NS_PER_SEC * secs % 2 ^ 64

/-- Without overflow a second has 10^9 nanoseconds. -/
theorem secsToNanos_eq {secs : ℕ} (h : NS_PER_SEC * secs < 2 ^ 64) :
    secsToNanos secs = NS_PER_SEC * secs := Nat.mod_eq_of_lt h

/-- Thresholds and timeouts of the engine and its detectors. -/
structure DetectConfig (F : Type) where
  /-- Idle flows older than this (seconds) are garbage-collected. -/
  flowTtlSecs : ℕ
  /-- Retransmit ratio above which we warn. -/
  retransmitRatioWarn : F
  /-- Number of duplicate ACKs that signals fast-retransmit / loss. -/
  dupAckThreshold : UInt32
  /-- RST events per second across the host above which we raise an RST storm. -/
  rstStormPerSec : F
  /-- Concurrent half-open flows to one service above which we flag backlog exhaustion. -/
  synBacklogThreshold : UInt32
  /-- Handshake RTT (ms) above which we flag high latency. -/
  rttWarnMs : F
  /-- Seconds a SYN may go unanswered before we call it a handshake timeout. -/
  handshakeTimeoutSecs : ℕ
  /-- New-flow rate (flows/sec) above which we flag connection churn. -/
  churnPerSec : F
  /-- Minimum seconds between repeated emissions of the same global event. -/
  alertDebounceSecs : ℕ

/-- The defaults of `Config::default().detect`. -/
def DetectConfig.default (F : Type) [F64 F] : DetectConfig F where
  flowTtlSecs := 120
  retransmitRatioWarn := F64.ofDecimal 5 2
  dupAckThreshold := 3
  rstStormPerSec := F64.ofDecimal 20 0
  synBacklogThreshold := 64
  rttWarnMs := F64.ofDecimal 250 0
  handshakeTimeoutSecs := 3
  churnPerSec := F64.ofDecimal 200 0
  alertDebounceSecs := 10
