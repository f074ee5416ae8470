/-
# Rolling event rates

A fixed-memory rolling event counter: a ring of per-second buckets, each tagged with
the second it represents (`RollingRate`).
-/
import L4Scope.Config

/-- `u64::MAX`, the tag of a bucket that was never used. -/
def U64_MAX : ℕ := 2 ^ 64 - 1

/-- Counts of the last seconds, a bucket for each. -/
structure RollingRate where
  windowSecs : ℕ
  buckets : List ℕ
  /-- Which second each bucket currently represents. -/
  epoch : List ℕ
  window_pos : 0 < windowSecs
  length_buckets : buckets.length = windowSecs
  length_epoch : epoch.length = windowSecs

namespace RollingRate

/-- A ring of empty buckets. -/
def new (windowSecs : ℕ) : RollingRate where
  windowSecs := max windowSecs 1
  buckets := List.replicate (max windowSecs 1) 0
  epoch := List.replicate (max windowSecs 1) U64_MAX
  window_pos := by omega
  length_buckets := List.length_replicate
  length_epoch := List.length_replicate

/-- Record one event at time `nowNs`. -/
def record (r : RollingRate) (nowNs : ℕ) : RollingRate :=
  let sec := nowNs / NS_PER_SEC
  let i := sec % r.windowSecs
  let fresh := r.epoch.getD i 0 ≠ sec
  { r with
    epoch := if fresh then r.epoch.set i sec else r.epoch
    buckets := r.buckets.set i ((if fresh then 0 else r.buckets.getD i 0) + 1)
    length_buckets := by rw [List.length_set]; exact r.length_buckets
    length_epoch := by split <;> simp [r.length_epoch] }

/-- Total events within the last `windowSecs` seconds ending at `nowNs`. -/
def countWindow (r : RollingRate) (nowNs : ℕ) : ℕ :=
  let sec := nowNs / NS_PER_SEC
  let lo := sec - (r.windowSecs - 1)
  (List.range r.buckets.length).foldl (fun total i =>
    let e := r.epoch.getD i 0
    if e ≠ U64_MAX ∧ lo ≤ e ∧ e ≤ sec then total + r.buckets.getD i 0 else total) 0

/-- Average events per second over the window. -/
def perSec {F : Type} [F64 F] (r : RollingRate) (nowNs : ℕ) : F :=
  F64.div (F64.ofU64 (r.countWindow nowNs)) (F64.ofU64 r.windowSecs)

end RollingRate
