import Mathlib.Tactic

/-!
# The agent's counters

Observations, snapshots and the log-linear histogram of one run. Counters are
64-bit and wrap. Means and quantiles are exact rationals. An observation is one
step: a snapshot falls before or after it. `TornSnapshots` takes the atomic additions
one by one.
-/
namespace R2Bench

def subBits : UInt64 := 3

def subCount : UInt64 := 1 <<< subBits

def numBuckets : ℕ := 256

theorem toNat_lt_numBuckets {v : UInt64} (h : v < subCount) : v.toNat < numBuckets := by
  have hlt : v.toNat < 8 := UInt64.lt_iff_toNat_lt.mp h
  unfold numBuckets
  omega

/-- The linear region below `subCount`, the log-linear region above it, and a
last bucket for everything beyond. -/
def bucketIndex (v : UInt64) : Fin numBuckets :=
  if h : v < subCount then ⟨v.toNat, toNat_lt_numBuckets h⟩
  else
    let e := v.log2
    let m := (v >>> (e - subBits)) &&& (subCount - 1)
    let idx := (((e - subBits + 1) <<< subBits) ||| m).toNat
    if h : idx < numBuckets then ⟨idx, h⟩ else ⟨numBuckets - 1, by decide⟩

/-- The lower bound of a bucket. -/
def bucketValue (i : UInt64) : UInt64 :=
  if i < subCount then i
  else
    let e := (i >>> subBits) + subBits - 1
    let m := i &&& (subCount - 1)
    (subCount ||| m) <<< (e - subBits)

/-- A point-in-time read of the cumulative counters. -/
@[ext] structure Snapshot where
  count : UInt64
  errors : UInt64
  bytes : UInt64
  latSum : UInt64
  statusOK : UInt64
  status4x : UInt64
  status5x : UInt64
  timeouts : UInt64
  newConns : UInt64
  reusedConns : UInt64
  wireSum : UInt64
  wireCount : UInt64
  buckets : Vector UInt64 numBuckets
  deriving DecidableEq, Repr

/-- The live counters that the workers share: those of a snapshot. -/
structure Metrics extends Snapshot
  deriving DecidableEq, Repr

def newMetrics : Metrics :=
  ⟨0, 0, 0, 0, 0, 0, 0, 0, 0, 0, 0, 0, Vector.replicate numBuckets 0⟩

/-- `m.buckets[i].Add(1)`. -/
def addOne (buckets : Vector UInt64 numBuckets) (i : Fin numBuckets) : Vector UInt64 numBuckets :=
  buckets.set i.val (buckets[i.val] + 1)

namespace Metrics

def observeWire (m : Metrics) (micros : UInt64) : Metrics :=
  { m with wireSum := m.wireSum + micros, wireCount := m.wireCount + 1 }

def observeConn (m : Metrics) (reused : Bool) : Metrics :=
  if reused then { m with reusedConns := m.reusedConns + 1 }
  else { m with newConns := m.newConns + 1 }

/-- `n` is the `int64` length of the drained body. -/
def observeSuccess (m : Metrics) (latencyMicros : UInt64) (n : Int64) (status : ℤ) : Metrics :=
  let m := { m with
    count := m.count + 1
    latSum := m.latSum + latencyMicros
    bytes := m.bytes + n.toUInt64
    buckets := addOne m.buckets (bucketIndex latencyMicros) }
  if status < 400 then { m with statusOK := m.statusOK + 1 }
  else if status < 500 then { m with status4x := m.status4x + 1 }
  else { m with status5x := m.status5x + 1 }

def observeError (m : Metrics) (latencyMicros : UInt64) (timeout : Bool) : Metrics :=
  let m := { m with
    errors := m.errors + 1
    latSum := m.latSum + latencyMicros
    buckets := addOne m.buckets (bucketIndex latencyMicros) }
  if timeout then { m with timeouts := m.timeouts + 1 } else m

def snapshot (m : Metrics) : Snapshot := m.toSnapshot

end Metrics

/-- A call of one of the four methods. -/
inductive Observation
  | wire (micros : UInt64)
  | conn (reused : Bool)
  | success (latencyMicros : UInt64) (n : Int64) (status : ℤ)
  | error (latencyMicros : UInt64) (timeout : Bool)
  deriving DecidableEq, Repr

namespace Metrics

def observe (m : Metrics) : Observation → Metrics
  | .wire micros => m.observeWire micros
  | .conn reused => m.observeConn reused
  | .success latencyMicros n status => m.observeSuccess latencyMicros n status
  | .error latencyMicros timeout => m.observeError latencyMicros timeout

def observeAll (m : Metrics) (b : List Observation) : Metrics := b.foldl observe m

end Metrics

namespace Snapshot

/-- The delta between two cumulative snapshots. -/
def sub (s prev : Snapshot) : Snapshot :=
  { count := s.count - prev.count
    errors := s.errors - prev.errors
    bytes := s.bytes - prev.bytes
    latSum := s.latSum - prev.latSum
    statusOK := s.statusOK - prev.statusOK
    status4x := s.status4x - prev.status4x
    status5x := s.status5x - prev.status5x
    timeouts := s.timeouts - prev.timeouts
    newConns := s.newConns - prev.newConns
    reusedConns := s.reusedConns - prev.reusedConns
    wireSum := s.wireSum - prev.wireSum
    wireCount := s.wireCount - prev.wireCount
    buckets := Vector.zipWith (fun x y => x - y) s.buckets prev.buckets }

def meanLatencyMillis (s : Snapshot) : ℚ :=
  let total := s.count + s.errors
  if total = 0 then 0 else (s.latSum.toNat : ℚ) / total.toNat / 1000

/-- The scan for the first bucket at which the running sum reaches `target`. -/
def scan (target : UInt64) : (cum i : UInt64) → List UInt64 → ℚ
  | _, _, [] => (bucketValue (UInt64.ofNat (numBuckets - 1))).toNat / 1000
  | cum, i, c :: cs =>
    if cum + c ≥ target then (bucketValue i).toNat / 1000 else scan target (cum + c) (i + 1) cs

/-- The approximate latency in milliseconds at `q`. -/
def quantile (s : Snapshot) (q : ℚ) : ℚ :=
  let total := s.buckets.toList.foldl (fun total c => total + c) 0
  if total = 0 then 0
  else scan (UInt64.ofNat ⌊q * total.toNat⌋₊) 0 0 s.buckets.toList

end Snapshot

/-! ## Deltas -/

namespace Snapshot

/-- Both sets of counters together. -/
def add (s t : Snapshot) : Snapshot :=
  { count := s.count + t.count
    errors := s.errors + t.errors
    bytes := s.bytes + t.bytes
    latSum := s.latSum + t.latSum
    statusOK := s.statusOK + t.statusOK
    status4x := s.status4x + t.status4x
    status5x := s.status5x + t.status5x
    timeouts := s.timeouts + t.timeouts
    newConns := s.newConns + t.newConns
    reusedConns := s.reusedConns + t.reusedConns
    wireSum := s.wireSum + t.wireSum
    wireCount := s.wireCount + t.wireCount
    buckets := Vector.zipWith (fun x y => x + y) s.buckets t.buckets }

theorem add_assoc (s t u : Snapshot) : (s.add t).add u = s.add (t.add u) := by
  ext <;> simp [add, UInt64.add_assoc]

theorem add_sub (s t : Snapshot) : (s.add t).sub s = t := by
  have hcancel : ∀ x y : UInt64, x + y - x = y := fun x y => by
    rw [UInt64.add_comm, UInt64.add_sub_cancel]
  ext <;> simp [add, sub, hcancel]

theorem add_new (s : Snapshot) : s.add newMetrics.snapshot = s := by
  ext <;> simp [add, newMetrics, Metrics.snapshot]

end Snapshot

@[simp] theorem zipWith_add_zero (b : Vector UInt64 numBuckets) :
    Vector.zipWith (fun x y => x + y) b (Vector.replicate numBuckets 0) = b := by
  ext j hj
  simp

/-- Counting into a bucket, as a sum. -/
@[simp] theorem zipWith_add_addOne (b : Vector UInt64 numBuckets) (i : Fin numBuckets) :
    Vector.zipWith (fun x y => x + y) b (addOne (Vector.replicate numBuckets 0) i) =
      addOne b i := by
  ext j hj
  simp only [addOne, Vector.getElem_set, Vector.getElem_zipWith, Vector.getElem_replicate]
  split <;> simp_all

namespace Metrics

/-- One observation adds what it would leave in fresh counters. -/
theorem snapshot_observe (m : Metrics) (o : Observation) :
    (m.observe o).snapshot = m.snapshot.add (newMetrics.observe o).snapshot := by
  cases o with
  | wire micros =>
    apply Snapshot.ext <;> simp [observe, observeWire, snapshot, Snapshot.add, newMetrics]
  | conn reused =>
    cases reused <;>
      apply Snapshot.ext <;> simp [observe, observeConn, snapshot, Snapshot.add, newMetrics]
  | success latencyMicros n status =>
    simp only [observe, observeSuccess]
    split_ifs <;> apply Snapshot.ext <;> simp [snapshot, Snapshot.add, newMetrics]
  | error latencyMicros timeout =>
    cases timeout <;>
      apply Snapshot.ext <;> simp [observe, observeError, snapshot, Snapshot.add, newMetrics]

/-- Observations add up: what they count does not depend on what was there. -/
theorem snapshot_observeAll (m : Metrics) (b : List Observation) :
    (m.observeAll b).snapshot = m.snapshot.add (newMetrics.observeAll b).snapshot := by
  induction b generalizing m with
  | nil => exact (Snapshot.add_new _).symm
  | cons o b ih =>
    have hm := ih (m.observe o)
    have hnew := ih (newMetrics.observe o)
    rw [snapshot_observe, Snapshot.add_assoc] at hm
    exact hm.trans (congrArg _ hnew.symm)

/-- The delta of an interval is what fresh counters would have seen. -/
theorem snapshot_sub (m : Metrics) (b : List Observation) :
    (m.observeAll b).snapshot.sub m.snapshot = (newMetrics.observeAll b).snapshot := by
  rw [snapshot_observeAll, Snapshot.add_sub]

end Metrics
end R2Bench
