import R2Bench.AgentMetrics
import R2Bench.Types

/-!
# What an agent reports

An assignment is the agent's side of a run response; `Runner.run` keeps what
`Runner.Run` decides before its workers start: how many there are and whether a pacer
feeds them. `reportLoop` pushes the difference of two snapshots at every tick of its
timer, and `execute` ends a run with a final flush. A run is the sequence of its
observations and ticks. Instants are nanoseconds; `float64` is taken as exact.
-/
namespace R2Bench

/-! ## Assignments -/

/-- Numbers are Go `int`s; instants are epoch milliseconds. -/
structure Assignment where
  jobId : String
  spawnId : String
  targetRPS : ℤ
  workers : ℤ
  stopAt : ℤ
  unthrottled : Bool
  deriving DecidableEq, Repr

/-- The assignment that `execute` builds from the decoded response. -/
def RunResponse.assignment (resp : RunResponse) : Assignment :=
  { jobId := resp.jobId, spawnId := resp.spawnId, targetRPS := resp.targetRPS,
    workers := resp.workers, stopAt := resp.stopAtEpochMs, unthrottled := resp.unthrottled }

/-- `tokens` is the rate of the started pacer; without one the workers take no
tokens and run as fast as they can. -/
structure RunPlan where
  workers : ℤ
  tokens : Option ℤ
  deriving DecidableEq, Repr

def Runner.run (maxWorkers : ℤ) (a : Assignment) : RunPlan :=
  { workers :=
      if a.workers ≤ 0 then maxWorkers
      else if a.workers > maxWorkers then maxWorkers
      else a.workers
    tokens := if !a.unthrottled && a.targetRPS > 0 then some a.targetRPS else none }

/-- A positive share of a throttled job is paced at exactly that share. -/
theorem Runner.run_tokens {maxWorkers : ℤ} {a : Assignment} (hu : a.unthrottled = false)
    (ht : 0 < a.targetRPS) : (Runner.run maxWorkers a).tokens = some a.targetRPS := by
  simp [Runner.run, hu, ht]

/-! ## Reports -/

/-- The body of a metrics request; `ReportMetrics` fills in the token. -/
structure MetricsReport where
  spawnId : String
  jobId : String
  tickNumber : ℤ
  latency : ℚ
  rps : ℚ
  errorM1Rate : ℚ
  count : UInt64
  avgLatency : ℚ
  actualRPS : ℚ
  totalCount : UInt64
  p50 : ℚ
  p95 : ℚ
  p99 : ℚ
  bytes : UInt64
  status4xx : UInt64
  status5xx : UInt64
  deriving DecidableEq, Repr

/-- What the Worker decodes from the request; every field is present. Its doubles hold a
counter of up to `2 ^ 53` as it is. -/
def MetricsReport.body (token : String) (r : MetricsReport) : SpawnMetricsReport :=
  { token := some token, spawnId := r.spawnId, jobId := r.jobId, tickNumber := r.tickNumber,
    latency := r.latency, rps := r.rps, errorM1Rate := some r.errorM1Rate,
    count := r.count.toNat, avgLatency := r.avgLatency, actualRPS := r.actualRPS,
    totalCount := r.totalCount.toNat, p50 := some r.p50, p95 := some r.p95, p99 := some r.p99,
    bytes := some r.bytes.toNat, status4xx := some r.status4xx.toNat,
    status5xx := some r.status5xx.toNat }

/-- `Duration.Seconds`. -/
def seconds (ns : ℤ) : ℚ := ns / 1000000000

def ratePerSecond (n : UInt64) (seconds : ℚ) : ℚ := if seconds ≤ 0 then 0 else n.toNat / seconds

def buildReport (a : Assignment) (cumulative delta : Snapshot) (totalSecs intervalSecs : ℚ)
    (tick : ℤ) : MetricsReport :=
  { spawnId := a.spawnId
    jobId := a.jobId
    tickNumber := tick
    latency := delta.meanLatencyMillis
    rps := ratePerSecond delta.count intervalSecs
    errorM1Rate := ratePerSecond delta.errors intervalSecs
    count := delta.count
    avgLatency := cumulative.meanLatencyMillis
    actualRPS := ratePerSecond cumulative.count totalSecs
    totalCount := cumulative.count
    p50 := delta.quantile (50 / 100)
    p95 := delta.quantile (95 / 100)
    p99 := delta.quantile (99 / 100)
    bytes := delta.bytes
    status4xx := delta.status4x
    status5xx := delta.status5x }

/-- The variables of `reportLoop`. -/
structure ReportLoop where
  prev : Snapshot
  prevAt : ℤ
  tick : ℤ

inductive AgentEvent
  | observe (o : Observation)
  /-- The timer fires. The loop goes on in the same way whether or not the
  control plane stores the report. -/
  | tick (now : ℤ) (stored : Bool)
  deriving DecidableEq, Repr

/-- The interval reports of a run, and which of them are stored. -/
def reportLoop (a : Assignment) (start : ℤ) :
    Metrics → ReportLoop → List AgentEvent → List (MetricsReport × Bool)
  | _, _, [] => []
  | m, l, .observe o :: events => reportLoop a start (m.observe o) l events
  | m, l, .tick now stored :: events =>
    let cur := m.snapshot
    let delta := cur.sub l.prev
    let report := buildReport a cur delta (seconds (now - start)) (seconds (now - l.prevAt)) l.tick
    (report, stored) :: reportLoop a start m ⟨cur, now, l.tick + 1⟩ events

/-- One pass of `execute` from the start of load at `start` to the final flush at
`finish`. -/
structure AgentRun where
  assignment : Assignment
  start : ℤ
  events : List AgentEvent
  finish : ℤ

def observations (events : List AgentEvent) : List Observation :=
  events.filterMap fun e => match e with
    | .observe o => some o
    | .tick _ _ => none

namespace AgentRun

def intervalReports (run : AgentRun) : List (MetricsReport × Bool) :=
  reportLoop run.assignment run.start newMetrics ⟨newMetrics.snapshot, run.start, 0⟩ run.events

/-- The cumulative counters once all workers have returned. -/
def final (run : AgentRun) : Snapshot := (newMetrics.observeAll (observations run.events)).snapshot

/-- The final flush, built from the cumulative counters twice. -/
def flush (run : AgentRun) : MetricsReport :=
  let elapsed := seconds (run.finish - run.start)
  buildReport run.assignment run.final run.final elapsed elapsed (-1)

/-- The stored reports of a run whose final flush is delivered. -/
def stored (run : AgentRun) (token : String) : List SpawnMetricsReport :=
  (((run.intervalReports.filter fun r => r.2).map fun r => r.1) ++ [run.flush]).map fun r =>
    r.body token

end AgentRun

/-! ## The counters of the reports -/

/-- The counters that a report carries for its interval. -/
inductive Counter
  | count
  | bytes
  | status4xx
  | status5xx
  deriving DecidableEq, Repr

namespace Counter

def ofSnapshot : Counter → Snapshot → UInt64
  | count, s => s.count
  | bytes, s => s.bytes
  | status4xx, s => s.status4x
  | status5xx, s => s.status5x

def ofReport : Counter → MetricsReport → UInt64
  | count, r => r.count
  | bytes, r => r.bytes
  | status4xx, r => r.status4xx
  | status5xx, r => r.status5xx

def ofBody : Counter → SpawnMetricsReport → ℕ
  | count, r => r.count
  | bytes, r => r.bytes.getD 0
  | status4xx, r => r.status4xx.getD 0
  | status5xx, r => r.status5xx.getD 0

theorem ofBody_body (c : Counter) (token : String) (r : MetricsReport) :
    c.ofBody (r.body token) = (c.ofReport r).toNat := by cases c <;> rfl

theorem ofReport_buildReport (c : Counter) (a : Assignment) (cumulative delta : Snapshot)
    (totalSecs intervalSecs : ℚ) (tick : ℤ) :
    c.ofReport (buildReport a cumulative delta totalSecs intervalSecs tick) =
      c.ofSnapshot delta := by cases c <;> rfl

/-- What fresh counters would show after an interval. -/
def counted (c : Counter) (b : List Observation) : UInt64 :=
  c.ofSnapshot (newMetrics.observeAll b).snapshot

end Counter

/-- The observations between consecutive ticks, after `b`, and whether the report
at the end of the interval is stored. -/
def intervals : List Observation → List AgentEvent → List (List Observation × Bool)
  | _, [] => []
  | b, .observe o :: events => intervals (b ++ [o]) events
  | b, .tick _ stored :: events => (b, stored) :: intervals [] events

/-- The baseline moves with every tick, so a report counts its own interval. -/
theorem reportLoop_counter (c : Counter) (a : Assignment) (start : ℤ) (events : List AgentEvent)
    (m : Metrics) (b : List Observation) (prevAt tick : ℤ) :
    (reportLoop a start (m.observeAll b) ⟨m.snapshot, prevAt, tick⟩ events).map
        (fun r => (c.ofReport r.1, r.2)) =
      (intervals b events).map fun i => (c.counted i.1, i.2) := by
  induction events generalizing m b prevAt tick with
  | nil => rfl
  | cons e events ih =>
    cases e with
    | observe o =>
      have hobs : (m.observeAll b).observe o = m.observeAll (b ++ [o]) := by
        simp [Metrics.observeAll]
      simp only [reportLoop, intervals, hobs]
      exact ih m (b ++ [o]) prevAt tick
    | tick now stored =>
      simp only [reportLoop, intervals, List.map_cons, Counter.ofReport_buildReport,
        Metrics.snapshot_sub]
      exact congrArg _ (ih (m.observeAll b) [] now (tick + 1))

/-- Every report of a run names the assignment. -/
theorem reportLoop_ids (a : Assignment) (start : ℤ) (events : List AgentEvent) (m : Metrics)
    (l : ReportLoop) : ∀ r ∈ reportLoop a start m l events,
      r.1.spawnId = a.spawnId ∧ r.1.jobId = a.jobId := by
  induction events generalizing m l with
  | nil => simp [reportLoop]
  | cons e events ih =>
    cases e with
    | observe o => exact ih _ _
    | tick now stored =>
      intro r hr
      rcases List.mem_cons.mp hr with rfl | hr
      · exact ⟨rfl, rfl⟩
      · exact ih _ _ r hr

namespace AgentRun

theorem stored_ids (run : AgentRun) (token : String) : ∀ r ∈ run.stored token,
    r.toSpawnStatusRequest = ⟨some token, run.assignment.spawnId, run.assignment.jobId⟩ := by
  have hbody : ∀ r : MetricsReport, r.spawnId = run.assignment.spawnId ∧
      r.jobId = run.assignment.jobId → (r.body token).toSpawnStatusRequest =
        ⟨some token, run.assignment.spawnId, run.assignment.jobId⟩ := by
    rintro r ⟨hspawn, hjob⟩
    rw [← hspawn, ← hjob]
    rfl
  intro r hr
  obtain ⟨r', hr', rfl⟩ := List.mem_map.mp hr
  rcases List.mem_append.mp hr' with hr | hr
  · obtain ⟨p, hp, rfl⟩ := List.mem_map.mp hr
    exact hbody _ (reportLoop_ids _ _ _ _ _ p (List.mem_filter.mp hp).1)
  · obtain rfl := List.mem_singleton.mp hr
    exact hbody _ ⟨rfl, rfl⟩

/-- The stored reports count the final flush, which is everything, and once more
every interval whose report was stored. -/
theorem stored_sum (run : AgentRun) (token : String) (c : Counter) :
    ((run.stored token).map c.ofBody).sum =
      (((intervals [] run.events).filter fun i => i.2).map fun i => (c.counted i.1).toNat).sum +
        (c.ofSnapshot run.final).toNat := by
  have hloop := reportLoop_counter c run.assignment run.start run.events newMetrics [] run.start 0
  have hsum := congrArg (fun l => ((l.filter fun i => i.2).map fun i => i.1.toNat).sum) hloop
  simp only [Metrics.observeAll, List.foldl_nil, List.filter_map, List.map_map] at hsum
  simp only [stored, List.map_append, List.map_map, List.sum_append, intervalReports]
  refine congrArg₂ _ ?_ ?_
  · simpa only [Function.comp_def, Counter.ofBody_body] using hsum
  · simp [Counter.ofBody_body, flush, Counter.ofReport_buildReport]

/-- The sums are right exactly when the stored interval reports counted nothing. -/
theorem stored_sum_iff (run : AgentRun) (token : String) :
    (∀ c : Counter, ((run.stored token).map c.ofBody).sum = (c.ofSnapshot run.final).toNat) ↔
      ∀ b, (b, true) ∈ intervals [] run.events → ∀ c : Counter, c.counted b = 0 := by
  have hzero : ∀ x : UInt64, x.toNat = 0 ↔ x = 0 := fun x => by
    rw [← UInt64.toNat_inj]
    rfl
  simp only [stored_sum, Nat.add_eq_right, List.sum_eq_zero_iff, List.mem_map, List.mem_filter]
  constructor
  · intro h b hb c
    exact (hzero _).mp (h c _ ⟨(b, true), ⟨hb, rfl⟩, rfl⟩)
  · rintro h c _ ⟨⟨b, _⟩, ⟨hb, rfl⟩, rfl⟩
    exact (hzero _).mpr (h b hb c)

end AgentRun
end R2Bench
