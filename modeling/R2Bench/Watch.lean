import R2Bench.Grouping
import R2Bench.Statements

/-!
# The watch page

`watchJob`'s query aggregates twice: per agent and minute, then per minute. A
minute is kept as its number since the epoch, of which the column shows the
text. Averages are exact rationals. What a minute sums and maximises does not
depend on the inner grouping; the mean latency does.
-/
namespace R2Bench
open Grouping

/-- `strftime('%Y-%m-%d %H:%M:00', CREATED_AT)`. -/
def MetricRow.minute (m : MetricRow) : ℤ := m.createdAt / 60

/-- `AVG` over a group. -/
def average {α : Type} (f : α → ℚ) (rows : List α) : ℚ := (rows.map f).sum / rows.length

/-- A row of the inner query: one agent in one minute. -/
structure AgentMinute where
  spawnId : String
  createdAt : ℤ
  latency : ℚ
  rps : ℚ
  errorM1Rate : ℚ
  count : ℕ
  bytes : ℕ
  p95 : ℚ
  p99 : ℚ
  deriving DecidableEq, Repr

/-- A row of the outer query: one minute. -/
structure MinuteRow where
  createdAt : ℤ
  rps : ℚ
  errorM1Rate : ℚ
  count : ℕ
  bytes : ℕ
  workerCount : ℕ
  latency : ℚ
  p95 : ℚ
  p99 : ℚ
  deriving DecidableEq, Repr

def agentMinute (g : (String × ℤ) × List MetricRow) : AgentMinute :=
  { spawnId := g.1.1
    createdAt := g.1.2
    latency := average MetricRow.latency g.2
    rps := average MetricRow.rps g.2
    errorM1Rate := average MetricRow.errorM1Rate g.2
    count := (g.2.map MetricRow.count).sum
    bytes := (g.2.map MetricRow.bytes).sum
    p95 := maxOf 0 (g.2.map MetricRow.p95)
    p99 := maxOf 0 (g.2.map MetricRow.p99) }

def minuteRow (g : ℤ × List AgentMinute) : MinuteRow :=
  let count := (g.2.map AgentMinute.count).sum
  { createdAt := g.1
    rps := (g.2.map AgentMinute.rps).sum
    errorM1Rate := (g.2.map AgentMinute.errorM1Rate).sum
    count
    bytes := (g.2.map AgentMinute.bytes).sum
    workerCount := g.2.length
    latency :=
      if 0 < count then (g.2.map fun a => a.latency * (a.count : ℚ)).sum / count
      else average AgentMinute.latency g.2
    p95 := maxOf 0 (g.2.map AgentMinute.p95)
    p99 := maxOf 0 (g.2.map AgentMinute.p99) }

namespace Database
variable (db : Database) (jobId : String)

/-- `... FROM JOB_SPAWN_METRICS WHERE JOB_ID = ?`. -/
def metricsOfJob : List MetricRow := db.metrics.filter fun m => m.jobId = jobId

/-- The subquery: `GROUP BY SPAWN_ID, strftime(...)`. -/
def agentMinutes : List AgentMinute :=
  (groupBy (fun m => (m.spawnId, m.minute)) (db.metricsOfJob jobId)).map agentMinute

/-- `GROUP BY CREATED_AT ORDER BY CREATED_AT DESC LIMIT 300`. -/
def watchMinutes : List MinuteRow :=
  (((groupBy AgentMinute.createdAt (db.agentMinutes jobId)).map minuteRow).mergeSort
    fun a b => b.createdAt ≤ a.createdAt).take 300

/-- The last 300 minutes in which the job has rows, latest first. -/
def recentMinutes : List ℤ :=
  (((db.metricsOfJob jobId).map MetricRow.minute).dedup.mergeSort fun a b => b ≤ a).take 300

/-- The job's rows that were created in a minute. -/
def metricsIn (minute : ℤ) : List MetricRow :=
  (db.metricsOfJob jobId).filter fun m => m.minute = minute

end Database

/-- An entry of the watch page. -/
structure SpawnMetric where
  latency : ℚ
  rps : ℚ
  errorM1Rate : ℚ
  workerCount : ℕ
  createdAt : ℤ
  p95 : ℚ
  p99 : ℚ
  bytes : ℕ
  deriving DecidableEq, Repr

def MinuteRow.metric (row : MinuteRow) : SpawnMetric :=
  { latency := row.latency, rps := row.rps, errorM1Rate := row.errorM1Rate,
    workerCount := row.workerCount, createdAt := row.createdAt, p95 := row.p95, p99 := row.p99,
    bytes := row.bytes }

/-! ## What a minute is made of -/

/-- The agents of a minute, each with its rows. -/
def agentsIn (rows : List MetricRow) : List (String × List MetricRow) :=
  groupBy MetricRow.spawnId rows

section
variable {db : Database} {jobId : String} {x : MinuteRow}

/-- A returned minute aggregates the agents of its own rows. -/
theorem Database.watchMinutes_group (h : x ∈ db.watchMinutes jobId) :
    ∃ as, x = minuteRow (x.createdAt, as) ∧ as ≠ [] ∧
      as.Perm ((agentsIn (db.metricsIn jobId x.createdAt)).map fun g =>
        agentMinute ((g.1, x.createdAt), g.2)) := by
  have hmem := List.mem_mergeSort.mp (List.mem_of_mem_take h)
  obtain ⟨⟨m, as⟩, hg, rfl⟩ := List.mem_map.mp hmem
  refine ⟨as, rfl, ne_nil_of_mem_groupBy hg, ?_⟩
  have has : as = (db.agentMinutes jobId).filter fun a => a.createdAt = m :=
    (mem_groupBy.mp hg).2
  have hfilter : as = (((groupBy (fun r => (r.spawnId, r.minute)) (db.metricsOfJob jobId)).filter
      fun p => p.1.2 = m).map agentMinute) := by
    rw [has, Database.agentMinutes, List.filter_map]
    rfl
  rw [hfilter]
  have hperm := (groupBy_pair_perm MetricRow.spawnId MetricRow.minute m
    (db.metricsOfJob jobId)).map agentMinute
  rwa [List.map_map] at hperm

/-- A sum of agent sums is the sum over the rows of the minute. -/
theorem sum_agents {M : Type*} [AddCommMonoid M] {as : List AgentMinute} {rows : List MetricRow}
    {minute : ℤ} (h : as.Perm ((agentsIn rows).map fun g => agentMinute ((g.1, minute), g.2)))
    (f : AgentMinute → M) (f' : MetricRow → M)
    (hf : ∀ g, f (agentMinute g) = (g.2.map f').sum) : (as.map f).sum = (rows.map f').sum := by
  rw [(h.map f).sum_eq, List.map_map, ← sum_groupBy MetricRow.spawnId f' rows]
  exact congrArg List.sum (List.map_congr_left fun g _ => hf _)

theorem Database.watchMinutes_count (h : x ∈ db.watchMinutes jobId) :
    x.count = ((db.metricsIn jobId x.createdAt).map MetricRow.count).sum := by
  obtain ⟨as, hx, -, hperm⟩ := db.watchMinutes_group h
  rw [hx]
  exact sum_agents hperm _ _ fun _ => rfl

/-- A minute's bytes are those of its rows. -/
theorem Database.watchMinutes_bytes (h : x ∈ db.watchMinutes jobId) :
    x.bytes = ((db.metricsIn jobId x.createdAt).map MetricRow.bytes).sum := by
  obtain ⟨as, hx, -, hperm⟩ := db.watchMinutes_group h
  rw [hx]
  exact sum_agents hperm _ _ fun _ => rfl

/-- The page shows the recent minutes, in order. -/
theorem Database.watchMinutes_createdAt (db : Database) (jobId : String) :
    (db.watchMinutes jobId).map MinuteRow.createdAt = db.recentMinutes jobId := by
  have hkeys : ((groupBy AgentMinute.createdAt (db.agentMinutes jobId)).map minuteRow).map
      MinuteRow.createdAt = ((db.agentMinutes jobId).map AgentMinute.createdAt).dedup := by
    rw [List.map_map, ← keys_groupBy]
    rfl
  have hminutes : ((db.agentMinutes jobId).map AgentMinute.createdAt).dedup.Perm
      ((db.metricsOfJob jobId).map MetricRow.minute).dedup := by
    apply (List.perm_ext_iff_of_nodup (List.nodup_dedup _) (List.nodup_dedup _)).mpr
    intro k
    simp only [List.mem_dedup, Database.agentMinutes, List.map_map, groupBy, List.mem_map,
      Function.comp_apply, agentMinute]
    constructor
    · rintro ⟨_, ⟨m, hm, rfl⟩, rfl⟩
      exact ⟨m, hm, rfl⟩
    · rintro ⟨m, hm, rfl⟩
      exact ⟨_, ⟨m, hm, rfl⟩, rfl⟩
  have hsorted : ∀ ks : List ℤ, (ks.mergeSort fun a b => decide (b ≤ a)).Pairwise (· ≥ ·) :=
    fun ks => by simpa using List.pairwise_mergeSort' (· ≥ ·) ks
  have hmap : (((groupBy AgentMinute.createdAt (db.agentMinutes jobId)).map minuteRow).mergeSort
      fun a b => b.createdAt ≤ a.createdAt).map MinuteRow.createdAt =
        (((db.agentMinutes jobId).map AgentMinute.createdAt).dedup).mergeSort
          fun a b => b ≤ a := by
    rw [← hkeys]
    exact List.map_mergeSort fun _ _ _ _ => rfl
  rw [Database.watchMinutes, List.map_take, hmap, Database.recentMinutes]
  refine congrArg (List.take 300) (List.Perm.eq_of_pairwise' (hsorted _) (hsorted _) ?_)
  exact ((List.mergeSort_perm _ _).trans hminutes).trans (List.mergeSort_perm _ _).symm

/-- Every minute is returned at most once. -/
theorem Database.watchMinutes_nodup (db : Database) (jobId : String) :
    ((db.watchMinutes jobId).map MinuteRow.createdAt).Nodup := by
  rw [Database.watchMinutes_createdAt]
  exact (((List.mergeSort_perm _ _).nodup_iff).mpr (List.nodup_dedup _)).sublist
    (List.take_sublist 300 _)

end

/-! ## The minute's mean latency -/

/-- The mean of the rows' latencies, weighted by their request counts. -/
def weightedLatency (rows : List MetricRow) : ℚ :=
  (rows.map fun m => m.latency * (m.count : ℚ)).sum / ((rows.map MetricRow.count).sum : ℕ)

/-- The covariance of latency and count over the ticks of one agent, times their
number: zero for a single tick, for equal counts and for equal latencies. -/
def tickCovariance (ticks : List MetricRow) : ℚ :=
  (ticks.map fun m => m.latency * (m.count : ℚ)).sum -
    (ticks.map MetricRow.latency).sum * ((ticks.map MetricRow.count).sum : ℕ) / ticks.length

/-- A single latency or a single count among an agent's ticks: nothing is lost. -/
theorem tickCovariance_eq_zero {ticks : List MetricRow}
    (h : (∃ l, ∀ m ∈ ticks, m.latency = l) ∨ ∃ n, ∀ m ∈ ticks, m.count = n) :
    tickCovariance ticks = 0 := by
  by_cases hnil : ticks = []
  · simp [tickCovariance, hnil]
  have hlen : (ticks.length : ℚ) ≠ 0 := by simpa using hnil
  have hconst : ∀ (f : MetricRow → ℚ) (c : ℚ), (∀ m ∈ ticks, f m = c) →
      (ticks.map f).sum = ticks.length * c := by
    intro f c hf
    rw [List.map_congr_left hf]
    simp
  have hcount : (((ticks.map MetricRow.count).sum : ℕ) : ℚ) =
      (ticks.map fun m => (m.count : ℚ)).sum := by
    simp [Nat.cast_list_sum, List.map_map, Function.comp_def]
  rw [tickCovariance, hcount, sub_eq_zero, eq_div_iff hlen]
  obtain ⟨l, hl⟩ | ⟨n, hn⟩ := h
  · have hsum : (ticks.map fun m => m.latency * (m.count : ℚ)).sum =
        l * (ticks.map fun m => (m.count : ℚ)).sum := by
      rw [← List.sum_map_mul_left]
      exact congrArg List.sum (List.map_congr_left fun m hm => by rw [hl m hm])
    rw [hsum, hconst _ l hl]
    ring
  · have hsum : (ticks.map fun m => m.latency * (m.count : ℚ)).sum =
        (ticks.map MetricRow.latency).sum * n := by
      rw [← List.sum_map_mul_right]
      exact congrArg List.sum (List.map_congr_left fun m hm => by rw [hn m hm])
    rw [hsum, hconst (fun m => (m.count : ℚ)) n fun m hm => by rw [hn m hm]]
    ring

/-- Weighting an agent's plain average by its count loses the covariance. -/
theorem agentMinute_weight (g : (String × ℤ) × List MetricRow) :
    (agentMinute g).latency * ((agentMinute g).count : ℚ) + tickCovariance g.2 =
      (g.2.map fun m => m.latency * (m.count : ℚ)).sum := by
  simp only [agentMinute, average, tickCovariance]
  ring

/-- Exactly the covariances of its agents separate a minute's latency from the
weighted mean. -/
theorem Database.watchMinutes_latency {db : Database} {jobId : String} {x : MinuteRow}
    (h : x ∈ db.watchMinutes jobId) (hpos : 0 < x.count) :
    x.latency = weightedLatency (db.metricsIn jobId x.createdAt) -
      ((agentsIn (db.metricsIn jobId x.createdAt)).map fun g => tickCovariance g.2).sum /
        (x.count : ℚ) := by
  have hcount := db.watchMinutes_count h
  obtain ⟨as, hx, -, hperm⟩ := db.watchMinutes_group h
  have hsum : (as.map fun a => a.latency * (a.count : ℚ)).sum +
      ((agentsIn (db.metricsIn jobId x.createdAt)).map fun g => tickCovariance g.2).sum =
        ((db.metricsIn jobId x.createdAt).map fun m => m.latency * (m.count : ℚ)).sum := by
    rw [(hperm.map _).sum_eq, List.map_map, ← sum_groupBy MetricRow.spawnId, ← List.sum_map_add]
    exact congrArg List.sum (List.map_congr_left fun g _ => agentMinute_weight _)
  have hlat : x.latency = (as.map fun a => a.latency * (a.count : ℚ)).sum / (x.count : ℚ) := by
    rw [hx] at hpos ⊢
    exact if_pos hpos
  rw [hlat, weightedLatency, ← hcount, ← hsum, add_div, add_sub_cancel_right]

/-- Every returned minute shows the request-weighted mean latency of its rows. -/
def Database.LatencyWeighted (db : Database) (jobId : String) : Prop :=
  ∀ x ∈ db.watchMinutes jobId, 0 < x.count →
    x.latency = weightedLatency (db.metricsIn jobId x.createdAt)

/-- A returned minute shows the bytes of its rows, and no minute is shown twice. -/
def Database.BytesOnce (db : Database) (jobId : String) : Prop :=
  (∀ x ∈ db.watchMinutes jobId,
    x.bytes = ((db.metricsIn jobId x.createdAt).map MetricRow.bytes).sum) ∧
  ∀ m ∈ db.metricsOfJob jobId, m.minute ∈ (db.watchMinutes jobId).map MinuteRow.createdAt →
    ((db.watchMinutes jobId).map MinuteRow.createdAt).count m.minute = 1

theorem Database.bytesOnce (db : Database) (jobId : String) : db.BytesOnce jobId :=
  ⟨fun _ hx => db.watchMinutes_bytes hx, fun _ _ hm =>
    List.count_eq_one_of_mem (db.watchMinutes_nodup jobId) hm⟩

/-- The page shows weighted means, and every row's bytes once, exactly when in
each recent minute with requests the covariances of the agents cancel. -/
theorem minute_latency_weighted_iff (db : Database) (jobId : String) :
    (db.LatencyWeighted jobId ∧ db.BytesOnce jobId) ↔
      ∀ minute ∈ db.recentMinutes jobId, 0 < ((db.metricsIn jobId minute).map MetricRow.count).sum →
        ((agentsIn (db.metricsIn jobId minute)).map fun g => tickCovariance g.2).sum = 0 := by
  have hiff : ∀ x ∈ db.watchMinutes jobId, 0 < x.count →
      (x.latency = weightedLatency (db.metricsIn jobId x.createdAt) ↔
        ((agentsIn (db.metricsIn jobId x.createdAt)).map fun g => tickCovariance g.2).sum = 0) := by
    intro x hx hpos
    have hcount : (x.count : ℚ) ≠ 0 := by exact_mod_cast hpos.ne'
    rw [db.watchMinutes_latency hx hpos, sub_eq_self, div_eq_zero_iff, or_iff_left hcount]
  rw [← db.watchMinutes_createdAt, List.forall_mem_map]
  constructor
  · rintro ⟨hlat, -⟩ x hx hpos
    rw [← db.watchMinutes_count hx] at hpos
    exact (hiff x hx hpos).mp (hlat x hx hpos)
  · intro hcov
    refine ⟨fun x hx hpos => (hiff x hx hpos).mpr (hcov x hx ?_), db.bytesOnce jobId⟩
    rwa [← db.watchMinutes_count hx]

/-- Tick `n` of agent `a` of job `j`, in the first minute. -/
def sampleTick (n : ℕ) (latency : ℚ) (count : ℕ) : MetricRow :=
  { metricId := toString n, spawnId := "j-a", jobId := "j", tickNumber := n, latency, rps := count,
    errorM1Rate := 0, count, p50 := 0, p95 := 0, p99 := 0, bytes := 0, status4xx := 0,
    status5xx := 0, createdAt := n }

/-- One fast tick with a single request and one slow tick with three: the page
shows 15, the weighted mean is 17.5. -/
theorem minute_latency_unweighted : ¬ ∀ (db : Database) (jobId : String),
    db.LatencyWeighted jobId ∧ db.BytesOnce jobId := by
  intro hclaim
  have hlat := (hclaim ⟨[], [], [sampleTick 0 10 1, sampleTick 1 20 3]⟩ "j").1
  unfold Database.LatencyWeighted at hlat
  revert hlat
  decide +kernel

end R2Bench
