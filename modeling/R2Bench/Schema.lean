import Mathlib.Tactic

/-!
# The D1 schema

One structure for each table of the migrations. `UPDATED_AT` is left out: every
statement writes it and nothing but the job list reads it. Times are epoch
milliseconds; `CREATED_AT` is SQLite's `current_timestamp`, in whole seconds.
-/
namespace R2Bench

/-- `JOBS.STATUS`. -/
inductive JobStatus
  | queued
  | running
  | stopping
  | completed
  | stopped
  | failed
  deriving DecidableEq, Repr

namespace JobStatus

/-- The text stored in the column and sent to agents. -/
def text : JobStatus → String
  | queued => "QUEUED"
  | running => "RUNNING"
  | stopping => "STOPPING"
  | completed => "COMPLETED"
  | stopped => "STOPPED"
  | failed => "FAILED"

/-- `ACTIVE_STATUSES`: the job will still accept or retain agents. -/
def isActive : JobStatus → Bool
  | queued | running => true
  | _ => false

/-- `TERMINAL_STATUSES`: no further work will be scheduled. -/
def isTerminal : JobStatus → Bool
  | completed | stopped | failed => true
  | _ => false

/-- The order of a job's life; the three terminal statuses end it. -/
def rank : JobStatus → ℕ
  | queued => 0
  | running => 1
  | stopping => 2
  | completed | stopped | failed => 3

theorem isTerminal_iff_rank (s : JobStatus) : s.isTerminal = true ↔ 3 ≤ s.rank := by
  cases s <;> simp [isTerminal, rank]

theorem rank_le (s : JobStatus) : s.rank ≤ 3 := by cases s <;> simp [rank]

theorem isActive_iff_rank (s : JobStatus) : s.isActive = true ↔ s.rank ≤ 1 := by
  cases s <;> simp [isActive, rank]

end JobStatus

/-- `JOB_SPAWNS.STATUS`. -/
inductive SpawnStatus
  | running
  | completed
  | stopped
  | failed
  deriving DecidableEq, Repr

/-- A status that a handler closes a job with. -/
abbrev JobOutcome := {s : JobStatus // s.isTerminal = true}

/-- A status that a handler ends a spawn with. -/
abbrev SpawnOutcome := {s : SpawnStatus // s ≠ .running}

/-- The columns of `JOBS` that are bound at insertion and never updated. -/
structure JobTerms where
  jobId : String
  rps : ℕ
  concurrency : ℕ
  agents : ℕ
  workersPerAgent : ℕ
  duration : ℕ
  startAt : ℤ
  unthrottled : ℕ
  deriving DecidableEq, Repr

structure JobRow extends JobTerms where
  stopAt : ℤ
  status : JobStatus
  createdAt : ℤ
  deriving DecidableEq, Repr

/-- The columns of `JOB_SPAWNS` that are bound at insertion and never updated.
`SLOT` and `LAST_SEEN` are nullable: rows older than their migration have none. -/
structure SpawnSeat where
  spawnId : String
  jobId : String
  agentId : String
  region : String
  slot : Option ℕ
  deriving DecidableEq, Repr

structure SpawnRow extends SpawnSeat where
  status : SpawnStatus
  lastSeen : Option ℤ
  avgLatency : ℚ
  avgRps : ℚ
  count : ℕ
  deriving DecidableEq, Repr

structure MetricRow where
  metricId : String
  spawnId : String
  jobId : String
  tickNumber : ℤ
  latency : ℚ
  rps : ℚ
  errorM1Rate : ℚ
  count : ℕ
  p50 : ℚ
  p95 : ℚ
  p99 : ℚ
  bytes : ℕ
  status4xx : ℕ
  status5xx : ℕ
  createdAt : ℤ
  deriving DecidableEq, Repr

/-- Rows are in insertion order. -/
structure Database where
  jobs : List JobRow
  spawns : List SpawnRow
  metrics : List MetricRow
  deriving DecidableEq, Repr

namespace Database

def empty : Database := ⟨[], [], []⟩

/-- `... FROM JOBS WHERE JOB_ID = ?`. -/
def job? (db : Database) (jobId : String) : Option JobRow :=
  db.jobs.find? fun j => j.jobId = jobId

/-- `... FROM JOB_SPAWNS WHERE SPAWN_ID = ?`. -/
def spawn? (db : Database) (spawnId : String) : Option SpawnRow :=
  db.spawns.find? fun r => r.spawnId = spawnId

/-- `... FROM JOB_SPAWNS WHERE JOB_ID = ?`. -/
def spawnsOf (db : Database) (jobId : String) : List SpawnRow :=
  db.spawns.filter fun r => r.jobId = jobId

/-- `SELECT COUNT(*) FROM JOB_SPAWNS WHERE JOB_ID = ? AND STATUS = 'RUNNING'`. -/
def runningCount (db : Database) (jobId : String) : ℕ :=
  db.spawns.countP fun r => r.jobId = jobId ∧ r.status = .running

theorem spawn?_mem {db : Database} {spawnId : String} {r : SpawnRow}
    (h : db.spawn? spawnId = some r) : r ∈ db.spawns ∧ r.spawnId = spawnId :=
  ⟨List.mem_of_find?_eq_some h, by simpa using List.find?_some h⟩

theorem mem_spawnsOf {db : Database} {jobId : String} {r : SpawnRow} :
    r ∈ db.spawnsOf jobId ↔ r ∈ db.spawns ∧ r.jobId = jobId := by simp [spawnsOf]

theorem runningCount_eq_zero {db : Database} {jobId : String} :
    db.runningCount jobId = 0 ↔ ∀ r ∈ db.spawns, r.jobId = jobId → r.status ≠ .running := by
  simp [runningCount, List.countP_eq_zero]

end Database

/-- The database and the clock that `Date.now()` and `current_timestamp` read. -/
structure World where
  db : Database
  clock : ℤ
  deriving DecidableEq, Repr

end R2Bench
