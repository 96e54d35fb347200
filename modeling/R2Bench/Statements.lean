import R2Bench.Tables
import R2Bench.Types

/-!
# The statements the Worker awaits

Every D1 statement (a batch counts as one) and every clock read is one atomic
operation with its bound values. A violated constraint leaves the database as it
was and reaches the handler as an exception.
-/
namespace R2Bench
open Tables

/-- The constraints an `INSERT` can violate. -/
inductive Constraint
  | primaryKey
  | slotIndex
  deriving DecidableEq, Repr

/-- The values bound by the claiming `INSERT` of `agentPoll`. -/
structure Claim where
  spawnId : String
  jobId : String
  agentId : String
  region : String
  now : ℤ
  agents : ℕ
  deriving DecidableEq, Repr

inductive Statement
  /-- `Date.now()`. -/
  | dateNow
  | findUnfinishedJob (tie : ℕ)
  | insertJob (terms : JobTerms) (stopAt : ℤ)
  | findActiveJob (tie : ℕ)
  | selectSpawn (spawnId : String)
  | touchSpawn (now : ℤ) (spawnId : String)
  | claimSlot (c : Claim)
  | selectSlot (spawnId : String)
  | markRunning (jobId : String)
  | requestStop (now : ℤ) (jobId : String)
  | recordMetrics (metricId : String) (report : SpawnMetricsReport) (now : ℤ)
  | failSpawn (spawnId jobId : String)
  | selectStatus (jobId : String)
  | finishSpawn (outcome : SpawnOutcome) (spawnId : String)
  | countRunning (jobId : String)
  | closeJob (outcome : JobOutcome) (jobId : String)
  | failStale (before : ℤ)
  | selectExpired (before : ℤ)
  | countSpawns (jobId : String)
  | finaliseJob (outcome : JobOutcome) (jobId : String)
  | failAbandoned (before : ℤ)
  | closeQuiet
  deriving DecidableEq, Repr

/-- What the handler reads from the statement's result. -/
@[reducible] def Statement.Result : Statement → Type
  | .dateNow => ℤ
  | .findUnfinishedJob _ => Option String
  | .insertJob _ _ | .claimSlot _ | .recordMetrics _ _ _ => Except Constraint Unit
  | .findActiveJob _ => Option JobRow
  | .selectSpawn _ => Option (Option ℕ × SpawnStatus)
  | .selectSlot _ => Option (Option ℕ)
  | .selectStatus _ => Option JobStatus
  | .selectExpired _ => List String
  | .requestStop _ _ | .countRunning _ | .countSpawns _ | .failStale _ | .failAbandoned _ => ℕ
  | .touchSpawn _ _ | .markRunning _ | .failSpawn _ _ | .finishSpawn _ _ | .closeJob _ _
  | .finaliseJob _ _ | .closeQuiet => Unit

namespace Database

def setJobStatus (p : JobRow → Bool) (status : JobStatus) (db : Database) : Database :=
  { db with jobs := updateWhere p (fun j => { j with status }) db.jobs }

def setSpawnStatus (p : SpawnRow → Bool) (status : SpawnStatus) (db : Database) : Database :=
  { db with spawns := updateWhere p (fun r => { r with status }) db.spawns }

def touchSpawn (now : ℤ) (spawnId : String) (db : Database) : Database :=
  { db with
    spawns := updateWhere (fun r => r.spawnId = spawnId)
      (fun r => { r with lastSeen := some now }) db.spawns }

/-- `stopJob`'s update: an unfinished job is stopping, and its window ends now. -/
def requestStop (now : ℤ) (jobId : String) (db : Database) : Database :=
  { db with
    jobs := updateWhere (fun j => j.jobId = jobId ∧ !j.status.isTerminal)
      (fun j => { j with status := .stopping, stopAt := now }) db.jobs }

/-- The row that `startJob` inserts. -/
def newJob (terms : JobTerms) (stopAt createdAt : ℤ) : JobRow :=
  { terms with stopAt, status := .queued, createdAt }

/-- `INSERT INTO JOBS`; `JOB_ID` is the primary key. -/
def insertJob (terms : JobTerms) (stopAt createdAt : ℤ) (db : Database) :
    Except Constraint Database :=
  if ∃ j ∈ db.jobs, j.jobId = terms.jobId then .error .primaryKey
  else .ok { db with jobs := db.jobs ++ [newJob terms stopAt createdAt] }

/-- An unfinished job; `LIMIT 1` without an order, so `tie` picks among them. -/
def findUnfinishedJob (tie : ℕ) (db : Database) : Option JobRow :=
  let unfinished := db.jobs.filter fun j => !j.status.isTerminal
  unfinished[tie % unfinished.length]?

/-- The active job created first. `CREATED_AT` has whole seconds, so several can
be first; `tie` picks among them. -/
def findActiveJob (tie : ℕ) (db : Database) : Option JobRow :=
  let active := db.jobs.filter fun j => j.status.isActive
  let oldest := active.filter fun j => active.all fun j' => j.createdAt ≤ j'.createdAt
  oldest[tie % oldest.length]?

/-- The row that the claiming `INSERT` would add at slot `slot`. -/
def claimRow (c : Claim) (slot : ℕ) : SpawnRow :=
  { spawnId := c.spawnId, jobId := c.jobId, agentId := c.agentId, region := c.region,
    status := .running, slot := some slot, lastSeen := some c.now,
    avgLatency := 0, avgRps := 0, count := 0 }

/-- The `WHERE` of the claiming `INSERT` holds and no row has its `SPAWN_ID`. -/
def Claimable (db : Database) (c : Claim) : Prop :=
  (db.spawnsOf c.jobId).length < c.agents ∧ ∀ r ∈ db.spawns, r.spawnId ≠ c.spawnId

instance (db : Database) (c : Claim) : Decidable (db.Claimable c) := by
  unfold Claimable; infer_instance

/-- Another row already has the slot that the claiming `INSERT` computes. -/
def SlotTaken (db : Database) (c : Claim) : Prop :=
  ∃ r ∈ db.spawnsOf c.jobId, r.slot = some (db.spawnsOf c.jobId).length

instance (db : Database) (c : Claim) : Decidable (db.SlotTaken c) := by
  unfold SlotTaken; infer_instance

/-- `INSERT INTO JOB_SPAWNS ... SELECT ... WHERE (SELECT COUNT(*) ...) < AGENTS
ON CONFLICT(SPAWN_ID) DO NOTHING`. The conflict clause does not cover the unique
index on `(JOB_ID, SLOT)`. -/
def claimSlot (c : Claim) (db : Database) : Except Constraint Database :=
  let occupancy := (db.spawnsOf c.jobId).length
  if occupancy < c.agents then
    if db.SlotTaken c then .error .slotIndex
    else if ∃ r ∈ db.spawns, r.spawnId = c.spawnId then .ok db
    else .ok { db with spawns := db.spawns ++ [claimRow c occupancy] }
  else .ok db

/-- The row that `recordBenchmarkMetrics` inserts. -/
def metricRow (metricId : String) (report : SpawnMetricsReport) (createdAt : ℤ) : MetricRow :=
  { metricId, spawnId := report.spawnId, jobId := report.jobId,
    tickNumber := report.tickNumber, latency := report.latency, rps := report.rps,
    errorM1Rate := report.errorM1Rate.getD 0, count := report.count,
    p50 := report.p50.getD 0, p95 := report.p95.getD 0, p99 := report.p99.getD 0,
    bytes := report.bytes.getD 0, status4xx := report.status4xx.getD 0,
    status5xx := report.status5xx.getD 0, createdAt }

/-- The batch of `recordBenchmarkMetrics`: the metric row, then the heartbeat. -/
def recordMetrics (metricId : String) (report : SpawnMetricsReport) (now createdAt : ℤ)
    (db : Database) : Except Constraint Database :=
  if ∃ m ∈ db.metrics, m.metricId = metricId then .error .primaryKey
  else .ok { db with
    metrics := db.metrics ++ [metricRow metricId report createdAt]
    spawns := updateWhere (fun r => r.spawnId = report.spawnId)
      (fun r => { r with avgLatency := report.avgLatency, avgRps := report.actualRPS,
                         count := report.totalCount, lastSeen := some now }) db.spawns }

/-- The batch for a completion report that carries an error. -/
def failSpawn (spawnId jobId : String) (db : Database) : Database :=
  (db.setSpawnStatus (fun r => r.spawnId = spawnId) .failed).setJobStatus
    (fun j => j.jobId = jobId ∧ j.status.isActive) .failed

/-- The batch of the sweep's rule 2 for one expired job. -/
def finaliseJob (outcome : JobOutcome) (jobId : String) (db : Database) : Database :=
  (db.setSpawnStatus (fun r => r.jobId = jobId ∧ r.status = .running) .completed).setJobStatus
    (fun j => j.jobId = jobId ∧ !j.status.isTerminal) outcome.1

/-- Rule 1 of the sweep: `STATUS = 'RUNNING' AND LAST_SEEN < ?`, never for a null. -/
def isStale (before : ℤ) (r : SpawnRow) : Bool :=
  r.status = .running ∧ ∃ t ∈ r.lastSeen, t < before

/-- Rule 2: not terminal and `STOP_AT < ?`. -/
def isExpired (before : ℤ) (j : JobRow) : Bool := !j.status.isTerminal ∧ j.stopAt < before

/-- Rule 3: queued, started long ago, and without a single spawn. -/
def isAbandoned (before : ℤ) (db : Database) (j : JobRow) : Bool :=
  j.status = .queued ∧ j.startAt < before ∧ (db.spawnsOf j.jobId).length = 0

/-- Rule 4: stopping, and no spawn running. -/
def isQuiet (db : Database) (j : JobRow) : Bool :=
  j.status = .stopping ∧ db.runningCount j.jobId = 0

end Database

/-- A statement that may violate a constraint: the database changes only if not. -/
def World.attempt (w : World) : Except Constraint Database → Except Constraint Unit × World
  | .error e => (.error e, w)
  | .ok db => (.ok (), { w with db })

/-- Execute one statement atomically. -/
def Statement.exec : (st : Statement) → World → st.Result × World
  | .dateNow, w => (w.clock, w)
  | .findUnfinishedJob tie, w => ((w.db.findUnfinishedJob tie).map fun j => j.jobId, w)
  | .insertJob terms stopAt, w => w.attempt (w.db.insertJob terms stopAt (w.clock / 1000))
  | .findActiveJob tie, w => (w.db.findActiveJob tie, w)
  | .selectSpawn spawnId, w => ((w.db.spawn? spawnId).map fun r => (r.slot, r.status), w)
  | .touchSpawn now spawnId, w => ((), { w with db := w.db.touchSpawn now spawnId })
  | .claimSlot c, w => w.attempt (w.db.claimSlot c)
  | .selectSlot spawnId, w => ((w.db.spawn? spawnId).map fun r => r.slot, w)
  | .markRunning jobId, w =>
    ((), { w with db :=
      w.db.setJobStatus (fun j => j.jobId = jobId ∧ j.status = .queued) .running })
  | .requestStop now jobId, w =>
    (w.db.jobs.countP fun j => j.jobId = jobId ∧ !j.status.isTerminal,
      { w with db := w.db.requestStop now jobId })
  | .recordMetrics metricId report now, w =>
    w.attempt (w.db.recordMetrics metricId report now (w.clock / 1000))
  | .failSpawn spawnId jobId, w => ((), { w with db := w.db.failSpawn spawnId jobId })
  | .selectStatus jobId, w => ((w.db.job? jobId).map fun j => j.status, w)
  | .finishSpawn outcome spawnId, w =>
    ((), { w with db := w.db.setSpawnStatus (fun r => r.spawnId = spawnId) outcome.1 })
  | .countRunning jobId, w => (w.db.runningCount jobId, w)
  | .closeJob outcome jobId, w =>
    ((), { w with db :=
      w.db.setJobStatus (fun j => j.jobId = jobId ∧ !j.status.isTerminal) outcome.1 })
  | .failStale before, w =>
    (w.db.spawns.countP (Database.isStale before),
      { w with db := w.db.setSpawnStatus (Database.isStale before) .failed })
  | .selectExpired before, w =>
    ((w.db.jobs.filter (Database.isExpired before)).map fun j => j.jobId, w)
  | .countSpawns jobId, w => ((w.db.spawnsOf jobId).length, w)
  | .finaliseJob outcome jobId, w => ((), { w with db := w.db.finaliseJob outcome jobId })
  | .failAbandoned before, w =>
    (w.db.jobs.countP (w.db.isAbandoned before),
      { w with db := w.db.setJobStatus (w.db.isAbandoned before) .failed })
  | .closeQuiet, w => ((), { w with db := w.db.setJobStatus w.db.isQuiet .stopped })

theorem Database.claimSlot_of_claimable {db : Database} {c : Claim} (h : db.Claimable c)
    (hs : ¬ db.SlotTaken c) : db.claimSlot c = .ok { db with
      spawns := db.spawns ++ [claimRow c (db.spawnsOf c.jobId).length] } := by
  have hno : ¬ ∃ r ∈ db.spawns, r.spawnId = c.spawnId := by
    rintro ⟨r, hr, he⟩
    exact h.2 r hr he
  simp only [claimSlot, if_pos h.1, if_neg hs, if_neg hno]

/-- Everything the claiming `INSERT` can do: nothing, fail, or add its row. -/
theorem Database.claimSlot_cases (db : Database) (c : Claim) :
    (db.claimSlot c = .ok db ∧ ¬ db.Claimable c) ∨
    (db.claimSlot c = .error .slotIndex ∧ db.SlotTaken c) ∨
    (db.claimSlot c = .ok { db with
      spawns := db.spawns ++ [claimRow c (db.spawnsOf c.jobId).length] } ∧ db.Claimable c) := by
  by_cases hroom : (db.spawnsOf c.jobId).length < c.agents
  · by_cases hs : db.SlotTaken c
    · exact .inr (.inl ⟨by simp [claimSlot, hroom, hs], hs⟩)
    · by_cases hex : ∃ r ∈ db.spawns, r.spawnId = c.spawnId
      · refine .inl ⟨by simp only [claimSlot, if_pos hroom, if_neg hs, if_pos hex], ?_⟩
        obtain ⟨r, hr, he⟩ := hex
        exact fun h => h.2 r hr he
      · have hc : db.Claimable c := ⟨hroom, fun r hr he => hex ⟨r, hr, he⟩⟩
        exact .inr (.inr ⟨db.claimSlot_of_claimable hc hs, hc⟩)
  · exact .inl ⟨by simp only [claimSlot, if_neg hroom], fun h => hroom h.1⟩

/-- The job that a poll selects is one of the active jobs. -/
theorem Database.findActiveJob_mem {db : Database} {tie : ℕ} {j : JobRow}
    (h : db.findActiveJob tie = some j) : j ∈ db.jobs ∧ j.status.isActive = true := by
  have hmem := List.mem_of_getElem? h
  simp only [List.mem_filter] at hmem
  exact hmem.1

@[simp] theorem World.attempt_clock (w : World) (r : Except Constraint Database) :
    (w.attempt r).2.clock = w.clock := by cases r <;> rfl

@[simp] theorem Statement.exec_clock (st : Statement) (w : World) :
    (st.exec w).2.clock = w.clock := by cases st <;> simp [Statement.exec]

end R2Bench
