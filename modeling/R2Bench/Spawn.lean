import R2Bench.Agents

/-!
# Spawn reports and the reaper

`recordBenchmarkMetrics`, `completeBenchmarkSpawn` and the scheduled sweep
`reapJobs`.
-/
namespace R2Bench
open Interleaving

def SPAWN_STALE_AFTER_MS : ℤ := 90000

def JOB_FINALISE_GRACE_MS : ℤ := 30000

def QUEUED_WITHOUT_AGENTS_TIMEOUT_MS : ℤ := 300000

def recordBenchmarkMetrics (metricId : String) (report : SpawnMetricsReport) : Handler := do
  let now ← await .dateNow
  let stored ← await (.recordMetrics metricId report now)
  match stored with
  | .error _ => return .unavailable
  | .ok () => return .ok

/-- `if (report.error)`: absent and empty texts are not errors. -/
def SpawnCompletionReport.hasError (report : SpawnCompletionReport) : Bool :=
  report.error.getD "" ≠ ""

/-- `["STOPPING", "STOPPED"].includes(jobStatus ?? "")`. -/
def isStopping (jobStatus : Option JobStatus) : Bool :=
  jobStatus = some .stopping ∨ jobStatus = some .stopped

def spawnOutcome (stopping : Bool) : SpawnOutcome :=
  if stopping then ⟨.stopped, by decide⟩ else ⟨.completed, by decide⟩

def jobOutcome (stopping : Bool) : JobOutcome :=
  if stopping then ⟨.stopped, by decide⟩ else ⟨.completed, by decide⟩

def completeBenchmarkSpawn (report : SpawnCompletionReport) : Handler := do
  if report.hasError then
    await (.failSpawn report.spawnId report.jobId)
    return .ok
  let jobStatus ← await (.selectStatus report.jobId)
  let stopping := isStopping jobStatus
  await (.finishSpawn (spawnOutcome stopping) report.spawnId)
  let active ← await (.countRunning report.jobId)
  if active ≠ 0 then
    return .ok
  await (.closeJob (jobOutcome stopping) report.jobId)
  return .ok

theorem jobOutcome_cases (stopping : Bool) :
    (jobOutcome stopping).1 = .stopped ∨ (jobOutcome stopping).1 = .completed := by
  cases stopping
  · exact .inr rfl
  · exact .inl rfl

/-- The loop over the expired jobs; the count decides the outcome and is a
statement of its own, before the batch. -/
def finaliseExpired (finalised : ℕ) : List String → Prog Statement Statement.Result ℕ
  | [] => return finalised
  | jobId :: expired => do
    let spawned ← await (.countSpawns jobId)
    let outcome : JobOutcome := if spawned > 0 then ⟨.completed, rfl⟩ else ⟨.failed, rfl⟩
    await (.finaliseJob outcome jobId)
    finaliseExpired (finalised + 1) expired

theorem finaliseExpired_uses (finalised : ℕ) (expired : List String) :
    (finaliseExpired finalised expired).Uses fun st => ∃ jobId, st = .countSpawns jobId ∨
      ∃ outcome, st = .finaliseJob outcome jobId ∧
        (outcome.1 = .completed ∨ outcome.1 = .failed) := by
  induction expired generalizing finalised with
  | nil => exact Prog.uses_done _ _
  | cons jobId expired ih =>
    simp only [finaliseExpired, await_bind, Prog.uses_call]
    refine ⟨⟨jobId, .inl rfl⟩, fun spawned => ⟨⟨jobId, .inr ⟨_, rfl, ?_⟩⟩, fun _ => ih _⟩⟩
    split_ifs
    · exact .inl rfl
    · exact .inr rfl

/-- Rules 3 and 4 of the sweep. -/
def closeLeftovers (now : ℤ) (staleSpawns finalised : ℕ) : Handler := do
  let abandoned ← await (.failAbandoned (now - QUEUED_WITHOUT_AGENTS_TIMEOUT_MS))
  await .closeQuiet
  return .swept finalised staleSpawns abandoned

/-- After its selection the sweep only finalises jobs and closes leftovers. -/
theorem afterSelection_uses (now : ℤ) (staleSpawns : ℕ) (expired : List String) :
    (finaliseExpired 0 expired >>= closeLeftovers now staleSpawns).Uses fun st =>
      (∀ before, st ≠ .failStale before) ∧ ∀ before, st ≠ .selectExpired before := by
  refine Prog.Uses.bind (fun finalised => ?_) ((finaliseExpired_uses 0 expired).mono ?_)
  · exact ⟨by simp, fun _ => ⟨by simp, fun _ => trivial⟩⟩
  · rintro st - ⟨jobId, rfl | ⟨outcome, rfl, -⟩⟩ <;> simp

/-- The scheduled sweep: stale spawns, expired jobs, then the leftovers. -/
def reapJobs : Handler := do
  let now ← await .dateNow
  let staleSpawns ← await (.failStale (now - SPAWN_STALE_AFTER_MS))
  let expired ← await (.selectExpired (now - JOB_FINALISE_GRACE_MS))
  let finalised ← finaliseExpired 0 expired
  closeLeftovers now staleSpawns finalised

end R2Bench
