import R2Bench.Evolution

/-!
# The writers of the two status columns

Which status a row has after a statement, as a function of the statement, the
database before it and the row. Every argument about statuses reads these two
tables instead of the statements.
-/
namespace R2Bench
open Interleaving Tables

/-- `JOBS.STATUS` of a row after the statement. -/
def Statement.jobStatusAfter (st : Statement) (db : Database) (j : JobRow) : JobStatus :=
  match st with
  | .markRunning jobId => if j.jobId = jobId ∧ j.status = .queued then .running else j.status
  | .requestStop _ jobId =>
    if j.jobId = jobId ∧ !j.status.isTerminal then .stopping else j.status
  | .failSpawn _ jobId => if j.jobId = jobId ∧ j.status.isActive then .failed else j.status
  | .closeJob outcome jobId | .finaliseJob outcome jobId =>
    if j.jobId = jobId ∧ !j.status.isTerminal then outcome.1 else j.status
  | .failAbandoned before => if db.isAbandoned before j then .failed else j.status
  | .closeQuiet => if db.isQuiet j then .stopped else j.status
  | _ => j.status

/-- `JOB_SPAWNS.STATUS` of a row after the statement. -/
def Statement.spawnStatusAfter (st : Statement) (r : SpawnRow) : SpawnStatus :=
  match st with
  | .failSpawn spawnId _ => if r.spawnId = spawnId then .failed else r.status
  | .finishSpawn outcome spawnId => if r.spawnId = spawnId then outcome.1 else r.status
  | .failStale before => if Database.isStale before r then .failed else r.status
  | .finaliseJob _ jobId =>
    if r.jobId = jobId ∧ r.status = .running then .completed else r.status
  | _ => r.status

/-- No writer touches a terminal status. -/
theorem Statement.jobStatusAfter_terminal (st : Statement) (db : Database) {j : JobRow}
    (h : j.status.isTerminal = true) : st.jobStatusAfter db j = j.status := by
  have hactive : j.status.isActive = false := by
    cases hs : j.status <;> simp_all [JobStatus.isTerminal, JobStatus.isActive]
  cases st with
  | markRunning jobId | failAbandoned before | closeQuiet =>
    cases hs : j.status <;>
      simp_all [jobStatusAfter, JobStatus.isTerminal, Database.isAbandoned, Database.isQuiet]
  | requestStop now jobId | failSpawn spawnId jobId | closeJob outcome jobId
  | finaliseJob outcome jobId => simp [jobStatusAfter, h, hactive]
  | _ => rfl

/-- No writer makes a spawn running. -/
theorem Statement.spawnStatusAfter_running {st : Statement} {r : SpawnRow}
    (h : st.spawnStatusAfter r = .running) : r.status = .running := by
  cases st with
  | finishSpawn outcome spawnId =>
    simp only [spawnStatusAfter] at h
    split_ifs at h
    · exact absurd h outcome.2
    · exact h
  | failSpawn spawnId jobId | failStale before | finaliseJob outcome jobId =>
    simp only [spawnStatusAfter] at h
    split_ifs at h
    exact h
  | _ => exact h

section
variable {w : World} {i : ℕ}

/-- Row `i` of the table after an update in place. -/
theorem getElem?_setJobStatus (d : Database) {p : JobRow → Bool} {s : JobStatus} {j : JobRow}
    (hj : d.jobs[i]? = some j) : ∃ j', (d.setJobStatus p s).jobs[i]? = some j' ∧
      j'.jobId = j.jobId ∧ j'.status = if p j then s else j.status := by
  refine ⟨_, getElem?_updateWhere_of hj, ?_⟩
  split_ifs <;> exact ⟨rfl, rfl⟩

theorem getElem?_setSpawnStatus (d : Database) {p : SpawnRow → Bool} {s : SpawnStatus}
    {r : SpawnRow} (hr : d.spawns[i]? = some r) :
    ∃ r', (d.setSpawnStatus p s).spawns[i]? = some r' ∧
      r'.toSpawnSeat = r.toSpawnSeat ∧ r'.status = if p r then s else r.status := by
  refine ⟨_, getElem?_updateWhere_of hr, ?_⟩
  split_ifs <;> exact ⟨rfl, rfl⟩

/-- What a statement does to the status of the job in row `i`. -/
theorem Statement.exec_job (st : Statement) {j : JobRow} (hj : w.db.jobs[i]? = some j) :
    ∃ j', (st.exec w).2.db.jobs[i]? = some j' ∧ j'.jobId = j.jobId ∧
      j'.status = st.jobStatusAfter w.db j := by
  have hlt := (List.getElem?_eq_some_iff.mp hj).1
  cases st with
  | dateNow | findUnfinishedJob | findActiveJob | selectSpawn | touchSpawn | selectSlot
  | selectStatus | finishSpawn | countRunning | failStale | selectExpired | countSpawns =>
    exact ⟨j, hj, rfl, rfl⟩
  | insertJob terms stopAt =>
    simp only [exec, Database.insertJob]
    split_ifs
    · exact ⟨j, hj, rfl, rfl⟩
    · exact ⟨j, by simp only [World.attempt, List.getElem?_append_left hlt, hj], rfl, rfl⟩
  | claimSlot c =>
    rcases w.db.claimSlot_cases c with ⟨h, -⟩ | ⟨h, -⟩ | ⟨h, -⟩ <;>
      exact ⟨j, by simp only [exec, h, World.attempt, hj], rfl, rfl⟩
  | recordMetrics metricId report now =>
    simp only [exec, Database.recordMetrics]
    split_ifs <;> exact ⟨j, hj, rfl, rfl⟩
  | requestStop now jobId =>
    refine ⟨_, getElem?_updateWhere_of hj, ?_⟩
    simp only [jobStatusAfter, decide_eq_true_eq]
    split_ifs <;> exact ⟨rfl, rfl⟩
  | markRunning jobId | closeJob outcome jobId | failAbandoned before | closeQuiet =>
    obtain ⟨j', hj', hid, hs⟩ := getElem?_setJobStatus w.db hj
    exact ⟨j', hj', hid, hs.trans (by simp [jobStatusAfter])⟩
  | failSpawn spawnId jobId | finaliseJob outcome jobId =>
    obtain ⟨j', hj', hid, hs⟩ := getElem?_setJobStatus (w.db.setSpawnStatus _ _) hj
    exact ⟨j', hj', hid, hs.trans (by simp [jobStatusAfter])⟩

/-- What a statement does to the status of the spawn in row `i`. -/
theorem Statement.exec_spawn (st : Statement) {r : SpawnRow} (hr : w.db.spawns[i]? = some r) :
    ∃ r', (st.exec w).2.db.spawns[i]? = some r' ∧ r'.toSpawnSeat = r.toSpawnSeat ∧
      r'.status = st.spawnStatusAfter r := by
  have hlt := (List.getElem?_eq_some_iff.mp hr).1
  cases st with
  | dateNow | findUnfinishedJob | findActiveJob | selectSpawn | selectSlot | selectStatus
  | countRunning | selectExpired | countSpawns | markRunning | requestStop | closeJob
  | failAbandoned | closeQuiet => exact ⟨r, hr, rfl, rfl⟩
  | insertJob terms stopAt =>
    simp only [exec, Database.insertJob]
    split_ifs <;> exact ⟨r, hr, rfl, rfl⟩
  | claimSlot c =>
    rcases w.db.claimSlot_cases c with ⟨h, -⟩ | ⟨h, -⟩ | ⟨h, -⟩
    · exact ⟨r, by simp only [exec, h, World.attempt, hr], rfl, rfl⟩
    · exact ⟨r, by simp only [exec, h, World.attempt, hr], rfl, rfl⟩
    · exact ⟨r, by simp only [exec, h, World.attempt, List.getElem?_append_left hlt, hr], rfl, rfl⟩
  | recordMetrics metricId report now =>
    simp only [exec, Database.recordMetrics]
    split_ifs
    · exact ⟨r, hr, rfl, rfl⟩
    · refine ⟨_, getElem?_updateWhere_of hr, ?_⟩
      split_ifs <;> exact ⟨rfl, rfl⟩
  | touchSpawn now spawnId =>
    refine ⟨_, getElem?_updateWhere_of hr, ?_⟩
    split_ifs <;> exact ⟨rfl, rfl⟩
  | finishSpawn outcome spawnId | failStale before | failSpawn spawnId jobId
  | finaliseJob outcome jobId =>
    obtain ⟨r', hr', hseat, hs⟩ := getElem?_setSpawnStatus w.db hr
    exact ⟨r', hr', hseat, hs.trans (by simp [spawnStatusAfter])⟩

/-- Where a job after a statement comes from. -/
theorem Statement.exec_job_back (st : Statement) {j' : JobRow} (hj' : j' ∈ (st.exec w).2.db.jobs) :
    (∃ j ∈ w.db.jobs, j'.jobId = j.jobId ∧ j'.status = st.jobStatusAfter w.db j) ∨
    (∃ terms stopAt, st = .insertJob terms stopAt ∧ (∀ j ∈ w.db.jobs, j.jobId ≠ terms.jobId) ∧
      j' = Database.newJob terms stopAt (w.clock / 1000)) := by
  have hkept : ∀ (i : ℕ), i < w.db.jobs.length → (st.exec w).2.db.jobs[i]? = some j' →
      ∃ j ∈ w.db.jobs, j'.jobId = j.jobId ∧ j'.status = st.jobStatusAfter w.db j := by
    intro i hi hget
    obtain ⟨j'', hj'', hid, hs⟩ := st.exec_job (List.getElem?_eq_getElem hi)
    have hsame : j' = j'' := Option.some.inj (hget.symm.trans hj'')
    subst hsame
    exact ⟨_, List.getElem_mem hi, hid, hs⟩
  obtain ⟨i, hi⟩ := List.mem_iff_getElem?.mp hj'
  have hlt := (List.getElem?_eq_some_iff.mp hi).1
  rcases st.exec_rows w with hs | ⟨terms, stopAt, he, hnew, hdb⟩ | ⟨c, -, -, hdb⟩
  · have hlen := congrArg List.length hs.jobs
    simp only [List.length_map] at hlen
    exact .inl (hkept i (by omega) hi)
  · by_cases hold : i < w.db.jobs.length
    · exact .inl (hkept i hold hi)
    · rw [hdb, List.getElem?_append_right (by omega)] at hi
      exact .inr ⟨terms, stopAt, he, hnew, by simpa using List.mem_of_getElem? hi⟩
  · rw [hdb] at hlt
    exact .inl (hkept i hlt hi)

/-- Where a spawn after a statement comes from. -/
theorem Statement.exec_spawn_back (st : Statement) {r' : SpawnRow}
    (hr' : r' ∈ (st.exec w).2.db.spawns) :
    (∃ r ∈ w.db.spawns, r'.toSpawnSeat = r.toSpawnSeat ∧ r'.status = st.spawnStatusAfter r) ∨
    (∃ c, st = .claimSlot c ∧ w.db.Claimable c ∧
      r' = Database.claimRow c (w.db.spawnsOf c.jobId).length) := by
  have hkept : ∀ (i : ℕ), i < w.db.spawns.length → (st.exec w).2.db.spawns[i]? = some r' →
      ∃ r ∈ w.db.spawns, r'.toSpawnSeat = r.toSpawnSeat ∧ r'.status = st.spawnStatusAfter r := by
    intro i hi hget
    obtain ⟨r'', hr'', hseat, hs⟩ := st.exec_spawn (List.getElem?_eq_getElem hi)
    have hsame : r' = r'' := Option.some.inj (hget.symm.trans hr'')
    subst hsame
    exact ⟨_, List.getElem_mem hi, hseat, hs⟩
  obtain ⟨i, hi⟩ := List.mem_iff_getElem?.mp hr'
  have hlt := (List.getElem?_eq_some_iff.mp hi).1
  rcases st.exec_rows w with hs | ⟨terms, stopAt, -, -, hdb⟩ | ⟨c, he, hc, hdb⟩
  · have hlen := congrArg List.length hs.spawns
    simp only [List.length_map] at hlen
    exact .inl (hkept i (by omega) hi)
  · rw [hdb] at hlt
    exact .inl (hkept i hlt hi)
  · by_cases hold : i < w.db.spawns.length
    · exact .inl (hkept i hold hi)
    · rw [hdb, List.getElem?_append_right (by omega)] at hi
      exact .inr ⟨c, he, hc, by simpa using List.mem_of_getElem? hi⟩

/-- A job without running spawns gets one only from a claiming `INSERT`. -/
theorem Statement.runningCount_exec (st : Statement) {jobId : String}
    (hclaim : ∀ c, st = .claimSlot c → w.db.Claimable c → c.jobId ≠ jobId)
    (h : w.db.runningCount jobId = 0) : (st.exec w).2.db.runningCount jobId = 0 := by
  rw [Database.runningCount_eq_zero] at h ⊢
  intro r' hr' hjob hrun
  rcases st.exec_spawn_back hr' with ⟨r, hr, hseat, hs⟩ | ⟨c, rfl, hc, rfl⟩
  · apply h r hr ((congrArg SpawnSeat.jobId hseat).symm.trans hjob)
    exact Statement.spawnStatusAfter_running (hs.symm.trans hrun)
  · exact hclaim c rfl hc hjob

end

end R2Bench
