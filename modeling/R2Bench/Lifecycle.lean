import R2Bench.SlotAllocation
import R2Bench.Vocabulary
import R2Bench.Writers

/-!
# The life of a job

Statuses only move forward, under any interleaving and whatever a handler read
earlier. A stop, however, is not always recorded as one: two of the writers give
a stopping job the outcome of a finished run.
-/
namespace R2Bench
open Interleaving Tables

/-- Every job is still there, and its status is the same or further on. -/
def StatusForward (db db' : Database) : Prop :=
  ∀ (i : ℕ) j, db.jobs[i]? = some j → ∃ j', db'.jobs[i]? = some j' ∧ j'.jobId = j.jobId ∧
    (j'.status = j.status ∨ j.status.rank < j'.status.rank)

theorem Evolves.statusForward {w w' : World} (h : Evolves w w') : StatusForward w.db w'.db := by
  intro i j hj
  obtain ⟨j', hj', hs⟩ := h.jobs i j hj
  exact ⟨j', hj', hs.jobId, hs.status.imp Eq.symm id⟩

/-- Every statement, with any bound values, and every run move statuses forward;
a terminal status stays, and a stopping job never becomes active again. -/
theorem job_status_forward {env : Env} {w : Plane} (hw : Reachable env w) :
    (∀ st : Statement, StatusForward w.store.db (st.exec w.store).2.db) ∧
    ∀ w', (controlPlane env).FreeRun w w' → StatusForward w.store.db w'.store.db ∧
      ∀ (i : ℕ) j j', w.store.db.jobs[i]? = some j → w'.store.db.jobs[i]? = some j' →
        (j.status.isTerminal = true → j'.status = j.status) ∧
        (j.status = .stopping → j'.status.isActive = false) := by
  refine ⟨fun st => (st.exec_evolves _).statusForward, fun w' hrun => ?_⟩
  have hev := hw.evolves hrun
  refine ⟨hev.statusForward, fun i j j' hj hj' => ?_⟩
  obtain ⟨j'', hj'', hs⟩ := hev.jobs i j hj
  have hsame : j' = j'' := Option.some.inj (hj'.symm.trans hj'')
  subst hsame
  refine ⟨hs.terminal, fun hstop => ?_⟩
  rw [← Bool.not_eq_true]
  intro hact
  have hold := hs.active hact
  simp [hstop, JobStatus.isActive] at hold

/-! ## Stopping -/

/-- The two writers that do not respect a stop: the sweep's batch for an expired
job, and a completion handler that read the status before the stop. -/
def StopRespected (jobId : String) (v : Plane) (a : Action Arrival ℕ) : Prop :=
  ∀ i, a = .exec i → (∃ j ∈ v.store.db.jobs, j.jobId = jobId ∧ j.status = .stopping) →
    ∀ outcome : JobOutcome, v.next? i ≠ some (.finaliseJob outcome jobId) ∧
      (v.next? i = some (.closeJob outcome jobId) → outcome.1 = .stopped)

/-- A stopping job stays so, is stopped, or is closed by one of the two. -/
theorem Statement.jobStatusAfter_stopping (st : Statement) (db : Database) {j : JobRow}
    (hs : j.status = .stopping) :
    (st.jobStatusAfter db j = .stopping ∨ st.jobStatusAfter db j = .stopped) ∨
    ∃ outcome : JobOutcome, st.jobStatusAfter db j = outcome.1 ∧
      (st = .finaliseJob outcome j.jobId ∨ st = .closeJob outcome j.jobId) := by
  cases st with
  | closeJob outcome jobId | finaliseJob outcome jobId =>
    by_cases he : j.jobId = jobId
    · exact .inr ⟨outcome, by simp [jobStatusAfter, he, hs, JobStatus.isTerminal], by simp [he]⟩
    · exact .inl (.inl (by simp [jobStatusAfter, he, hs]))
  | closeQuiet =>
    left
    simp only [jobStatusAfter]
    split_ifs
    · exact .inr rfl
    · exact .inl hs
  | failAbandoned before =>
    exact .inl (.inl (by simp [jobStatusAfter, Database.isAbandoned, hs]))
  | markRunning jobId | failSpawn spawnId jobId | requestStop now jobId =>
    left; left
    simp [jobStatusAfter, hs, JobStatus.isActive, JobStatus.isTerminal]
  | _ => exact .inl (.inl hs)

/-- One step, exactly: a stopping job stays stopping or becomes stopped if and
only if the step is neither of the two. -/
theorem stopRespected_iff {env : Env} {v v' : Plane} {a : Action Arrival ℕ}
    (hv : Reachable env v) (h : (controlPlane env).step v a = some v') {n : ℕ} {j : JobRow}
    (hj : v.store.db.jobs[n]? = some j) (hs : j.status = .stopping) :
    StopRespected j.jobId v a ↔ ∃ j', v'.store.db.jobs[n]? = some j' ∧ j'.jobId = j.jobId ∧
      (j'.status = .stopping ∨ j'.status = .stopped) := by
  rcases (controlPlane env).step_store h with ⟨ha, he⟩ | ⟨i, st, rfl, hnext, he⟩ | ⟨d, rfl, he⟩
  · rw [he]
    exact ⟨fun _ => ⟨j, hj, rfl, .inl hs⟩, fun _ i hi => absurd hi (ha i)⟩
  · obtain ⟨j', hj', hid, hafter⟩ := st.exec_job hj
    replace he : v'.store = (st.exec v.store).2 := he
    have hmem := List.mem_of_getElem? hj
    constructor
    · intro hc
      refine ⟨j', by rw [he, hj'], hid, ?_⟩
      rw [hafter]
      rcases st.jobStatusAfter_stopping v.store.db hs with hok | ⟨outcome, ho, rfl | rfl⟩
      · exact hok
      · exact absurd hnext (hc i rfl ⟨j, hmem, rfl, hs⟩ outcome).1
      · exact .inr (ho.trans ((hc i rfl ⟨j, hmem, rfl, hs⟩ outcome).2 hnext))
    · rintro ⟨j'', hj'', -, hstatus⟩ i' hi' - outcome
      have hsame : i = i' := by simpa using hi'
      subst hsame
      have heq : j'' = j' := by rw [he, hj'] at hj''; exact (Option.some.inj hj'').symm
      subst heq
      rw [hafter] at hstatus
      obtain ⟨u, -, hawaits⟩ := hv.awaits hnext
      constructor
      · intro hfin
        obtain rfl : st = _ := Option.some.inj (hnext.symm.trans hfin)
        simp only [Statement.jobStatusAfter, hs, JobStatus.isTerminal] at hstatus
        rcases hawaits.2 with ho | ho <;> simp [ho] at hstatus
      · intro hclose
        obtain rfl : st = _ := Option.some.inj (hnext.symm.trans hclose)
        obtain ⟨-, -, -, -, ho | ho⟩ := hawaits
        · exact ho
        · simp [Statement.jobStatusAfter, hs, JobStatus.isTerminal, ho] at hstatus
  · rw [he]
    exact ⟨fun _ => ⟨j, hj, rfl, .inl hs⟩, fun _ i hi => by simp at hi⟩

/-- Along every run whose steps respect the stop, a job that was stopping is
stopping or stopped; and a step that does not respect it ends that. -/
theorem stop_recorded {env : Env} {w : Plane} (hw : Reachable env w) {n : ℕ} {j : JobRow}
    (hj : w.store.db.jobs[n]? = some j) (hs : j.status = .stopping) :
    (∀ w', (controlPlane env).Run (StopRespected j.jobId) w w' →
      ∃ j', w'.store.db.jobs[n]? = some j' ∧ (j'.status = .stopping ∨ j'.status = .stopped)) ∧
    ∀ a w', (controlPlane env).step w a = some w' → ¬ StopRespected j.jobId w a →
      ∃ j', w'.store.db.jobs[n]? = some j' ∧ (j'.status = .completed ∨ j'.status = .failed) := by
  constructor
  · intro w' hrun
    suffices h : ∃ j', w'.store.db.jobs[n]? = some j' ∧ j'.jobId = j.jobId ∧
        (j'.status = .stopping ∨ j'.status = .stopped) by
      obtain ⟨j', hj', -, hst⟩ := h
      exact ⟨j', hj', hst⟩
    refine System.Run.invariant _ hrun (I := fun v => ∃ j', v.store.db.jobs[n]? = some j' ∧
      j'.jobId = j.jobId ∧ (j'.status = .stopping ∨ j'.status = .stopped))
      ⟨j, hj, rfl, .inl hs⟩ ?_
    rintro v a v' hv hc hstep ⟨j', hj', hid, hst⟩
    have hreach := hw.run hv.free
    rcases hst with hst | hst
    · obtain ⟨j'', hj'', hid', hst'⟩ := (stopRespected_iff hreach hstep hj' hst).mp (hid ▸ hc)
      exact ⟨j'', hj'', hid'.trans hid, hst'⟩
    · have hev := hreach.evolves_step hstep
      obtain ⟨j'', hj'', hjs⟩ := hev.jobs n j' hj'
      exact ⟨j'', hj'', hjs.jobId.trans hid, .inr ((hjs.terminal (by rw [hst]; rfl)).trans hst)⟩
  · intro a w' hstep hc
    have hev := hw.evolves_step hstep
    obtain ⟨j', hj', hjs⟩ := hev.jobs n j hj
    refine ⟨j', hj', ?_⟩
    have hnot : ¬ (j'.status = .stopping ∨ j'.status = .stopped) := fun hok =>
      hc ((stopRespected_iff hw hstep hj hs).mpr ⟨j', hj', hjs.jobId, hok⟩)
    have hrank := hjs.status.rank_le
    rw [hs] at hrank
    cases hst : j'.status <;> simp_all [JobStatus.rank]

def stopOf (jobId : String) : Arrival := ⟨.stop "" ⟨jobId⟩, sampleUuid, 0⟩

def sweepArrival : Arrival := ⟨.sweep, sampleUuid, 0⟩

/-- The error-free completion report of an agent for the sample job. -/
def completeOf (agentId : String) : Arrival :=
  ⟨.complete ⟨⟨some "key", spawnIdOf sampleUuid.text agentId, sampleUuid.text⟩, none⟩,
    sampleUuid, 0⟩

/-- A job is started, one agent joins, and an operator stops it. -/
def stoppedJob : List (Action Arrival ℕ) :=
  .arrive (startOf 5 2 1 0) :: serve 3 0 ++ .arrive (pollOf "a") :: serve 6 1 ++
    .arrive (stopOf sampleUuid.text) :: serve 2 2

def statusAt (n : ℕ) (s : JobStatus) (v : Plane) : Bool :=
  v.store.db.jobs[n]?.any fun j => j.jobId = sampleUuid.text ∧ j.status = s

/-- An executable form of `StopRespected`, for the sample job. -/
def stopGuard (v : Plane) : Action Arrival ℕ → Bool
  | .exec i =>
    match v.next? i with
    | some (.finaliseJob _ _) => false
    | some (.closeJob outcome _) => outcome.1 = .stopped
    | _ => true
  | _ => true

theorem stopRespected_of_guard (jobId : String) (v : Plane) (a : Action Arrival ℕ)
    (h : stopGuard v a = true) : StopRespected jobId v a := by
  rintro i rfl - outcome
  refine ⟨fun hfin => ?_, fun hclose => ?_⟩
  · simp [stopGuard, hfin] at h
  · simpa [stopGuard, hclose] using h

theorem mem_of_statusAt {n : ℕ} {s : JobStatus} {v : Plane} (h : statusAt n s v = true) :
    ∃ j, v.store.db.jobs[n]? = some j ∧ j.jobId = sampleUuid.text ∧ j.status = s := by
  obtain ⟨j, hj, hs⟩ := (Option.any_eq_true _ _).mp h
  exact ⟨j, hj, of_decide_eq_true hs⟩

/-- A job is started; one agent joins it and an operator stops it. The queued job
is stopping at the end, and each step of the way was forward. -/
theorem job_status_forward_stop : ∃ w w' : Plane, Reachable bareEnv w ∧
    (controlPlane bareEnv).FreeRun w w' ∧ statusAt 0 .queued w = true ∧
    statusAt 0 .stopping w' = true ∧ StatusForward w.store.db w'.store.db := by
  obtain ⟨w, w', hrun, hw, hrun', hw'⟩ := (controlPlane bareEnv).exists_runs_of_replay
    (w := idlePlane 0) (C := fun _ _ => True) (.arrive (startOf 5 2 1 0) :: serve 3 0)
    (statusAt 0 .queued) (fun _ _ => true) (fun _ _ _ => trivial)
    (.arrive (pollOf "a") :: serve 6 1 ++ .arrive (stopOf sampleUuid.text) :: serve 2 2)
    (statusAt 0 .stopping) (by decide +kernel)
  have hr : Reachable bareEnv w := ⟨0, hrun⟩
  exact ⟨w, w', hr, hrun', hw, hw', ((job_status_forward hr).2 w' hrun').1⟩

/-- The agent reports its completion: the job is recorded as stopped. -/
theorem stop_recorded_complete : ∃ (w w' : Plane) (j : JobRow), Reachable bareEnv w ∧
    w.store.db.jobs[0]? = some j ∧ j.status = .stopping ∧
    (controlPlane bareEnv).Run (StopRespected j.jobId) w w' ∧ statusAt 0 .stopped w' = true ∧
    ∃ j', w'.store.db.jobs[0]? = some j' ∧ (j'.status = .stopping ∨ j'.status = .stopped) := by
  obtain ⟨w, w', hrun, hw, hrun', hw'⟩ := (controlPlane bareEnv).exists_runs_of_replay
    (w := idlePlane 0) stoppedJob (statusAt 0 .stopping) stopGuard
    (stopRespected_of_guard sampleUuid.text)
    (.arrive (completeOf "a") :: serve 4 3) (statusAt 0 .stopped) (by decide +kernel)
  obtain ⟨j, hj, hid, hs⟩ := mem_of_statusAt hw
  have hr : Reachable bareEnv w := ⟨0, hrun⟩
  rw [← hid] at hrun'
  exact ⟨w, w', j, hr, hj, hs, hrun', hw', (stop_recorded hr hj hs).1 w' hrun'⟩

/-- A sweep 31 seconds after the stop, before the agent has reported: the
stopping job becomes completed. -/
theorem stop_not_recorded : ¬ ∀ (env : Env) (w w' : Plane), Reachable env w →
    (controlPlane env).FreeRun w w' → ∀ (n : ℕ) j j', w.store.db.jobs[n]? = some j →
      j.status = .stopping → w'.store.db.jobs[n]? = some j' →
      j'.status = .stopping ∨ j'.status = .stopped := by
  intro hclaim
  obtain ⟨w, w', hrun, hw, hrun', hw'⟩ := (controlPlane bareEnv).exists_runs_of_replay
    (w := idlePlane 0) (C := fun _ _ => True) stoppedJob (statusAt 0 .stopping)
    (fun _ _ => true) (fun _ _ _ => trivial) (.drift 31000 :: .arrive sweepArrival :: serve 7 3)
    (statusAt 0 .completed) (by decide +kernel)
  obtain ⟨j, hj, -, hs⟩ := mem_of_statusAt hw
  obtain ⟨j', hj', -, hs'⟩ := mem_of_statusAt hw'
  have hbad := hclaim bareEnv w w' ⟨0, hrun⟩ hrun' 0 j j' hj hs hj'
  simp [hs'] at hbad

end R2Bench
