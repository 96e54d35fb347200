import R2Bench.Reaper
import R2Bench.Serial

/-!
# Closing before the fleet is complete

A completion handler closes the job when it counts no running spawn. A slot that
nobody has claimed yet has no spawn to count, so the count does not tell a fleet
that has finished from one that is still joining.
-/
namespace R2Bench
open Interleaving Tables

abbrev History := List (Event Arrival ℕ)

/-- The tables and the clock after handlers taken one after another, from empty tables. -/
def after (env : Env) (clock : ℤ) (events : History) : World :=
  (controlPlane env).serial events ⟨Database.empty, clock⟩

theorem after_reachable (env : Env) (clock : ℤ) (events : History) :
    ∃ v, Reachable env v ∧ v.store = after env clock events := by
  obtain ⟨threads, hrun⟩ := (controlPlane env).run_serial events (idlePlane clock)
  exact ⟨_, ⟨clock, hrun⟩, rfl⟩

theorem after_inv (env : Env) (clock : ℤ) (events : History) :
    WorldInv env (after env clock events) := by
  obtain ⟨v, hv, hstore⟩ := after_reachable env clock events
  rw [← hstore]
  exact hv.inv

/-- A completion report without an error that passes the callback check. -/
structure CleanReport (env : Env) (a : Arrival) (report : SpawnCompletionReport) : Prop where
  request : a.request = .complete report
  verified : verifyInternalRequest env report.toSpawnStatusRequest = true
  noError : report.hasError = false

/-- The tables once the handler has ended the spawn of the report. -/
def endReporter (report : SpawnCompletionReport) (w : World) : World :=
  let stopping := isStopping ((w.db.job? report.jobId).map fun j => j.status)
  ((Statement.finishSpawn (spawnOutcome stopping) report.spawnId).exec w).2

/-- The status that the handler then closes the job with. -/
def closingOutcome (report : SpawnCompletionReport) (w : World) : JobOutcome :=
  jobOutcome (isStopping ((w.db.job? report.jobId).map fun j => j.status))

/-- A completion handler that runs alone. -/
theorem CleanReport.serve {env : Env} {a : Arrival} {report : SpawnCompletionReport}
    (h : CleanReport env a report) (w : World) : ((controlPlane env).serve a w).2 =
      if (endReporter report w).db.runningCount report.jobId ≠ 0 then endReporter report w
      else ((Statement.closeJob (closingOutcome report w) report.jobId).exec
        (endReporter report w)).2 := by
  have hne : ¬ report.hasError = true := by simp [h.noError]
  simp only [System.serve, controlPlane, handle, h.request, if_pos h.verified,
    completeBenchmarkSpawn, if_neg hne, await_bind, Prog.run_call]
  show (Prog.run Statement.exec (if (endReporter report w).db.runningCount report.jobId ≠ 0 then _
    else _) (endReporter report w)).2 = _
  split_ifs
  · rfl
  · rfl

/-- Any other completion report completes no job. -/
theorem serve_unclean {env : Env} {a : Arrival} {report : SpawnCompletionReport}
    (hreq : a.request = .complete report) (h : ¬ CleanReport env a report) (w : World) :
    ((controlPlane env).serve a w).2 = w ∨ ((controlPlane env).serve a w).2 =
      ((Statement.failSpawn report.spawnId report.jobId).exec w).2 := by
  simp only [System.serve, controlPlane, handle, hreq]
  split_ifs with hverified
  · have herror : report.hasError = true := by
      by_contra hno
      exact h ⟨hreq, hverified, by simpa using hno⟩
    right
    simp only [completeBenchmarkSpawn, if_pos herror, await_bind, Prog.run_call]
    rfl
  · exact .inl rfl

section
variable {report : SpawnCompletionReport} {w : World}

@[simp] theorem endReporter_jobs : (endReporter report w).db.jobs = w.db.jobs := rfl

theorem endReporter_length (jobId : String) :
    ((endReporter report w).db.spawnsOf jobId).length = (w.db.spawnsOf jobId).length :=
  (SameRows.setSpawnStatus _ _ w.db).length_spawnsOf jobId

/-- The handler counts no running spawn exactly when nobody but the reporter was
running: slots not claimed yet play no part. -/
theorem endReporter_quiet (jobId : String) : (endReporter report w).db.runningCount jobId = 0 ↔
    ∀ r ∈ w.db.spawnsOf jobId, r.status = .running → r.spawnId = report.spawnId := by
  rw [Database.runningCount_eq_zero]
  constructor
  · intro hquiet r hr hrun
    obtain ⟨hmem, hjob⟩ := Database.mem_spawnsOf.mp hr
    by_contra hother
    refine hquiet r (mem_updateWhere.mpr ⟨r, hmem, ?_⟩) hjob hrun
    simp [hother]
  · intro honly r' hr' hjob
    obtain ⟨r, hr, rfl⟩ := mem_updateWhere.mp hr'
    split_ifs at hjob ⊢ with hrep
    · exact (spawnOutcome _).2
    · intro hrun
      exact hrep (by simpa using honly r (Database.mem_spawnsOf.mpr ⟨hr, hjob⟩) hrun)

end

/-- A job that is open before its `STOP_AT` when a clean report for it is handled: all
its slots are claimed, or another of its spawns is running. -/
def FleetPresent (env : Env) (w : World) (a : Arrival) : Prop :=
  ∀ report, CleanReport env a report → ∀ j ∈ w.db.jobs, j.jobId = report.jobId →
    j.status.isActive = true → w.clock < j.stopAt →
    (w.db.spawnsOf j.jobId).length = j.agents ∨
      ∃ r ∈ w.db.spawnsOf j.jobId, r.status = .running ∧ r.spawnId ≠ report.spawnId

/-- A completion handler that makes a job `COMPLETED` before its `STOP_AT` leaves it
with all its spawns there and ended. -/
def ClosesWhole (env : Env) (w : World) (a : Arrival) : Prop :=
  (∃ report, a.request = .complete report) → ∀ (i : ℕ) j j', w.db.jobs[i]? = some j →
    ((controlPlane env).serve a w).2.db.jobs[i]? = some j' → j.status ≠ .completed →
    j'.status = .completed → w.clock < j.stopAt →
    (((controlPlane env).serve a w).2.db.spawnsOf j.jobId).length = j.agents ∧
    ∀ r ∈ ((controlPlane env).serve a w).2.db.spawnsOf j.jobId, r.status ≠ .running

theorem WorldInv.job?_eq {env : Env} {w : World} (h : WorldInv env w) {j : JobRow}
    (hj : j ∈ w.db.jobs) : w.db.job? j.jobId = some j := by
  cases hfind : w.db.job? j.jobId with
  | none =>
    have hnone := List.find?_eq_none.mp hfind j hj
    simp at hnone
  | some y =>
    have hid : y.jobId = j.jobId := by simpa using List.find?_some hfind
    rw [h.job_eq (List.mem_of_find?_eq_some hfind) hj hid]

section
variable {env : Env} {w : World} {a : Arrival}

/-- The outcome is `COMPLETED` for a job that is active, and for no stopping job. -/
theorem closingOutcome_eq (hw : WorldInv env w) {report : SpawnCompletionReport} {j : JobRow}
    (hj : j ∈ w.db.jobs) (hid : j.jobId = report.jobId) :
    (closingOutcome report w).1 = if j.status = .stopping ∨ j.status = .stopped then .stopped
      else .completed := by
  rw [closingOutcome, ← hid, hw.job?_eq hj]
  cases hs : j.status <;> simp [isStopping, jobOutcome, hs]

/-- The row of a job after a handler that counted no running spawn. -/
theorem CleanReport.closed_row {report : SpawnCompletionReport} (h : CleanReport env a report)
    (hquiet : (endReporter report w).db.runningCount report.jobId = 0) {i : ℕ} {j : JobRow}
    (hj : w.db.jobs[i]? = some j) :
    ∃ j', ((controlPlane env).serve a w).2.db.jobs[i]? = some j' ∧ j'.status =
      if j.jobId = report.jobId ∧ !j.status.isTerminal then (closingOutcome report w).1
      else j.status := by
  obtain ⟨j', hj', -, hs⟩ := (Statement.closeJob (closingOutcome report w) report.jobId).exec_job
    (w := endReporter report w) hj
  refine ⟨j', ?_, hs⟩
  rw [h.serve, if_neg (by simp [hquiet]), hj']

theorem CleanReport.closed_spawns {report : SpawnCompletionReport} (h : CleanReport env a report)
    (w : World) :
    ((controlPlane env).serve a w).2.db.spawns = (endReporter report w).db.spawns := by
  rw [h.serve]
  split_ifs <;> rfl

theorem CleanReport.length_spawnsOf {report : SpawnCompletionReport} (h : CleanReport env a report)
    (w : World) (jobId : String) : (((controlPlane env).serve a w).2.db.spawnsOf jobId).length =
      (w.db.spawnsOf jobId).length := by
  rw [Database.spawnsOf, h.closed_spawns]
  exact endReporter_length jobId

/-- A job that a clean report makes `COMPLETED` was active, and nobody but the
reporter was running. -/
theorem CleanReport.completed {report : SpawnCompletionReport} (h : CleanReport env a report)
    (hw : WorldInv env w) {i : ℕ} {j j' : JobRow} (hj : w.db.jobs[i]? = some j)
    (hj' : ((controlPlane env).serve a w).2.db.jobs[i]? = some j') (hopen : j.status ≠ .completed)
    (hdone : j'.status = .completed) : j.jobId = report.jobId ∧ j.status.isActive = true ∧
      (endReporter report w).db.runningCount report.jobId = 0 := by
  have hquiet : (endReporter report w).db.runningCount report.jobId = 0 := by
    by_contra hbusy
    rw [h.serve, if_pos hbusy, endReporter_jobs, hj] at hj'
    obtain rfl := Option.some.inj hj'
    exact hopen hdone
  obtain ⟨y, hy, hs⟩ := h.closed_row hquiet hj
  obtain rfl : y = j' := Option.some.inj (hy.symm.trans hj')
  rw [hdone] at hs
  by_cases hclose : j.jobId = report.jobId ∧ (!j.status.isTerminal) = true
  · rw [if_pos hclose, closingOutcome_eq hw (List.mem_of_getElem? hj) hclose.1] at hs
    have hnot : ¬ (j.status = .stopping ∨ j.status = .stopped) := by
      intro hstop
      rw [if_pos hstop] at hs
      cases hs
    have hactive : j.status.isActive = true := by
      have hterm := hclose.2
      cases hstatus : j.status <;> simp [hstatus, JobStatus.isActive, JobStatus.isTerminal] at *
    exact ⟨hclose.1, hactive, hquiet⟩
  · rw [if_neg hclose] at hs
    exact absurd hs.symm hopen

/-- A failed or refused report completes nothing. -/
theorem not_completed_of_unclean {report : SpawnCompletionReport}
    (hreq : a.request = .complete report) (h : ¬ CleanReport env a report) {i : ℕ} {j j' : JobRow}
    (hj : w.db.jobs[i]? = some j)
    (hj' : ((controlPlane env).serve a w).2.db.jobs[i]? = some j') (hopen : j.status ≠ .completed) :
    j'.status ≠ .completed := by
  rcases serve_unclean hreq h w with hsame | hfail
  · rw [hsame, hj] at hj'
    obtain rfl := Option.some.inj hj'
    exact hopen
  · obtain ⟨y, hy, -, hs⟩ := (Statement.failSpawn report.spawnId report.jobId).exec_job hj
    rw [hfail, hy] at hj'
    obtain rfl := Option.some.inj hj'
    rw [hs]
    simp only [Statement.jobStatusAfter]
    split_ifs
    · simp
    · exact hopen

/-- One report, exactly: what it completes is complete if and only if the fleet was
present when it was handled. -/
theorem closesWhole_iff (hw : WorldInv env w) (a : Arrival) :
    FleetPresent env w a ↔ ClosesWhole env w a := by
  constructor
  · rintro hfleet ⟨report, hreq⟩ i j j' hj hj' hopen hdone hearly
    by_cases hclean : CleanReport env a report
    · obtain ⟨hid, hactive, hquiet⟩ := hclean.completed hw hj hj' hopen hdone
      have hended : ∀ r ∈ ((controlPlane env).serve a w).2.db.spawnsOf j.jobId,
          r.status ≠ .running := by
        intro r hr
        obtain ⟨hmem, hjob⟩ := Database.mem_spawnsOf.mp hr
        rw [hclean.closed_spawns] at hmem
        exact Database.runningCount_eq_zero.mp hquiet r hmem (hjob.trans hid)
      refine ⟨(hclean.length_spawnsOf w j.jobId).trans ?_, hended⟩
      rcases hfleet report hclean j (List.mem_of_getElem? hj) hid hactive hearly with
        hfull | ⟨r, hr, hrun, hother⟩
      · exact hfull
      · exact absurd ((endReporter_quiet _).mp hquiet r (hid ▸ hr) hrun) hother
    · exact absurd hdone (not_completed_of_unclean hreq hclean hj hj' hopen)
  · intro hwhole report hclean j hmem hid hactive hearly
    by_contra hmissing
    push Not at hmissing
    obtain ⟨hshort, halone⟩ := hmissing
    have hquiet : (endReporter report w).db.runningCount report.jobId = 0 := by
      rw [← hid]
      exact (endReporter_quiet _).mpr halone
    obtain ⟨i, hj⟩ := List.mem_iff_getElem?.mp hmem
    obtain ⟨j', hj', hs⟩ := hclean.closed_row hquiet hj
    have hcompleted : j'.status = .completed := by
      rw [hs, closingOutcome_eq hw hmem hid]
      cases hstatus : j.status <;> simp_all [JobStatus.isTerminal, JobStatus.isActive]
    have hopen : j.status ≠ .completed := by
      intro he
      simp [he, JobStatus.isActive] at hactive
    have hfull := (hwhole ⟨report, hclean.request⟩ i j j' hj hj' hopen hcompleted hearly).1
    exact hshort ((hclean.length_spawnsOf w j.jobId).symm.trans hfull)

end

/-- In every history of handlers taken one after another, the jobs that completion
reports close before their `STOP_AT` are closed with their whole fleet ended, if and
only if every clean report finds the fleet present. -/
theorem closed_with_whole_fleet (env : Env) (clock : ℤ) (events : History) :
    (∀ before a, before ++ [.serve a] <+: events → FleetPresent env (after env clock before) a) ↔
    ∀ before a, before ++ [.serve a] <+: events → ClosesWhole env (after env clock before) a := by
  constructor
  · intro h before a hp
    exact (closesWhole_iff (after_inv env clock before) a).mp (h before a hp)
  · intro h before a hp
    exact (closesWhole_iff (after_inv env clock before) a).mpr (h before a hp)

/-! ## An early leaver -/

/-- Of two agents one joins during the start delay and is told to stop before the
other has polled: it reports its completion. -/
def earlyLeaver : History :=
  [.serve (startOf 5 2 1 30), .serve (pollOf "a"), .drift 5000]

/-- An executable check: the sample job goes from active to `COMPLETED` before its
`STOP_AT` with one spawn of two. -/
def leavesEarly (w w' : World) : Bool :=
  (w.db.jobs[0]?.any fun j => j.status = .running ∧ w.clock < j.stopAt ∧ j.agents = 2 ∧
    (w'.db.spawnsOf j.jobId).length = 1) && w'.db.jobs[0]?.any fun j => j.status = .completed

theorem closed_without_whole_fleet : ¬ ∀ (env : Env) (clock : ℤ) (events : History) before a,
    before ++ [.serve a] <+: events → ClosesWhole env (after env clock before) a := by
  intro hclaim
  have hwhole := hclaim bareEnv 0 (earlyLeaver ++ [.serve (completeOf "a")]) earlyLeaver
    (completeOf "a") (List.prefix_refl _)
  have hrun : leavesEarly (after bareEnv 0 earlyLeaver)
      ((controlPlane bareEnv).serve (completeOf "a") (after bareEnv 0 earlyLeaver)).2 = true := by
    decide +kernel
  obtain ⟨hbefore, hafter⟩ := (Bool.and_eq_true _ _).mp hrun
  obtain ⟨j, hj, hrow⟩ := (Option.any_eq_true _ _).mp hbefore
  obtain ⟨j', hj', hdone⟩ := (Option.any_eq_true _ _).mp hafter
  obtain ⟨hstatus, hearly, hagents, hone⟩ := of_decide_eq_true hrow
  have hfull := (hwhole ⟨_, rfl⟩ 0 j j' hj hj' (by simp [hstatus]) (of_decide_eq_true hdone)
    hearly).1
  omega

end R2Bench
