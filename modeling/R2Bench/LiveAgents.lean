import R2Bench.Lifecycle

/-!
# Live agents of a closed job

A job is closed as completed or stopped where none of its spawns is running: the
sweep does both in one statement, the completion handler counts first. The one
thing that can break this is a poll that inserts its row too late, after the
close or between the count and the close.
-/
namespace R2Bench
open Interleaving Tables

/-- `COMPLETED` or `STOPPED`: the job ended without a failure. -/
def JobStatus.isClean : JobStatus → Bool
  | .completed | .stopped => true
  | _ => false

/-- No row is added to a job that ended cleanly, nor to an unfinished job that a
completion handler has counted and is about to close. -/
def ClaimInTime (v : Plane) (a : Action Arrival ℕ) : Prop :=
  ∀ i c, a = .exec i → v.next? i = some (.claimSlot c) → v.store.db.Claimable c →
    ∀ j ∈ v.store.db.jobs, j.jobId = c.jobId → j.status.isClean = false ∧
      (j.status.isTerminal = false → ∀ k outcome, v.next? k ≠ some (.closeJob outcome c.jobId))

/-- A job is closed right after a count of zero, and only then. -/
def ClosePhase : (st : Statement) → (st.Result → Handler) → Prop
  | .countRunning jobId, k => ∀ (n : ℕ) outcome jobId',
      (k n).next? = some (.closeJob outcome jobId') → jobId' = jobId ∧ n = 0
  | _, k => ∀ r outcome jobId', (k r).next? ≠ some (.closeJob outcome jobId')

theorem closePhase_of_next {st : Statement} {k : st.Result → Handler}
    (h : ∀ r outcome jobId', (k r).next? ≠ some (.closeJob outcome jobId')) :
    ClosePhase st k := by
  cases st with
  | countRunning jobId => exact fun n outcome jobId' hn => absurd hn (h n outcome jobId')
  | _ => exact h

theorem completeBenchmarkSpawn_closePhase (report : SpawnCompletionReport) :
    (completeBenchmarkSpawn report).Everywhere ClosePhase := by
  simp only [completeBenchmarkSpawn, await_bind, Prog.pure_eq]
  split_ifs
  · exact ⟨by simp [ClosePhase], fun _ => trivial⟩
  · refine ⟨by simp [ClosePhase], fun status => ⟨by simp [ClosePhase], fun _ => ⟨?_, fun n => ?_⟩⟩⟩
    · intro n outcome jobId' hn
      dsimp only at hn
      split_ifs at hn with hzero
      · simp at hn
      · simp only [Prog.next?_call, Option.some.injEq, Statement.closeJob.injEq] at hn
        exact ⟨hn.2.symm, not_not.mp hzero⟩
    · dsimp only
      split_ifs
      · exact trivial
      · exact ⟨by simp [ClosePhase], fun _ => trivial⟩

theorem handle_closePhase (env : Env) (a : Arrival) : (handle env a).Everywhere ClosePhase := by
  obtain ⟨request, uuid, tie⟩ := a
  cases request with
  | complete report =>
    unfold handle
    dsimp only
    split_ifs
    · exact completeBenchmarkSpawn_closePhase report
    · exact trivial
  | _ =>
    refine (handle_awaits env _).next.mono fun st k h => closePhase_of_next ?_
    intro r outcome jobId' hn
    obtain ⟨report, he, -⟩ := h r _ hn
    cases he

theorem handle_next?_ne_closeJob (env : Env) (a : Arrival) (outcome : JobOutcome)
    (jobId : String) : (handle env a).next? ≠ some (.closeJob outcome jobId) := by
  obtain ⟨request, uuid, tie⟩ := a
  intro hn
  cases request with
  | complete report =>
    simp only [handle, completeBenchmarkSpawn, await_bind, Prog.pure_eq] at hn
    split_ifs at hn <;> cases hn
  | _ =>
    obtain ⟨report, he, -⟩ := (handle_awaits env _).of_next? hn
    cases he

/-- A pending close was pending before, or follows a count of zero. -/
theorem pendingClose_step {env : Env} {v v' : Plane} {a : Action Arrival ℕ}
    (hv : Reachable env v) (h : (controlPlane env).step v a = some v') {k : ℕ}
    {outcome : JobOutcome} {jobId : String} (hk : v'.next? k = some (.closeJob outcome jobId)) :
    (v.next? k = some (.closeJob outcome jobId) ∧ a ≠ .exec k) ∨
    (v'.store = v.store ∧ v.store.db.runningCount jobId = 0) := by
  obtain ⟨u', hu', hnext⟩ := Option.bind_eq_some_iff.mp hk
  rcases (controlPlane env).step_thread_from h hu' with ⟨hu, ha⟩ | ⟨t, -, -, rfl⟩ |
    ⟨t, st, c, rfl, hu, hst, rfl⟩ | hnone
  · exact .inl ⟨by simpa [Pool.next?, hu] using hnext, ha⟩
  · exact absurd hnext (handle_next?_ne_closeJob env t outcome jobId)
  · have hphase := (hv.throughout (fun _ => handle_closePhase env _) k _ _ hu rfl).1
    cases st with
    | countRunning jobId' =>
      obtain ⟨rfl, hzero⟩ := hphase _ outcome jobId hnext
      exact .inr ⟨hst, hzero⟩
    | _ => exact absurd hnext (hphase _ outcome jobId)
  · simp [Thread.next?, hnone] at hnext

/-- A job that ends cleanly at a statement was about to be closed by a completion
handler, or has no running spawn after it. -/
theorem Statement.clean_exec {w : World} (st : Statement) {j : JobRow}
    (hclean : (st.jobStatusAfter w.db j).isClean = true) (hopen : j.status.isClean = false) :
    (j.status.isTerminal = false ∧ ∃ outcome, st = .closeJob outcome j.jobId) ∨
    (st.exec w).2.db.runningCount j.jobId = 0 := by
  have hterm : j.status.isTerminal = false := by
    rw [← Bool.not_eq_true]
    intro ht
    rw [st.jobStatusAfter_terminal w.db ht, hopen] at hclean
    cases hclean
  have hne : st.jobStatusAfter w.db j ≠ j.status := by
    intro he
    rw [he, hopen] at hclean
    cases hclean
  cases st with
  | closeJob outcome jobId =>
    obtain rfl : j.jobId = jobId := by
      by_contra hid
      exact hne (by simp [jobStatusAfter, hid])
    exact .inl ⟨hterm, outcome, rfl⟩
  | finaliseJob outcome jobId =>
    obtain rfl : j.jobId = jobId := by
      by_contra hid
      exact hne (by simp [jobStatusAfter, hid])
    refine .inr (Database.runningCount_eq_zero.mpr fun r' hr' hjob hrun => ?_)
    rcases (Statement.finaliseJob outcome j.jobId).exec_spawn_back hr' with
      ⟨r, -, hseat, hs⟩ | ⟨c, hc, -⟩
    · have hid : r.jobId = j.jobId := (congrArg SpawnSeat.jobId hseat).symm.trans hjob
      have hr := Statement.spawnStatusAfter_running (hs.symm.trans hrun)
      simp [spawnStatusAfter, hid, hr, hrun] at hs
    · cases hc
  | closeQuiet =>
    have hquiet : w.db.isQuiet j = true := by
      by_contra hq
      exact hne (by simp [jobStatusAfter, hq])
    simp only [Database.isQuiet, decide_eq_true_eq] at hquiet
    exact .inr (runningCount_exec .closeQuiet (by simp) hquiet.2)
  | markRunning jobId | requestStop now jobId | failSpawn spawnId jobId | failAbandoned before =>
    simp only [jobStatusAfter] at hclean
    split_ifs at hclean
    · simp [JobStatus.isClean] at hclean
    · exact absurd hclean (by simp [hopen])
  | _ => exact absurd rfl hne

/-- Jobs that ended cleanly, and jobs about to be closed, have no running spawn. -/
structure Quiet (v : Plane) : Prop where
  closed : ∀ j ∈ v.store.db.jobs, j.status.isClean = true → v.store.db.runningCount j.jobId = 0
  counted : ∀ (k : ℕ) outcome jobId, v.next? k = some (.closeJob outcome jobId) →
    ∀ j ∈ v.store.db.jobs, j.jobId = jobId → j.status.isTerminal = false →
      v.store.db.runningCount jobId = 0

/-- A job id that no job has yet has no spawns either. -/
theorem WorldInv.runningCount_new {env : Env} {w : World} (h : WorldInv env w) {jobId : String}
    (hnew : ∀ j ∈ w.db.jobs, j.jobId ≠ jobId) : w.db.runningCount jobId = 0 := by
  apply Database.runningCount_eq_zero.mpr
  intro r hr hjob _
  obtain ⟨t, ht, hid⟩ := h.registry.owned _ (seat_mem hr)
  obtain ⟨j, hj, rfl⟩ := List.mem_map.mp ht
  exact hnew j hj (hid.trans hjob)

/-- One statement keeps `closed`. -/
theorem quiet_exec_closed {v v' : Plane} {i : ℕ} {st : Statement}
    (hnext : v.next? i = some st)
    (hstore : v'.store = (st.exec v.store).2) (htime : ClaimInTime v (.exec i)) (hq : Quiet v)
    {j' : JobRow} (hj' : j' ∈ v'.store.db.jobs) (hclean : j'.status.isClean = true) :
    v'.store.db.runningCount j'.jobId = 0 := by
  rw [hstore] at hj' ⊢
  rcases st.exec_job_back hj' with ⟨j, hj, hid, hs⟩ | ⟨terms, stopAt, -, -, rfl⟩
  · rw [hid]
    rw [hs] at hclean
    cases hopen : j.status.isClean with
    | true =>
      refine st.runningCount_exec (fun c hc hclaim hjob => ?_) (hq.closed j hj hopen)
      have hlate := (htime i c rfl (hc ▸ hnext) hclaim j hj hjob.symm).1
      rw [hopen] at hlate
      cases hlate
    | false =>
      rcases st.clean_exec hclean hopen with ⟨hterm, outcome, rfl⟩ | hzero
      · exact Statement.runningCount_exec _ (by simp)
          (hq.counted i outcome j.jobId hnext j hj rfl hterm)
      · exact hzero
  · cases hclean

/-- One statement keeps `counted`. -/
theorem quiet_exec_counted {env : Env} {v v' : Plane} {i : ℕ} {st : Statement}
    (hv : Reachable env v) (h : (controlPlane env).step v (.exec i) = some v')
    (hnext : v.next? i = some st) (hstore : v'.store = (st.exec v.store).2)
    (htime : ClaimInTime v (.exec i)) (hq : Quiet v) {k : ℕ} {outcome : JobOutcome}
    {jobId : String} (hk : v'.next? k = some (.closeJob outcome jobId)) {j' : JobRow}
    (hj' : j' ∈ v'.store.db.jobs) (hid' : j'.jobId = jobId) (hterm : j'.status.isTerminal = false) :
    v'.store.db.runningCount jobId = 0 := by
  rcases pendingClose_step hv h hk with ⟨hpend, -⟩ | ⟨hsame, hzero⟩
  · rw [hstore] at hj' ⊢
    rcases st.exec_job_back hj' with ⟨j, hj, hid, hs⟩ | ⟨terms, stopAt, rfl, hnew, rfl⟩
    · have hopen : j.status.isTerminal = false := by
        rw [← Bool.not_eq_true]
        intro ht
        rw [hs, st.jobStatusAfter_terminal _ ht, ht] at hterm
        cases hterm
      have hjid : j.jobId = jobId := hid.symm.trans hid'
      refine st.runningCount_exec (fun c hc hclaim hjob => ?_)
        (hq.counted k outcome jobId hpend j hj hjid hopen)
      exact (htime i c rfl (hc ▸ hnext) hclaim j hj (hjid.trans hjob.symm)).2 hopen k outcome
        (hjob ▸ hpend)
    · subst hid'
      exact Statement.runningCount_exec _ (by simp) (hv.inv.runningCount_new hnew)
  · rw [hsame]
    exact hzero

theorem quiet_step {env : Env} {v v' : Plane} {a : Action Arrival ℕ} (hv : Reachable env v)
    (h : (controlPlane env).step v a = some v') (htime : ClaimInTime v a) (hq : Quiet v) :
    Quiet v' := by
  have hidle : v'.store.db = v.store.db → (∀ i, a ≠ .exec i) → Quiet v' := by
    intro he ha
    refine ⟨by rw [he]; exact hq.closed, fun k outcome jobId hk => ?_⟩
    rcases pendingClose_step hv h hk with ⟨hpend, -⟩ | ⟨-, hzero⟩
    · rw [he]
      exact hq.counted k outcome jobId hpend
    · rw [he]
      exact fun _ _ _ _ => hzero
  rcases (controlPlane env).step_store h with ⟨ha, he⟩ | ⟨i, st, rfl, hnext, he⟩ | ⟨d, rfl, he⟩
  · exact hidle (by rw [he]) ha
  · exact ⟨fun j' hj' hclean => quiet_exec_closed hnext he htime hq hj' hclean,
      fun k outcome jobId hk j' hj' hid hterm =>
        quiet_exec_counted hv h hnext he htime hq hk hj' hid hterm⟩
  · exact hidle (by rw [he]; rfl) (by simp)

/-- Along every run in which rows are claimed in time, a completed or stopped job
has no running spawn. -/
theorem no_live_agents {env : Env} {clock : ℤ} {w : Plane}
    (hrun : (controlPlane env).Run ClaimInTime (idlePlane clock) w) :
    ∀ j ∈ w.store.db.jobs, j.status = .completed ∨ j.status = .stopped →
      ∀ r ∈ w.store.db.spawns, r.jobId = j.jobId → r.status ≠ .running := by
  have hquiet : Quiet w := by
    refine System.Run.invariant _ hrun ⟨?_, ?_⟩ fun v a v' hv htime h hq =>
      quiet_step ⟨clock, hv.free⟩ h htime hq
    · simp [idlePlane, Database.empty]
    · simp [Pool.next?, idlePlane]
  intro j hj hstatus r hr hjob
  have hclean : j.status.isClean = true := by rcases hstatus with hs | hs <;> rw [hs] <;> rfl
  exact Database.runningCount_eq_zero.mp (hquiet.closed j hj hclean) r hr hjob

/-- An executable form of `ClaimInTime`: every job is unfinished and no thread is
about to close one. -/
def claimGuard (v : Plane) : Action Arrival ℕ → Bool
  | .exec i =>
    match v.next? i with
    | some (.claimSlot _) =>
      (v.store.db.jobs.all fun j => !j.status.isTerminal) &&
        v.threads.all fun u => match u.next? with
          | some (.closeJob _ _) => false
          | _ => true
    | _ => true
  | _ => true

theorem claimInTime_of_guard (v : Plane) (a : Action Arrival ℕ) (h : claimGuard v a = true) :
    ClaimInTime v a := by
  rintro i c rfl hnext - j hj -
  simp only [claimGuard, hnext, Bool.and_eq_true, List.all_eq_true] at h
  refine ⟨?_, fun _ k outcome hk => ?_⟩
  · have hopen := h.1 j hj
    cases hs : j.status <;> simp_all [JobStatus.isTerminal, JobStatus.isClean]
  · obtain ⟨u, hu, hclose⟩ := Option.bind_eq_some_iff.mp hk
    simpa [hclose] using h.2 u (List.mem_of_getElem? hu)

/-- One agent joins and completes: its job is completed and quiet. -/
theorem no_live_agents_completed : ∃ (w : Plane) (j : JobRow),
    (controlPlane bareEnv).Run ClaimInTime (idlePlane 0) w ∧ j ∈ w.store.db.jobs ∧
    j.status = .completed ∧ w.store.db.spawns.length = 1 ∧
    ∀ r ∈ w.store.db.spawns, r.jobId = j.jobId → r.status ≠ .running := by
  obtain ⟨w, hrun, hw⟩ := (controlPlane bareEnv).exists_run_of_replay (w := idlePlane 0)
    claimGuard claimInTime_of_guard
    (.arrive (startOf 5 2 1 0) :: serve 3 0 ++ .arrive (pollOf "a") :: serve 6 1 ++
      .arrive (completeOf "a") :: serve 4 2)
    (fun w => statusAt 0 .completed w ∧ w.store.db.spawns.length = 1) (by decide +kernel)
  obtain ⟨hstatus, hspawns⟩ := of_decide_eq_true hw
  obtain ⟨j, hj, -, hs⟩ := mem_of_statusAt hstatus
  have hmem := List.mem_of_getElem? hj
  exact ⟨w, j, hrun, hmem, hs, hspawns, no_live_agents hrun j hmem (.inl hs)⟩

/-- A second agent reads the active job, the first one completes and closes it,
and the second one's row is inserted after that. -/
theorem live_agent_of_completed_job : ¬ ∀ (env : Env) (w : Plane), Reachable env w →
    ∀ j ∈ w.store.db.jobs, j.status = .completed ∨ j.status = .stopped →
      ∀ r ∈ w.store.db.spawns, r.jobId = j.jobId → r.status ≠ .running := by
  intro hclaim
  obtain ⟨w, hrun, hw⟩ := (controlPlane bareEnv).exists_run_of_replay (w := idlePlane 0)
    (fun _ _ => true) (C := fun _ _ => True) (fun _ _ _ => trivial)
    (.arrive (startOf 5 2 1 0) :: serve 3 0 ++ .arrive (pollOf "a") :: serve 6 1 ++
      .arrive (pollOf "b") :: serve 3 2 ++ .arrive (completeOf "a") :: serve 4 3 ++ serve 1 2)
    (fun w => w.store.db.jobs.any fun j => j.status = .completed ∧
      w.store.db.spawns.any fun r => r.jobId = j.jobId ∧ r.status = .running)
    (by decide +kernel)
  obtain ⟨j, hj, hprops⟩ := List.any_eq_true.mp hw
  obtain ⟨hs, hlive⟩ := of_decide_eq_true hprops
  obtain ⟨r, hr, hlive⟩ := List.any_eq_true.mp hlive
  obtain ⟨hjob, hrun'⟩ := of_decide_eq_true hlive
  exact hclaim bareEnv w ⟨0, hrun⟩ j hj (.inl hs) r hr hjob hrun'

end R2Bench
