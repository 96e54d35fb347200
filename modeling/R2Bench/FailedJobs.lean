import R2Bench.Participation
import R2Bench.Heartbeat
import R2Bench.Reaper

/-!
# Failed for a cause

A job fails for an agent's error or because nobody came: at some instant it had no
spawn although its window was closed or it had waited for five minutes. A spawn
fails for an agent's error or because it was silent. The sweep decides on values
it read earlier, so each rule is carried back to the instant at which it applied.
-/
namespace R2Bench
open Interleaving Tables

/-- Nobody has joined the job, and it should have been over or started by now. -/
def Unattended (jobId : String) (w : World) : Prop :=
  w.db.spawnsOf jobId = [] ∧ ∃ j ∈ w.db.jobs, j.jobId = jobId ∧
    (Database.isExpired (w.clock - JOB_FINALISE_GRACE_MS) j ∨
      w.db.isAbandoned (w.clock - QUEUED_WITHOUT_AGENTS_TIMEOUT_MS) j)

instance (jobId : String) (w : World) : Decidable (Unattended jobId w) := by
  unfold Unattended; infer_instance

/-- The spawn is running and has not been heard of for 90 seconds. -/
def Silent (spawnId : String) (w : World) : Prop :=
  ∃ r ∈ w.db.spawns, r.spawnId = spawnId ∧
    Database.isStale (w.clock - SPAWN_STALE_AFTER_MS) r

instance (spawnId : String) (w : World) : Decidable (Silent spawnId w) := by
  unfold Silent; infer_instance

/-- The request is an authenticated completion report that carries an error. -/
def ReportsError (env : Env) (report : SpawnCompletionReport) (a : Arrival) : Prop :=
  a.request = .complete report ∧ report.hasError ∧
    verifyInternalRequest env report.toSpawnStatusRequest

/-- No agent reports an error of the job, and somebody attends to it in time. -/
structure JobServed (env : Env) (jobId : String) (v : Plane) (a : Action Arrival ℕ) : Prop where
  attended : ¬ Unattended jobId v.store
  noError : ∀ t report, a = .arrive t → ReportsError env report t → report.jobId ≠ jobId

/-- No error of the spawn is reported, and it is heard of in time. -/
structure SpawnAlive (env : Env) (spawnId : String) (v : Plane) (a : Action Arrival ℕ) :
    Prop where
  heard : ¬ Silent spawnId v.store
  noError : ∀ t report, a = .arrive t → ReportsError env report t → report.spawnId ≠ spawnId

/-! ## Errors that were reported -/

/-- The batch for an error is that of an authenticated report, and a report without
an error fails nothing. -/
def Arrival.Blames (env : Env) (a : Arrival) : Statement → Prop
  | .failSpawn spawnId jobId =>
    ∃ report, ReportsError env report a ∧ report.spawnId = spawnId ∧ report.jobId = jobId
  | .finishSpawn outcome _ => outcome.1 ≠ .failed
  | _ => True

theorem spawnOutcome_ne_failed (stopping : Bool) : (spawnOutcome stopping).1 ≠ .failed := by
  cases stopping
  · exact nofun
  · exact nofun

theorem handle_blames (env : Env) (a : Arrival) : (handle env a).Uses (a.Blames env) := by
  obtain ⟨request, uuid, tie⟩ := a
  cases request with
  | complete report =>
    simp only [handle]
    split_ifs with hverified
    · simp only [completeBenchmarkSpawn, await_bind, Prog.pure_eq]
      by_cases herr : report.hasError = true
      · rw [if_pos herr]
        exact ⟨⟨report, ⟨rfl, herr, hverified⟩, rfl, rfl⟩, fun _ => trivial⟩
      · rw [if_neg herr]
        refine ⟨trivial, fun status => ⟨spawnOutcome_ne_failed _, fun _ => ⟨trivial, ?_⟩⟩⟩
        intro active
        dsimp only
        split_ifs
        · exact trivial
        · exact ⟨trivial, fun _ => trivial⟩
    · exact trivial
  | _ =>
    apply (handle_awaits env _).mono
    intro st k h
    cases st with
    | failSpawn spawnId jobId | finishSpawn outcome spawnId =>
      obtain ⟨report, hreq, -⟩ := h
      cases hreq
    | _ => trivial

theorem Reachable.blames {env : Env} {w : Plane} (hw : Reachable env w) {i : ℕ} {st : Statement}
    (h : w.next? i = some st) :
    ∃ u p, w.threads[i]? = some u ∧ u.rest = some p ∧ u.request.Blames env st := by
  obtain ⟨u, hu, hnext⟩ := Option.bind_eq_some_iff.mp h
  obtain ⟨k, hk⟩ := Thread.next?_eq_some hnext
  exact ⟨u, _, hu, hk, (hw.throughout (handle_blames env) i u _ hu hk).1⟩

/-- When nobody reports an error that `P` describes, no such batch is ever pending. -/
theorem reportsError_of_failSpawn {env : Env} {clock : ℤ} {w : Plane}
    {C : Plane → Action Arrival ℕ → Prop} {P : SpawnCompletionReport → Prop}
    (hrun : (controlPlane env).Run C (idlePlane clock) w)
    (hC : ∀ v t, C v (.arrive t) → ∀ report, ReportsError env report t → ¬ P report) {i : ℕ}
    {spawnId jobId : String} (h : w.next? i = some (.failSpawn spawnId jobId)) :
    ∃ report : SpawnCompletionReport, ¬ P report ∧ report.spawnId = spawnId ∧
      report.jobId = jobId := by
  obtain ⟨u, p, hu, hp, report, hreport, hspawn, hjob⟩ :=
    Reachable.blames ⟨clock, hrun.free⟩ h
  have hnone := (controlPlane env).requests_of_run hrun hC (by simp [idlePlane]) i u p hu hp
  exact ⟨report, hnone report hreport, hspawn, hjob⟩

/-! ## Spawns -/

/-- The statements that can give a spawn the status `FAILED`. -/
theorem Statement.spawnStatusAfter_failed {st : Statement} {r : SpawnRow}
    (h : st.spawnStatusAfter r = .failed) : r.status = .failed ∨
    (∃ jobId, st = .failSpawn r.spawnId jobId) ∨
    (∃ outcome, st = .finishSpawn outcome r.spawnId ∧ outcome.1 = .failed) ∨
    ∃ before, st = .failStale before ∧ Database.isStale before r = true := by
  cases st with
  | failSpawn spawnId jobId =>
    simp only [spawnStatusAfter] at h
    split_ifs at h with hc
    · exact .inr (.inl ⟨jobId, by rw [hc]⟩)
    · exact .inl h
  | finishSpawn outcome spawnId =>
    simp only [spawnStatusAfter] at h
    split_ifs at h with hc
    · exact .inr (.inr (.inl ⟨outcome, by rw [hc], h⟩))
    · exact .inl h
  | failStale before =>
    simp only [spawnStatusAfter] at h
    split_ifs at h with hc
    · exact .inr (.inr (.inr ⟨before, rfl, hc⟩))
    · exact .inl h
  | finaliseJob outcome jobId =>
    simp only [spawnStatusAfter] at h
    split_ifs at h
    exact .inl h
  | _ => exact .inl h

theorem isStale_mono {before before' : ℤ} (hle : before ≤ before') {r : SpawnRow}
    (h : Database.isStale before r = true) : Database.isStale before' r = true := by
  simp only [Database.isStale, decide_eq_true_eq] at h ⊢
  obtain ⟨hrun, t, ht, hlt⟩ := h
  exact ⟨hrun, t, ht, by omega⟩

/-- One step: a spawn is failed by a report of its error or when it is silent. -/
theorem spawn_failed_step {env : Env} {v v' : Plane} {a : Action Arrival ℕ}
    (hv : Reachable env v) (h : (controlPlane env).step v a = some v') {r' : SpawnRow}
    (hr' : r' ∈ v'.store.db.spawns) (hfailed : r'.status = .failed) :
    (∃ r ∈ v.store.db.spawns, r.spawnId = r'.spawnId ∧ r.status = .failed) ∨
    (∃ i jobId, v.next? i = some (.failSpawn r'.spawnId jobId)) ∨ Silent r'.spawnId v.store := by
  rcases (controlPlane env).step_store h with ⟨-, he⟩ | ⟨i, st, rfl, hnext, he⟩ | ⟨d, -, he⟩
  · exact .inl ⟨r', he ▸ hr', rfl, hfailed⟩
  · have hmem : r' ∈ (st.exec v.store).2.db.spawns := he ▸ hr'
    rcases st.exec_spawn_back hmem with ⟨r, hr, hseat, hs⟩ | ⟨c, -, -, rfl⟩
    · have hid : r'.spawnId = r.spawnId := congrArg SpawnSeat.spawnId hseat
      rcases Statement.spawnStatusAfter_failed (hs.symm.trans hfailed) with hold |
        ⟨jobId, rfl⟩ | ⟨outcome, rfl, ho⟩ | ⟨before, rfl, hstale⟩
      · exact .inl ⟨r, hr, hid.symm, hold⟩
      · exact .inr (.inl ⟨i, jobId, by rw [hid, hnext]⟩)
      · obtain ⟨_, _, _, _, hblames⟩ := hv.blames hnext
        exact absurd ho hblames
      · exact .inr (.inr ⟨r, hr, hid.symm, isStale_mono (hv.failStale_le hnext) hstale⟩)
    · simp [Database.claimRow] at hfailed
  · rw [he] at hr'
    exact .inl ⟨r', hr', rfl, hfailed⟩

/-! ## Jobs -/

/-- The statements that can give a job the status `FAILED`. -/
theorem Statement.jobStatusAfter_failed {st : Statement} {db : Database} {j : JobRow}
    (h : st.jobStatusAfter db j = .failed) : j.status = .failed ∨
    (∃ spawnId, st = .failSpawn spawnId j.jobId) ∨
    (∃ outcome, st = .closeJob outcome j.jobId ∧ outcome.1 = .failed) ∨
    (∃ outcome, st = .finaliseJob outcome j.jobId ∧ outcome.1 = .failed) ∨
    ∃ before, st = .failAbandoned before ∧ db.isAbandoned before j = true := by
  cases st with
  | failSpawn spawnId jobId =>
    simp only [jobStatusAfter] at h
    split_ifs at h with hc
    · exact .inr (.inl ⟨spawnId, by rw [hc.1]⟩)
    · exact .inl h
  | closeJob outcome jobId =>
    simp only [jobStatusAfter] at h
    split_ifs at h with hc
    · exact .inr (.inr (.inl ⟨outcome, by rw [hc.1], h⟩))
    · exact .inl h
  | finaliseJob outcome jobId =>
    simp only [jobStatusAfter] at h
    split_ifs at h with hc
    · exact .inr (.inr (.inr (.inl ⟨outcome, by rw [hc.1], h⟩)))
    · exact .inl h
  | failAbandoned before =>
    simp only [jobStatusAfter] at h
    split_ifs at h with hc
    · exact .inr (.inr (.inr (.inr ⟨before, rfl, hc⟩)))
    · exact .inl h
  | markRunning jobId | requestStop now jobId | closeQuiet =>
    simp only [jobStatusAfter] at h
    split_ifs at h
    exact .inl h
  | _ => exact .inl h

theorem spawnsOf_of_isAbandoned {before : ℤ} {db : Database} {j : JobRow}
    (h : db.isAbandoned before j = true) : db.spawnsOf j.jobId = [] :=
  List.length_eq_zero_iff.mp (of_decide_eq_true h).2.2

theorem isAbandoned_mono {before before' : ℤ} (hle : before ≤ before') {db : Database}
    {j : JobRow} (h : db.isAbandoned before j = true) : db.isAbandoned before' j = true := by
  simp only [Database.isAbandoned, decide_eq_true_eq] at h ⊢
  exact ⟨h.1, by omega, h.2.2⟩

/-- What the sweep may bind while the job is attended to: it never finalises it as
failed, and its rule for abandoned jobs looks back five minutes from now at the least. -/
def Statement.AttendedPre (jobId : String) : Statement → World → Prop
  | .finaliseJob outcome id, _ => id = jobId → outcome.1 ≠ .failed
  | .failAbandoned before, w => before ≤ w.clock - QUEUED_WITHOUT_AGENTS_TIMEOUT_MS
  | _, _ => True

/-- The others keep the rows and the job is attended to. The latter is given. -/
def attendedContract (env : Env) (jobId : String) : Contract (controlPlane env) where
  Inv w := ¬ Unattended jobId w
  Rely := Evolves
  Pre := Statement.AttendedPre jobId
  Post _ _ _ := True

section
variable {env : Env} {jobId : String}

/-- An expired job that is attended to has been joined. -/
theorem joined_of_selectExpired {w : World} {now : ℤ} (hw : ¬ Unattended jobId w)
    (hnow : now ≤ w.clock)
    (h : jobId ∈ ((Statement.selectExpired (now - JOB_FINALISE_GRACE_MS)).exec w).1) :
    Joined w jobId := by
  obtain ⟨j, hj, rfl⟩ := List.mem_map.mp h
  obtain ⟨hmem, hexpired⟩ := List.mem_filter.mp hj
  by_contra hno
  refine hw ⟨?_, j, hmem, rfl, .inl (isExpired_mono (by omega) hexpired)⟩
  by_contra hne
  exact hno (joined_of_countSpawns (List.length_pos_iff.mpr hne))

/-- The count that decides comes later, and spawns are never deleted. -/
theorem wp_finaliseAttended {β : Type} {Q : β → World → Prop} (finalised : ℕ)
    (expired : List String) (k : ℕ → Prog Statement Statement.Result β) (w : World)
    (hjoined : jobId ∈ expired → Joined w jobId)
    (hk : ∀ n w', Evolves w w' → (attendedContract env jobId).Wp Q (k n) w') :
    (attendedContract env jobId).Wp Q (finaliseExpired finalised expired >>= k) w := by
  induction expired generalizing finalised w with
  | nil => exact hk finalised w (.refl w)
  | cons id expired ih =>
    simp only [finaliseExpired, await_bind]
    intro w₁ _ he₁
    refine ⟨trivial, fun w₂ _ he₂ => ⟨?_, ?_⟩⟩
    · rintro rfl hfailed
      obtain ⟨r, hr, hjob⟩ := (hjoined List.mem_cons_self).evolves he₁
      have hcount : 0 < (w₁.db.spawnsOf id).length :=
        List.length_pos_of_mem (Database.mem_spawnsOf.mpr ⟨hr, hjob⟩)
      simp [controlPlane, Statement.exec, hcount] at hfailed
    · have hev (outcome : JobOutcome) :
          Evolves w (Statement.exec (.finaliseJob outcome id) w₂).2 :=
        (he₁.trans he₂).trans (Statement.exec_evolves _ w₂)
      refine ih _ _ (fun hmem => ?_) fun n w' he => hk n w' ((hev _).trans he)
      exact (hjoined (List.mem_cons_of_mem _ hmem)).evolves (hev _)

/-- The sweep meets the contract: what it selected was joined, and its clock reading
stays behind the clock. -/
theorem wp_reapAttended (a : Arrival) (w : World) :
    (attendedContract env jobId).Holds a reapJobs w := by
  simp only [reapJobs, await_bind]
  intro w₁ _ _
  refine ⟨trivial, fun w₂ _ he₂ => ⟨trivial, fun w₃ hi₃ he₃ => ⟨trivial, ?_⟩⟩⟩
  have hnow : w₁.clock ≤ w₃.clock := by
    have hle := he₂.clock.trans ((Statement.exec_evolves _ w₂).clock.trans he₃.clock)
    exact hle
  refine wp_finaliseAttended 0 _ _ _ (joined_of_selectExpired hi₃ hnow) fun n w he w' _ he' => ?_
  refine ⟨?_, fun _ _ _ => ⟨trivial, fun _ _ _ => trivial⟩⟩
  have hle := hnow.trans (he.clock.trans he'.clock)
  exact sub_le_sub_right hle _

theorem wp_handleAttended (a : Arrival) (w : World) :
    (attendedContract env jobId).Holds a (handle env a) w := by
  obtain ⟨request, uuid, tie⟩ := a
  cases request with
  | sweep => exact wp_reapAttended _ w
  | _ =>
    refine Contract.wp_of_uses (fun st w h => ?_) (fun _ _ => trivial) (handle_awaits env _) w
    cases st with
    | finaliseJob outcome id => cases h.1
    | failAbandoned before => cases h
    | _ => trivial

end

/-- Along a run in which the job is served, a pending statement has what the contract
asks of it. -/
theorem attendedPre_of_run {env : Env} {clock : ℤ} {jobId : String} {w : Plane}
    (hrun : (controlPlane env).Run (JobServed env jobId) (idlePlane clock) w)
    (hw : ¬ Unattended jobId w.store) {i : ℕ} {st : Statement} (h : w.next? i = some st) :
    st.AttendedPre jobId w.store := by
  have hholds := Contract.holds_of_guarded (c := attendedContract env jobId) Evolves.refl
    Evolves.trans hrun (fun v a v' hv hc hs => ⟨hc.attended, ?_⟩) (fun a w => wp_handleAttended a w)
    (by simp [idlePlane])
  · obtain ⟨u, hu, hnext⟩ := Option.bind_eq_some_iff.mp h
    obtain ⟨k, hk⟩ := Thread.next?_eq_some hnext
    exact (hholds i u _ hu hk w.store hw (.refl _)).1
  · exact Reachable.evolves_step ⟨clock, hv.free⟩ hs

/-- One step of a run in which the job is served: only a failed job is failed after it. -/
theorem job_failed_step {env : Env} {clock : ℤ} {jobId : String} {v v' : Plane}
    {a : Action Arrival ℕ} (hrun : (controlPlane env).Run (JobServed env jobId) (idlePlane clock) v)
    (hc : JobServed env jobId v a) (h : (controlPlane env).step v a = some v') {j' : JobRow}
    (hj' : j' ∈ v'.store.db.jobs) (hid' : j'.jobId = jobId) (hfailed : j'.status = .failed) :
    ∃ j ∈ v.store.db.jobs, j.jobId = jobId ∧ j.status = .failed := by
  rcases (controlPlane env).step_store h with ⟨-, he⟩ | ⟨i, st, rfl, hnext, he⟩ | ⟨d, -, he⟩
  · exact ⟨j', he ▸ hj', hid', hfailed⟩
  · have hmem : j' ∈ (st.exec v.store).2.db.jobs := he ▸ hj'
    have hpre := attendedPre_of_run hrun hc.attended hnext
    rcases st.exec_job_back hmem with ⟨j, hj, hid, hs⟩ | ⟨terms, stopAt, -, -, rfl⟩
    · have hjob : j.jobId = jobId := hid.symm.trans hid'
      rcases Statement.jobStatusAfter_failed (hs.symm.trans hfailed) with hold |
        ⟨spawnId, rfl⟩ | ⟨outcome, rfl, ho⟩ | ⟨outcome, rfl, ho⟩ | ⟨before, rfl, habandoned⟩
      · exact ⟨j, hj, hjob, hold⟩
      · obtain ⟨report, hother, -, hsame⟩ :=
          reportsError_of_failSpawn (P := fun report => report.jobId = jobId) hrun
            (fun _ t hserved report => hserved.noError t report rfl) hnext
        exact absurd (hsame.trans hjob) hother
      · obtain ⟨u, -, report, -, -, -, houtcome⟩ := Reachable.awaits ⟨clock, hrun.free⟩ hnext
        rcases houtcome with hstopped | hcompleted
        · simp [ho] at hstopped
        · simp [ho] at hcompleted
      · exact absurd ho (hpre hjob)
      · have hnone := isAbandoned_mono hpre habandoned
        refine absurd ?_ hc.attended
        exact ⟨hjob ▸ spawnsOf_of_isAbandoned habandoned, j, hj, hjob, .inr hnone⟩
    · simp [Database.newJob] at hfailed
  · rw [he] at hj'
    exact ⟨j', hj', hid', hfailed⟩

/-- A job that is never left unattended, and of which no error is reported, does not
fail. A spawn that is never silent, and of which no error is reported, does not either. -/
theorem failed_for_cause (env : Env) (clock : ℤ) (w : Plane) (jobId spawnId : String) :
    ((controlPlane env).Run (JobServed env jobId) (idlePlane clock) w →
      ∀ j ∈ w.store.db.jobs, j.jobId = jobId → j.status ≠ .failed) ∧
    ((controlPlane env).Run (SpawnAlive env spawnId) (idlePlane clock) w →
      ∀ r ∈ w.store.db.spawns, r.spawnId = spawnId → r.status ≠ .failed) := by
  constructor
  · intro hrun
    refine System.Run.invariant _ hrun
      (I := fun v => ∀ j ∈ v.store.db.jobs, j.jobId = jobId → j.status ≠ .failed)
      (by simp [idlePlane, Database.empty]) ?_
    intro v a v' hv hc hs hI j' hj' hid hfailed
    obtain ⟨j, hj, hjob, hold⟩ := job_failed_step hv hc hs hj' hid hfailed
    exact hI j hj hjob hold
  · intro hrun
    refine System.Run.invariant _ hrun
      (I := fun v => ∀ r ∈ v.store.db.spawns, r.spawnId = spawnId → r.status ≠ .failed)
      (by simp [idlePlane, Database.empty]) ?_
    intro v a v' hv hc hs hI r' hr' hid hfailed
    rcases spawn_failed_step ⟨clock, hv.free⟩ hs hr' hfailed with ⟨r, hr, hsame, hold⟩ |
      ⟨i, job, hnext⟩ | hsilent
    · exact hI r hr (hsame.trans hid) hold
    · obtain ⟨report, hother, hsame, -⟩ :=
        reportsError_of_failSpawn (P := fun report => report.spawnId = spawnId) hv
          (fun _ t halive report => halive.noError t report rfl) hnext
      exact hother (hsame.trans hid)
    · exact hc.heard (hid ▸ hsilent)

/-- An executable form of both conditions. -/
def servedGuard (jobId spawnId : String) (v : Plane) (a : Action Arrival ℕ) : Bool :=
  !decide (Unattended jobId v.store) && !decide (Silent spawnId v.store) &&
    match a with
    | .arrive ⟨.complete _, _, _⟩ => false
    | _ => true

theorem served_of_guard (env : Env) (jobId spawnId : String) (v : Plane) (a : Action Arrival ℕ)
    (h : servedGuard jobId spawnId v a = true) :
    JobServed env jobId v a ∧ SpawnAlive env spawnId v a := by
  simp only [servedGuard, Bool.and_eq_true, Bool.not_eq_true', decide_eq_false_iff_not] at h
  obtain ⟨⟨hattended, hheard⟩, hquiet⟩ := h
  have hnone : ∀ t report, a = .arrive t → ¬ ReportsError env report t := by
    rintro ⟨request, uuid, tie⟩ report rfl ⟨hreq, -⟩
    subst hreq
    cases hquiet
  exact ⟨⟨hattended, fun t report ha he => absurd he (hnone t report ha)⟩,
    ⟨hheard, fun t report ha he => absurd he (hnone t report ha)⟩⟩

/-- An agent joins after 10 seconds and dies. The sweep at 91 seconds completes the
job, and nothing has failed. -/
theorem failed_for_cause_silent : ∃ w : Plane,
    (∃ j ∈ w.store.db.jobs, j.jobId = sampleUuid.text ∧ j.status = .completed) ∧
    (∀ j ∈ w.store.db.jobs, j.jobId = sampleUuid.text → j.status ≠ .failed) ∧
    ∀ r ∈ w.store.db.spawns, r.spawnId = spawnIdOf sampleUuid.text "a" → r.status ≠ .failed := by
  let spawnId := spawnIdOf sampleUuid.text "a"
  obtain ⟨w, hrun, hw⟩ := (controlPlane bareEnv).exists_run_of_replay (w := idlePlane 0)
    (servedGuard sampleUuid.text spawnId)
    (served_of_guard bareEnv sampleUuid.text spawnId) (silentJob ++
      .arrive sweepArrival :: serve 7 2)
    (fun w => w.store.db.jobs.any fun j => j.jobId = sampleUuid.text ∧ j.status = .completed)
    (by decide +kernel)
  obtain ⟨j, hj, hs⟩ := List.any_eq_true.mp hw
  have hcause := failed_for_cause bareEnv 0 w sampleUuid.text spawnId
  exact ⟨w, ⟨j, hj, of_decide_eq_true hs⟩, hcause.1 (hrun.mono _ fun _ _ h => h.1),
    hcause.2 (hrun.mono _ fun _ _ h => h.2)⟩

end R2Bench
