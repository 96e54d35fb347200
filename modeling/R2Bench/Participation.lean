import R2Bench.RunResponses

/-!
# Completed means somebody ran

A job becomes `RUNNING` after an agent was seated, and `COMPLETED` after a sweep
has counted a spawn or for a report of a seat that was handed out. Spawn rows are
never deleted, so a count that is out of date still shows that somebody joined.
-/
namespace R2Bench
open Interleaving Tables

/-- The job has a row in `JOB_SPAWNS`. -/
def Joined (w : World) (jobId : String) : Prop := ∃ r ∈ w.db.spawns, r.jobId = jobId

theorem Joined.evolves {w w' : World} {jobId : String} (h : Joined w jobId)
    (he : Evolves w w') : Joined w' jobId := by
  obtain ⟨r, hr, hjob⟩ := h
  obtain ⟨r', hr', hs⟩ := he.spawns.mem hr
  exact ⟨r', hr', hs.jobId.trans hjob⟩

theorem joined_of_countSpawns {w : World} {jobId : String}
    (h : 0 < (w.db.spawnsOf jobId).length) : Joined w jobId := by
  obtain ⟨r, hr⟩ := List.exists_mem_of_length_pos h
  exact ⟨r, Database.mem_spawnsOf.mp hr⟩

/-- Completion reports carry only pairs of ids that a run response returned. -/
def HonestReports (v : Plane) (a : Action Arrival ℕ) : Prop :=
  ∀ t report, a = .arrive t → t.request = .complete report →
    ∃ i body r, Handed v i body r ∧ report.jobId = r.jobId ∧ report.spawnId = r.spawnId

/-! ## Before `RUNNING` -/

/-- Marking a job running is the last statement before its run response. -/
def MarkPhase : (st : Statement) → (st.Result → Handler) → Prop
  | .markRunning jobId, k => ∃ r, k () = .done (.poll (.run r)) ∧ r.jobId = jobId
  | _, _ => True

theorem grantSlot_markPhase (job : JobRow) (agentId : String) (slot : Option ℕ) :
    (grantSlot job agentId slot).Everywhere MarkPhase := by
  simp only [grantSlot, await_bind, Prog.pure_eq]
  split_ifs
  · exact ⟨⟨_, rfl, rfl⟩, fun _ => trivial⟩
  · exact trivial

theorem agentPoll_markPhase (env : Env) (tie : ℕ) (body : AgentPollRequest) :
    (agentPoll env tie body).Everywhere MarkPhase := by
  simp only [agentPoll, claimAndGrant, await_bind, Prog.pure_eq]
  split_ifs
  · exact trivial
  · exact trivial
  refine ⟨trivial, fun job? => ?_⟩
  cases job? with
  | none => exact trivial
  | some job =>
    refine ⟨trivial, fun now => ?_⟩
    dsimp only
    split_ifs
    · exact trivial
    refine ⟨trivial, fun existing => ?_⟩
    cases existing with
    | none =>
      refine ⟨trivial, fun claimed => ?_⟩
      cases claimed with
      | error _ => exact trivial
      | ok _ =>
        refine ⟨trivial, fun claimed => ?_⟩
        cases claimed with
        | none => exact trivial
        | some slot => exact grantSlot_markPhase job _ slot
    | some row =>
      dsimp only
      split_ifs
      · exact trivial
      · exact ⟨trivial, fun _ => grantSlot_markPhase job _ _⟩

theorem handle_markPhase (env : Env) (a : Arrival) : (handle env a).Everywhere MarkPhase := by
  obtain ⟨request, uuid, tie⟩ := a
  cases request with
  | poll body => exact agentPoll_markPhase env tie body
  | _ =>
    apply (handle_awaits env _).mono
    intro st k h
    cases st with
    | markRunning jobId => cases h
    | _ => trivial

/-- The response that follows names a row, and marking does not touch the rows. -/
theorem Reachable.joined_of_markRunning {env : Env} {w : Plane} (hw : Reachable env w) {i : ℕ}
    {jobId : String} (h : w.next? i = some (.markRunning jobId)) : Joined w.store jobId := by
  obtain ⟨u, hu, hnext⟩ := Option.bind_eq_some_iff.mp h
  obtain ⟨k, hk⟩ := Thread.next?_eq_some hnext
  obtain ⟨r, hdone, hid⟩ := (hw.throughout (fun _ => handle_markPhase env _) i u _ hu hk).1
  have hwp := (hw.satisfied.2 i u _ hu hk w.store hw.inv (Evolves.refl _)).2
  rw [controlPlane_exec, hdone] at hwp
  have hpre : Statement.Pre env (.markRunning jobId) w.store := trivial
  obtain ⟨body, job, slot, -, hs, rfl⟩ := hwp _ (hw.inv.exec hpre) (Evolves.refl _)
  obtain ⟨row, hrow, hjob, -⟩ := hs.row
  exact ⟨row, hrow, hjob.trans hid⟩

/-! ## Before `COMPLETED` -/

/-- The sweep finalises a job as completed only once somebody has joined it. -/
def Statement.CountedPre : Statement → World → Prop
  | .finaliseJob outcome jobId, w => outcome.1 = .completed → Joined w jobId
  | _, _ => True

def countedContract (env : Env) : Contract (controlPlane env) where
  Inv _ := True
  Rely := Evolves
  Pre := Statement.CountedPre
  Post _ _ _ := True

theorem wp_finaliseExpired (env : Env) {β : Type} {Q : β → World → Prop} (finalised : ℕ)
    (expired : List String) (k : ℕ → Prog Statement Statement.Result β) (w : World)
    (hk : ∀ n w, (countedContract env).Wp Q (k n) w) :
    (countedContract env).Wp Q (finaliseExpired finalised expired >>= k) w := by
  induction expired generalizing finalised w with
  | nil => exact hk finalised w
  | cons jobId expired ih =>
    simp only [finaliseExpired, await_bind]
    intro w₁ _ _
    refine ⟨trivial, fun w₂ _ he => ⟨fun hcompleted => ?_, ih _ _⟩⟩
    have hcount : 0 < (w₁.db.spawnsOf jobId).length := by
      by_contra hzero
      simp [controlPlane, Statement.exec, hzero] at hcompleted
    exact (joined_of_countSpawns hcount).evolves he

theorem countedContract_valid (env : Env) : (countedContract env).Valid where
  refl := Evolves.refl
  trans := Evolves.trans
  exec st w _ _ := ⟨trivial, st.exec_evolves w⟩
  drift d w _ := ⟨trivial, .drift d w⟩
  handler := by
    rintro ⟨request, uuid, tie⟩ w -
    show (countedContract env).Wp (fun _ _ => True) (handle env ⟨request, uuid, tie⟩) w
    cases request with
    | sweep =>
      show (countedContract env).Wp (fun _ _ => True) reapJobs w
      simp only [reapJobs, await_bind]
      refine fun w₁ _ _ => ⟨trivial, fun w₂ _ _ => ⟨trivial, fun w₃ _ _ => ⟨trivial, ?_⟩⟩⟩
      exact wp_finaliseExpired env _ _ _ _ fun n w w' _ _ =>
        ⟨trivial, fun _ _ _ => ⟨trivial, fun _ _ _ => trivial⟩⟩
    | _ =>
      refine Contract.wp_of_uses (fun st w h => ?_) (fun _ _ => trivial) (handle_awaits env _) w
      cases st with
      | finaliseJob outcome jobId => cases h.1
      | _ => trivial

theorem Reachable.joined_of_finaliseJob {env : Env} {w : Plane} (hw : Reachable env w) {i : ℕ}
    {outcome : JobOutcome} {jobId : String} (h : w.next? i = some (.finaliseJob outcome jobId))
    (ho : outcome.1 = .completed) : Joined w.store jobId := by
  obtain ⟨clock, hrun⟩ := hw
  have hsat := (countedContract_valid env).run hrun (Contract.satisfied_idle trivial)
  exact (countedContract_valid env).pre hsat h ho

/-! ## Along a run -/

/-- The statements that can give a job the status `RUNNING` or `COMPLETED`. -/
theorem Statement.jobStatusAfter_ran {st : Statement} {db : Database} {j : JobRow}
    (h : st.jobStatusAfter db j = .running ∨ st.jobStatusAfter db j = .completed) :
    (j.status = .running ∨ j.status = .completed) ∨ st = .markRunning j.jobId ∨
    (∃ outcome, st = .closeJob outcome j.jobId) ∨
    ∃ outcome, st = .finaliseJob outcome j.jobId ∧ outcome.1 = .completed := by
  cases st with
  | markRunning jobId =>
    simp only [jobStatusAfter] at h
    split_ifs at h with hc
    · exact .inr (.inl (by rw [hc.1]))
    · exact .inl h
  | closeJob outcome jobId =>
    simp only [jobStatusAfter] at h
    split_ifs at h with hc
    · exact .inr (.inr (.inl ⟨outcome, by rw [hc.1]⟩))
    · exact .inl h
  | finaliseJob outcome jobId =>
    simp only [jobStatusAfter] at h
    split_ifs at h with hc
    · rcases h with h | h
      · exact absurd outcome.2 (by simp [h, JobStatus.isTerminal])
      · exact .inr (.inr (.inr ⟨outcome, by rw [hc.1], h⟩))
    · exact .inl h
  | requestStop now jobId | failSpawn spawnId jobId | failAbandoned before | closeQuiet =>
    simp only [jobStatusAfter] at h
    split_ifs at h
    · simp at h
    · exact .inl h
  | _ => exact .inl h

/-- One step of the invariant. A completion report in service belongs to a job
that somebody has joined, and so does every running or completed job. -/
theorem joined_step {env : Env} {v v' : Plane} {a : Action Arrival ℕ} (hv : Reachable env v)
    (hc : HonestReports v a) (h : (controlPlane env).step v a = some v')
    (hreports : ∀ (i : ℕ) u p report, v.threads[i]? = some u → u.rest = some p →
      u.request.request = .complete report → Joined v.store report.jobId)
    (hran : ∀ j ∈ v.store.db.jobs, j.status = .running ∨ j.status = .completed →
      Joined v.store j.jobId) :
    (∀ (i : ℕ) u p report, v'.threads[i]? = some u → u.rest = some p →
      u.request.request = .complete report → Joined v'.store report.jobId) ∧
    ∀ j ∈ v'.store.db.jobs, j.status = .running ∨ j.status = .completed →
      Joined v'.store j.jobId := by
  have hev := hv.evolves_step h
  constructor
  · intro i u' p report hu' hp hreq
    rcases (controlPlane env).step_thread_from h hu' with ⟨hu, -⟩ | ⟨t, rfl, -, rfl⟩ |
      ⟨t, st, k, -, hu, -, rfl⟩ | hnone
    · exact (hreports i u' p report hu hp hreq).evolves hev
    · obtain ⟨i', body, r, hr, hid, -⟩ := hc t report rfl hreq
      obtain ⟨job, slot, hs, rfl⟩ := hv.handed hr
      obtain ⟨row, hrow, hjob, -⟩ := hs.row
      exact Joined.evolves ⟨row, hrow, hjob.trans hid.symm⟩ hev
    · exact (hreports i _ _ report hu rfl hreq).evolves hev
    · rw [hnone] at hp
      cases hp
  · intro j' hj' hstatus
    rcases (controlPlane env).step_store h with ⟨-, he⟩ | ⟨i, st, rfl, hnext, he⟩ | ⟨d, -, he⟩
    · rw [he] at hj' ⊢
      exact hran j' hj' hstatus
    · have hmem : j' ∈ (st.exec v.store).2.db.jobs := he ▸ hj'
      rcases st.exec_job_back hmem with ⟨j, hj, hid, hs⟩ | ⟨terms, stopAt, -, -, rfl⟩
      · rw [hid]
        refine Joined.evolves ?_ hev
        rw [hs] at hstatus
        rcases Statement.jobStatusAfter_ran hstatus with hold | rfl | ⟨outcome, rfl⟩ |
          ⟨outcome, rfl, ho⟩
        · exact hran j hj hold
        · exact hv.joined_of_markRunning hnext
        · obtain ⟨u, hu, report, hreq, -, hjob, -⟩ := hv.awaits hnext
          obtain ⟨u', hu', hrest⟩ := Option.bind_eq_some_iff.mp hnext
          obtain ⟨k, hk⟩ := Thread.next?_eq_some hrest
          have hsame : u = u' := Option.some.inj (hu.symm.trans hu')
          subst hsame
          rw [hjob]
          exact hreports i u _ report hu hk hreq
        · exact hv.joined_of_finaliseJob hnext ho
      · simp [Database.newJob] at hstatus
    · have hmem : j' ∈ v.store.db.jobs := by
        rw [he] at hj'
        exact hj'
      exact (hran j' hmem hstatus).evolves hev

/-- With honest completion reports a running or completed job has a spawn, and a
job that the sweep's rule for abandoned jobs fails has none at that moment. -/
theorem completed_means_ran {env : Env} {clock : ℤ} {w : Plane}
    (hrun : (controlPlane env).Run HonestReports (idlePlane clock) w) :
    (∀ j ∈ w.store.db.jobs, j.status = .running ∨ j.status = .completed →
      w.store.db.spawnsOf j.jobId ≠ []) ∧
    ∀ i before w', w.next? i = some (.failAbandoned before) →
      (controlPlane env).step w (.exec i) = some w' → ∀ (n : ℕ) j j',
        w.store.db.jobs[n]? = some j → w'.store.db.jobs[n]? = some j' →
        j.status ≠ .failed → j'.status = .failed →
        w.store.db.spawnsOf j.jobId = [] ∧ w'.store.db.spawnsOf j.jobId = [] := by
  constructor
  · have hinv := System.Run.invariant _ hrun
      (I := fun v => (∀ (i : ℕ) u p report, v.threads[i]? = some u → u.rest = some p →
          u.request.request = .complete report → Joined v.store report.jobId) ∧
        ∀ j ∈ v.store.db.jobs, j.status = .running ∨ j.status = .completed →
          Joined v.store j.jobId) ⟨by simp [idlePlane], by simp [idlePlane, Database.empty]⟩
      fun v a v' hv hc hstep hI => joined_step ⟨clock, hv.free⟩ hc hstep hI.1 hI.2
    intro j hj hstatus
    obtain ⟨r, hr, hjob⟩ := hinv.2 j hj hstatus
    exact List.ne_nil_of_mem (Database.mem_spawnsOf.mpr ⟨hr, hjob⟩)
  · intro i before w' hnext hstep n j j' hj hj' hopen hfailed
    have hstore : w'.store = ((Statement.failAbandoned before).exec w.store).2 :=
      (controlPlane env).exec_store hstep hnext
    obtain ⟨j'', hj'', -, hafter⟩ := (Statement.failAbandoned before).exec_job hj
    have hsame : j' = j'' := by
      rw [hstore] at hj'
      exact Option.some.inj (hj'.symm.trans hj'')
    subst hsame
    have habandoned : w.store.db.isAbandoned before j = true := by
      by_contra hno
      rw [hafter, Statement.jobStatusAfter, if_neg hno] at hfailed
      exact hopen hfailed
    have hnone : w.store.db.spawnsOf j.jobId = [] :=
      List.length_eq_zero_iff.mp (of_decide_eq_true habandoned).2.2
    have hspawns : w'.store.db.spawns = w.store.db.spawns := by
      rw [hstore]
      rfl
    exact ⟨hnone, by simpa only [Database.spawnsOf, hspawns] using hnone⟩

/-- An executable form of `HonestReports`. -/
def honestGuard (v : Plane) : Action Arrival ℕ → Bool
  | .arrive ⟨.complete report, _, _⟩ =>
    (List.range v.threads.length).any fun i =>
      (v.threads[i]?.any fun u => u.request.request.isPoll) &&
        (runResponse? v i).any fun r => report.jobId = r.jobId ∧ report.spawnId = r.spawnId
  | _ => true

theorem honestReports_of_guard (v : Plane) (a : Action Arrival ℕ) (h : honestGuard v a = true) :
    HonestReports v a := by
  rintro ⟨request, uuid, tie⟩ report rfl rfl
  simp only [honestGuard, List.any_eq_true, Bool.and_eq_true] at h
  obtain ⟨i, -, hpoll, hany⟩ := h
  obtain ⟨u, hu, hpoll⟩ := (Option.any_eq_true _ _).mp hpoll
  obtain ⟨r, hr, hids⟩ := (Option.any_eq_true _ _).mp hany
  obtain ⟨body, hbody⟩ : ∃ body, u.request.request = .poll body := by
    cases hreq : u.request.request with
    | poll body => exact ⟨body, rfl⟩
    | _ => simp [hreq, Request.isPoll] at hpoll
  have hhanded : Handed _ _ body _ := handed_of_runResponse? hr (by simp [hu, hbody])
  exact ⟨i, body, r, hhanded, of_decide_eq_true hids⟩

/-- One agent joins and completes: the job is completed and has its spawn. -/
theorem completed_means_ran_alone : ∃ (w : Plane) (j : JobRow), j ∈ w.store.db.jobs ∧
    j.status = .completed ∧ w.store.db.spawnsOf j.jobId ≠ [] := by
  obtain ⟨w, hrun, hw⟩ := (controlPlane bareEnv).exists_run_of_replay (w := idlePlane 0)
    honestGuard honestReports_of_guard
    (.arrive (startOf 5 2 1 0) :: serve 3 0 ++ .arrive (pollOf "a") :: serve 6 1 ++
      .arrive (completeOf "a") :: serve 4 2)
    (fun w => w.store.db.jobs.any fun j => j.status = .completed) (by decide +kernel)
  obtain ⟨j, hj, hs⟩ := List.any_eq_true.mp hw
  have hs := of_decide_eq_true hs
  exact ⟨w, j, hj, hs, (completed_means_ran hrun).1 j hj (.inr hs)⟩

end R2Bench
