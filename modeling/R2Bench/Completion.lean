import R2Bench.LiveAgents

/-!
# Closing with the last agent

A completion handler counts the running spawns only after it has ended its own,
so whichever of several handlers counts last finds none and closes the job.
-/
namespace R2Bench
open Interleaving Tables

/-- The spawn in row `m` is there and no longer running. -/
def Ended (m : ℕ) (w : World) : Prop := ∃ r, w.db.spawns[m]? = some r ∧ r.status ≠ .running

theorem Ended.evolves {m : ℕ} {w w' : World} (h : Ended m w) (he : Evolves w w') : Ended m w' := by
  obtain ⟨r, hr, hs⟩ := h
  obtain ⟨r', hr', hstep⟩ := he.spawns m r hr
  exact ⟨r', hr', fun hrun => hs (hstep.status hrun)⟩

/-- An error-free completion report for a spawn. -/
def Reports (a : Arrival) (jobId spawnId : String) : Prop :=
  ∃ report : SpawnCompletionReport, a.request = .complete report ∧ report.hasError = false ∧
    report.jobId = jobId ∧ report.spawnId = spawnId

/-- When a completion report for the spawn in row `m` is answered, the spawn has
ended, for good. -/
def endsSpawn (env : Env) (m : ℕ) (jobId spawnId : String) : Contract (controlPlane env) where
  Inv w := ∃ r, w.db.spawns[m]? = some r ∧ r.spawnId = spawnId
  Rely := Evolves
  Pre _ _ := True
  Post a reply w := Reports a jobId spawnId → reply = .ok → Ended m w

section
variable {env : Env} {m : ℕ} {jobId spawnId : String} {a : Arrival}

/-- Once the spawn has ended nothing is left to show. -/
theorem endsSpawn_of_ended (p : Handler) {w : World} (h : Ended m w) :
    (endsSpawn env m jobId spawnId).Holds a p w := by
  induction p generalizing w with
  | done reply => exact fun w' _ he _ _ => h.evolves he
  | call st k ih =>
    intro w' _ he
    exact ⟨trivial, ih _ ((h.evolves he).evolves (st.exec_evolves w'))⟩

theorem endsSpawn_finishSpawn (outcome : SpawnOutcome) (k : Unit → Handler) (w : World) :
    (endsSpawn env m jobId spawnId).Holds a (.call (.finishSpawn outcome spawnId) k) w := by
  rintro w' ⟨r, hr, hid⟩ -
  refine ⟨trivial, endsSpawn_of_ended _ ?_⟩
  obtain ⟨r', hr', -, hs⟩ := (Statement.finishSpawn outcome spawnId).exec_spawn hr
  refine ⟨r', hr', ?_⟩
  rw [hs]
  simpa [Statement.spawnStatusAfter, hid] using outcome.2

/-- The statements of a completion handler up to its own update. -/
def Statement.beforeEnd : Statement → Bool
  | .selectStatus _ | .finishSpawn _ _ => true
  | _ => false

/-- From any statement up to its own update on, a handler meets the contract. -/
theorem handle_endsSpawn (env : Env) (m : ℕ) (jobId spawnId : String) (a : Arrival) :
    (∀ w, (endsSpawn env m jobId spawnId).Holds a (handle env a) w) ∧
    (handle env a).Everywhere fun st k => st.beforeEnd = true →
      ∀ w, (endsSpawn env m jobId spawnId).Holds a (.call st k) w := by
  by_cases hrep : Reports a jobId spawnId
  · obtain ⟨report, hreq, herr, rfl, rfl⟩ := hrep
    simp only [handle, hreq]
    split_ifs
    · simp only [completeBenchmarkSpawn, herr, await_bind, Prog.pure_eq]
      have hfinish : ∀ stopping (k : Unit → Handler) w,
          (endsSpawn env m report.jobId report.spawnId).Holds a
            (.call (.finishSpawn (spawnOutcome stopping) report.spawnId) k) w :=
        fun stopping k w => endsSpawn_finishSpawn _ k w
      refine ⟨fun w w' _ _ => ⟨trivial, hfinish _ _ _⟩, ?_⟩
      refine ⟨fun _ w w' _ _ => ⟨trivial, hfinish _ _ _⟩, fun status => ?_⟩
      refine ⟨fun _ w => hfinish _ _ w, fun _ => ⟨by simp [Statement.beforeEnd], fun n => ?_⟩⟩
      dsimp only
      split_ifs
      · exact trivial
      · exact ⟨by simp [Statement.beforeEnd], fun _ => trivial⟩
    · refine ⟨fun w w' _ _ _ hok => ?_, trivial⟩
      cases hok
  · have hvacuous : ∀ p w, (endsSpawn env m jobId spawnId).Holds a p w := fun p w =>
      Contract.wp_of_uses (fun _ _ _ => trivial) (fun _ _ h => absurd h hrep)
        (Prog.everywhere_of_forall (fun _ _ => trivial) p) w
    exact ⟨hvacuous _, Prog.everywhere_of_forall (fun st k _ => hvacuous _) _⟩

end

/-- Request `i` has not arrived at `w`, or has not executed its own update. -/
def Unrecorded (w : Plane) (i : ℕ) : Prop :=
  ∀ u, w.threads[i]? = some u → ∃ st, u.next? = some st ∧ st.beforeEnd = true

/-- An answered completion report that was unrecorded earlier ended its spawn. -/
theorem ended_of_answered {env : Env} {w v : Plane} (hw : Reachable env w)
    (hrun : (controlPlane env).FreeRun w v) {m : ℕ} {s : SpawnRow}
    (hs : w.store.db.spawns[m]? = some s) {i : ℕ} (hi : Unrecorded w i)
    {u : Thread Statement Statement.Result Arrival Reply} (hu : v.threads[i]? = some u)
    {jobId : String} (hrep : Reports u.request jobId s.spawnId)
    (hdone : u.rest = some (.done .ok)) : Ended m v.store := by
  have hinv : (endsSpawn env m jobId s.spawnId).Inv w.store := ⟨s, hs, rfl⟩
  have hthrough := hw.throughout (fun a => (handle_endsSpawn env m jobId s.spawnId a).2)
  have hholds := Contract.holds_of_run (c := endsSpawn env m jobId s.spawnId) (i := i)
    Evolves.refl Evolves.trans hrun hinv ?_ ?_ fun _ a s' _ => (handle_endsSpawn env m _ _ a).1 s'
  · exact hholds.2 u _ hu hdone v.store hholds.1 (Evolves.refl _) hrep rfl
  · rintro x a x' hx - hstep ⟨r, hr, hid⟩
    have hev := (hw.run hx.free).evolves_step hstep
    obtain ⟨r', hr', hrs⟩ := hev.spawns m r hr
    exact ⟨⟨r', hr', hrs.spawnId.trans hid⟩, fun _ => hev⟩
  · intro u₀ p hu₀ hp
    obtain ⟨st, hnext, hearly⟩ := hi u₀ hu₀
    obtain ⟨k, hk⟩ := Thread.next?_eq_some hnext
    obtain rfl : _ = p := Option.some.inj (hk.symm.trans hp)
    exact (hthrough i u₀ _ hu₀ hk).1 hearly w.store

/-- A completion handler ends after its close or after a count that found a
running spawn, and nowhere else. -/
def EndPhase (a : Arrival) : (st : Statement) → (st.Result → Handler) → Prop
  | .failSpawn _ _, _ | .closeJob _ _, _ => True
  | .countRunning _, k => ∀ n : ℕ, (k n).next? = none → n ≠ 0
  | _, k => (∃ report, a.request = .complete report) → ∀ r, (k r).next? ≠ none

theorem handle_endPhase (env : Env) (a : Arrival) : (handle env a).Everywhere (EndPhase a) := by
  obtain ⟨request, uuid, tie⟩ := a
  cases request with
  | complete report =>
    simp only [handle]
    split_ifs
    · simp only [completeBenchmarkSpawn, await_bind, Prog.pure_eq]
      split_ifs
      · exact ⟨trivial, fun _ => trivial⟩
      · refine ⟨fun _ _ => by simp, fun status => ⟨fun _ _ => by simp, fun _ => ⟨?_, fun n => ?_⟩⟩⟩
        · intro n hn heq
          subst heq
          simp at hn
        · dsimp only
          split_ifs
          · exact trivial
          · exact ⟨trivial, fun _ => trivial⟩
    · exact trivial
  | _ =>
    apply (handle_awaits env _).mono
    intro st k h
    cases st with
    | countRunning jobId =>
      obtain ⟨report, he, -⟩ := h
      cases he
    | failSpawn | closeJob => trivial
    | _ =>
      rintro ⟨report, he⟩
      cases he

/-- A report that has just arrived is not answered with success at once. -/
theorem handle_ne_done_of_reports {env : Env} {a : Arrival} {jobId spawnId : String}
    (h : Reports a jobId spawnId) : handle env a ≠ .done .ok := by
  obtain ⟨report, hreq, herr, -, -⟩ := h
  simp only [handle, hreq, completeBenchmarkSpawn, herr, await_bind, Prog.pure_eq]
  split_ifs <;> simp

/-- No agent claims a slot of the job. -/
def NoNewAgent (jobId : String) (v : Plane) (a : Action Arrival ℕ) : Prop :=
  ∀ i c, a = .exec i → v.next? i = some (.claimSlot c) → v.store.db.Claimable c →
    c.jobId ≠ jobId

/-- At `v` a completion report for the spawn, unrecorded at `w`, has been answered. -/
def Answered (w : Plane) (jobId spawnId : String) (v : Plane) : Prop :=
  ∃ i u, Unrecorded w i ∧ v.threads[i]? = some u ∧ Reports u.request jobId spawnId ∧
    u.rest = some (.done .ok)

section
variable {env : Env} {w v : Plane} {jobId : String}

/-- Without new agents the running spawns are among those at the start. -/
theorem running_of_run (hrun : (controlPlane env).Run (NoNewAgent jobId) w v) :
    ∀ r ∈ v.store.db.spawns, r.jobId = jobId → r.status = .running →
      ∃ s ∈ w.store.db.spawns, s.jobId = jobId ∧ s.status = .running ∧ s.spawnId = r.spawnId := by
  refine System.Run.invariant _ hrun (I := fun v => ∀ r ∈ v.store.db.spawns, r.jobId = jobId →
    r.status = .running → ∃ s ∈ w.store.db.spawns, s.jobId = jobId ∧ s.status = .running ∧
      s.spawnId = r.spawnId) (fun r hr hjob hlive => ⟨r, hr, hjob, hlive, rfl⟩) ?_
  intro x a x' _ hnew hstep ih r' hr' hjob hlive
  rcases (controlPlane env).step_store hstep with ⟨-, he⟩ | ⟨i, st, rfl, hnext, he⟩ | ⟨d, -, he⟩
  · exact ih r' (he ▸ hr') hjob hlive
  · have hmem : r' ∈ (st.exec x.store).2.db.spawns := he ▸ hr'
    rcases st.exec_spawn_back hmem with ⟨r, hr, hseat, hs⟩ | ⟨c, rfl, hclaim, rfl⟩
    · have hrun := Statement.spawnStatusAfter_running (hs.symm.trans hlive)
      obtain ⟨s, hsmem, hsjob, hslive, hsid⟩ :=
        ih r hr ((congrArg SpawnSeat.jobId hseat).symm.trans hjob) hrun
      exact ⟨s, hsmem, hsjob, hslive, hsid.trans (congrArg SpawnSeat.spawnId hseat).symm⟩
    · exact absurd hjob (hnew i c rfl hnext hclaim)
  · have hmem : r' ∈ x.store.db.spawns := by
      rw [he] at hr'
      exact hr'
    exact ih r' hmem hjob hlive

/-- Once every report is answered, no spawn of the job is running. -/
theorem runningCount_of_answered (hw : Reachable env w)
    (hrun : (controlPlane env).Run (NoNewAgent jobId) w v)
    (hall : ∀ s ∈ w.store.db.spawns, s.jobId = jobId → s.status = .running →
      Answered w jobId s.spawnId v) : v.store.db.runningCount jobId = 0 := by
  apply Database.runningCount_eq_zero.mpr
  intro r hr hjob hlive
  obtain ⟨s, hs, hsjob, hslive, hsid⟩ := running_of_run hrun r hr hjob hlive
  obtain ⟨i, u, hi, hu, hrep, hdone⟩ := hall s hs hsjob hslive
  obtain ⟨m, hm⟩ := List.mem_iff_getElem?.mp hs
  obtain ⟨r', hr', hended⟩ := ended_of_answered hw hrun.free hm hi hu hrep hdone
  obtain ⟨r'', hr'', hstep⟩ := (hw.evolves hrun.free).spawns m s hm
  have hsame : r' = r'' := Option.some.inj (hr'.symm.trans hr'')
  subst hsame
  have heq : r' = r := (hw.run hrun.free).inv.spawn_eq (List.mem_of_getElem? hr') hr
    (hstep.spawnId.trans hsid)
  exact hended (heq ▸ hlive)

/-- The step that answers a report closes the job, or the job still has a
running spawn. -/
theorem answering_step {v' : Plane} {a : Action Arrival ℕ} {i : ℕ}
    {u' : Thread Statement Statement.Result Arrival Reply} {spawnId : String}
    (hv : Reachable env v) (hstep : (controlPlane env).step v a = some v')
    (hu' : v'.threads[i]? = some u') (hrep : Reports u'.request jobId spawnId)
    (hdone : u'.rest = some (.done .ok)) :
    v.threads[i]? = some u' ∨
    (v'.store = v.store ∧ v.store.db.runningCount jobId ≠ 0) ∨
    (∃ outcome, v'.store = ((Statement.closeJob outcome jobId).exec v.store).2) := by
  rcases (controlPlane env).step_thread_from hstep hu' with ⟨hu, -⟩ | ⟨t, -, -, rfl⟩ |
    ⟨t, st, c, rfl, hu, hst, rfl⟩ | hnone
  · exact .inl hu
  · exact absurd (Option.some.inj hdone) (handle_ne_done_of_reports hrep)
  · have hphase := (hv.throughout (handle_endPhase env) i _ _ hu rfl).1
    have hawaits := (hv.throughout (handle_awaits env) i _ _ hu rfl).1
    have hend : (c ((controlPlane env).exec st v.store).1).next? = none :=
      congrArg Prog.next? (Option.some.inj hdone)
    obtain ⟨report, hreq, herr, hjob, -⟩ := hrep
    have hreq : t.request = .complete report := hreq
    cases st with
    | failSpawn spawnId' jobId' =>
      obtain ⟨report', hreq', herr', -⟩ := hawaits
      have hsame : report = report' := by simpa using hreq.symm.trans hreq'
      subst hsame
      rw [herr] at herr'
      cases herr'
    | closeJob outcome jobId' =>
      obtain ⟨report', hreq', -, hjob', -⟩ := hawaits
      have hsame : report = report' := by simpa using hreq.symm.trans hreq'
      subst hsame
      obtain rfl : jobId' = jobId := hjob'.trans hjob
      exact .inr (.inr ⟨outcome, hst⟩)
    | countRunning jobId' =>
      obtain ⟨report', hreq', -, hjob'⟩ := hawaits
      have hsame : report = report' := by simpa using hreq.symm.trans hreq'
      subst hsame
      obtain rfl : jobId' = jobId := hjob'.trans hjob
      exact .inr (.inl ⟨hst, hphase _ hend⟩)
    | _ => exact absurd hend (hphase ⟨report, hreq⟩ _)
  · rw [hnone] at hdone
    cases hdone

end

/-- When all running spawns of a job report completion without an error and no
agent joins meanwhile, then, whatever else interleaves, the job is terminal and
none of its spawns is running once all reports are answered. -/
theorem no_lost_close {env : Env} {w w' : Plane} (hw : Reachable env w) {n : ℕ} {j : JobRow}
    (hj : w.store.db.jobs[n]? = some j) (hlive : w.store.db.runningCount j.jobId ≠ 0)
    (hrun : (controlPlane env).Run (NoNewAgent j.jobId) w w')
    (hall : ∀ s ∈ w.store.db.spawns, s.jobId = j.jobId → s.status = .running →
      Answered w j.jobId s.spawnId w') :
    (∃ j', w'.store.db.jobs[n]? = some j' ∧ j'.jobId = j.jobId ∧ j'.status.isTerminal = true) ∧
    ∀ r ∈ w'.store.db.spawns, r.jobId = j.jobId → r.status ≠ .running := by
  have hquiet := runningCount_of_answered hw hrun hall
  refine ⟨?_, Database.runningCount_eq_zero.mp hquiet⟩
  -- Until the job is terminal, one of the reports is not answered yet.
  suffices hinv : (∃ j', w'.store.db.jobs[n]? = some j' ∧ j'.jobId = j.jobId ∧
      j'.status.isTerminal = true) ∨ ∃ s ∈ w.store.db.spawns, s.jobId = j.jobId ∧
      s.status = .running ∧ ¬ Answered w j.jobId s.spawnId w' by
    apply hinv.resolve_right
    rintro ⟨s, hs, hjob, hlive, hnot⟩
    exact hnot (hall s hs hjob hlive)
  refine System.Run.invariant _ hrun (I := fun v => (∃ j', v.store.db.jobs[n]? = some j' ∧
    j'.jobId = j.jobId ∧ j'.status.isTerminal = true) ∨ ∃ s ∈ w.store.db.spawns,
    s.jobId = j.jobId ∧ s.status = .running ∧ ¬ Answered w j.jobId s.spawnId v) ?_ ?_
  · obtain ⟨s, hs, hjob, hlive⟩ : ∃ s ∈ w.store.db.spawns, s.jobId = j.jobId ∧
        s.status = .running := by
      by_contra hno
      push Not at hno
      exact hlive (Database.runningCount_eq_zero.mpr hno)
    refine .inr ⟨s, hs, hjob, hlive, ?_⟩
    rintro ⟨i, u, hi, hu, -, hdone⟩
    obtain ⟨st, hnext, -⟩ := hi u hu
    simp [Thread.next?, hdone] at hnext
  · rintro v a v' hv hnew hstep (⟨j', hj', hid, hterm⟩ | ⟨s, hs, hjob, hslive, hnot⟩)
    · have hev := (hw.run hv.free).evolves_step hstep
      obtain ⟨j'', hj'', hjs⟩ := hev.jobs n j' hj'
      exact .inl ⟨j'', hj'', hjs.jobId.trans hid, by rw [hjs.terminal hterm, hterm]⟩
    · by_cases hanswered : ∀ s ∈ w.store.db.spawns, s.jobId = j.jobId → s.status = .running →
          Answered w j.jobId s.spawnId v'
      · left
        obtain ⟨i, u', hi, hu', hrep, hdone⟩ := hanswered s hs hjob hslive
        rcases answering_step (hw.run hv.free) hstep hu' hrep hdone with hu | ⟨hsame, hcount⟩ |
          ⟨outcome, hstore⟩
        · exact absurd ⟨i, u', hi, hu, hrep, hdone⟩ hnot
        · have hzero := runningCount_of_answered hw
            (hv.tail ⟨a, hnew, hstep⟩) hanswered
          rw [hsame] at hzero
          exact absurd hzero hcount
        · obtain ⟨j', hj', hjs⟩ := (hw.evolves hv.free).jobs n j hj
          obtain ⟨j'', hj'', hid, hs''⟩ := (Statement.closeJob outcome j.jobId).exec_job hj'
          refine ⟨j'', by rw [hstore, hj''], hid.trans hjs.jobId, ?_⟩
          rw [hs'']
          simp only [Statement.jobStatusAfter, hjs.jobId]
          cases hterm : j'.status.isTerminal
          · simpa using outcome.2
          · simpa using hterm
      · push Not at hanswered
        exact .inr hanswered

/-! ## Two agents finishing together -/

def newAgentGuard (v : Plane) : Action Arrival ℕ → Bool
  | .exec i =>
    match v.next? i with
    | some (.claimSlot _) => false
    | _ => true
  | _ => true

theorem noNewAgent_of_guard (jobId : String) (v : Plane) (a : Action Arrival ℕ)
    (h : newAgentGuard v a = true) : NoNewAgent jobId v a := by
  rintro i c rfl hnext - -
  simp [newAgentGuard, hnext] at h

/-- The thread has answered an error-free report of the agent for the sample job. -/
def hasAnswered (agentId : String) (u : Thread Statement Statement.Result Arrival Reply) : Bool :=
  u.request = completeOf agentId && match u.rest with
    | some (.done .ok) => true
    | _ => false

theorem answered_of_hasAnswered {w v : Plane} {i : ℕ} {agentId : String}
    (hi : w.threads.length ≤ i) (h : v.threads[i]?.any (hasAnswered agentId) = true) :
    Answered w sampleUuid.text (spawnIdOf sampleUuid.text agentId) v := by
  obtain ⟨u, hu, hans⟩ := (Option.any_eq_true _ _).mp h
  obtain ⟨hreq, hdone⟩ := (Bool.and_eq_true _ _).mp hans
  refine ⟨i, u, fun u₀ hu₀ => ?_, hu, ?_, ?_⟩
  · simp [List.getElem?_eq_none hi] at hu₀
  · rw [of_decide_eq_true hreq]
    exact ⟨_, rfl, by simp [SpawnCompletionReport.hasError], rfl, rfl⟩
  · split at hdone
    · assumption
    · cases hdone

/-- Both agents have ended their spawns before either counts. -/
theorem no_lost_close_together : ∃ (w w' : Plane) (j : JobRow), Reachable bareEnv w ∧
    w.store.db.jobs[0]? = some j ∧ w.store.db.runningCount j.jobId = 2 ∧
    (controlPlane bareEnv).Run (NoNewAgent j.jobId) w w' ∧
    ∃ j', w'.store.db.jobs[0]? = some j' ∧ j'.jobId = j.jobId ∧ j'.status.isTerminal = true := by
  obtain ⟨w, w', hrun, hw, hrun', hw'⟩ := (controlPlane bareEnv).exists_runs_of_replay
    (w := idlePlane 0) twoPolls
    (fun w => statusAt 0 .running w && decide (w.store.db.runningCount sampleUuid.text = 2) &&
      decide (w.threads.length = 3) && decide ((w.store.db.spawns.map fun r => r.spawnId) =
        [spawnIdOf sampleUuid.text "a", spawnIdOf sampleUuid.text "b"]))
    newAgentGuard (noNewAgent_of_guard sampleUuid.text)
    ([.arrive (completeOf "a"), .arrive (completeOf "b")] ++ serve 2 3 ++ serve 2 4 ++
      serve 2 3 ++ serve 2 4)
    (fun v => v.threads[3]?.any (hasAnswered "a") && v.threads[4]?.any (hasAnswered "b"))
    (by decide +kernel)
  simp only [Bool.and_eq_true, decide_eq_true_eq] at hw hw'
  obtain ⟨⟨⟨hstatus, hcount⟩, hthreads⟩, hspawns⟩ := hw
  obtain ⟨j, hj, hid, -⟩ := mem_of_statusAt hstatus
  have hr : Reachable bareEnv w := ⟨0, hrun⟩
  rw [← hid] at hrun' hcount
  refine ⟨w, w', j, hr, hj, hcount, hrun',
    (no_lost_close hr hj (by rw [hcount]; decide) hrun' fun s hs _ _ => ?_).1⟩
  have hmem : s.spawnId ∈ w.store.db.spawns.map fun r => r.spawnId := List.mem_map_of_mem hs
  rw [hspawns] at hmem
  rw [hid]
  rcases List.mem_pair.mp hmem with he | he
  · rw [he]
    exact answered_of_hasAnswered (by omega) hw'.1
  · rw [he]
    exact answered_of_hasAnswered (by omega) hw'.2

end R2Bench
