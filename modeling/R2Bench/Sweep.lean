import R2Bench.Completion

/-!
# The sweep leaves no expired job open

Which expired jobs a sweep finalises is fixed by one `SELECT`; what the others do
afterwards cannot take a job off that list, and a job once terminal stays so.
Run alone, a sweep also ends the spawns of the jobs it finalises. Spawns of a job
that was terminal before are only ended when they are stale.
-/
namespace R2Bench
open Interleaving Tables

/-- `I` is established by the batch for one job, kept by every statement of a
sweep and by the others, and all that is asked when the sweep is answered. -/
structure BatchEstablishes {env : Env} (c : Contract (controlPlane env)) (jobId : String)
    (I : World → Prop) : Prop where
  refl : ∀ w, c.Rely w w
  pre : ∀ st w, c.Pre st w
  batch : ∀ outcome w, c.Inv w → I ((Statement.finaliseJob outcome jobId).exec w).2
  exec : ∀ st w, Request.sweep.Awaits st → I w → I (st.exec w).2
  rely : ∀ w w', I w → c.Rely w w' → I w'
  post : ∀ a reply w, I w → c.Post a reply w

section
variable {env : Env} {c : Contract (controlPlane env)} {jobId : String} {I : World → Prop}

theorem BatchEstablishes.kept (h : BatchEstablishes c jobId I) {α : Type}
    {p : Prog Statement Statement.Result α} (hp : p.Uses Request.sweep.Awaits) {w : World}
    (hw : I w) : c.Wp (fun _ => I) p w :=
  Contract.wp_of_stable (fun st w _ => h.pre st w) h.exec h.rely hp hw

/-- The loop over the expired jobs reaches each of them. -/
theorem BatchEstablishes.loop (h : BatchEstablishes c jobId I) {expired : List String}
    (hmem : jobId ∈ expired) (finalised : ℕ) (w : World) :
    c.Wp (fun _ => I) (finaliseExpired finalised expired) w := by
  induction expired generalizing finalised w with
  | nil => cases hmem
  | cons id expired ih =>
    simp only [finaliseExpired, await_bind]
    refine fun w₁ _ _ => ⟨h.pre _ _, fun w₂ hi₂ _ => ⟨h.pre _ _, ?_⟩⟩
    by_cases he : id = jobId
    · subst he
      exact h.kept (finaliseExpired_awaits _ _) (h.batch _ _ hi₂)
    · exact ih (List.mem_of_ne_of_mem (Ne.symm he) hmem) _ _

/-- From a selection that contains the job on, a sweep meets the contract. -/
def SelectPhase (c : Contract (controlPlane env)) (jobId : String) (a : Arrival) :
    (st : Statement) → (st.Result → Handler) → Prop
  | .selectExpired _, k => ∀ expired : List String, jobId ∈ expired →
      ∀ w, c.Holds a (k expired) w
  | _, _ => True

theorem BatchEstablishes.handle_selectPhase (h : BatchEstablishes c jobId I) (a : Arrival) :
    (handle env a).Everywhere (SelectPhase c jobId a) := by
  obtain ⟨request, uuid, tie⟩ := a
  cases request with
  | sweep =>
    simp only [handle, reapJobs, await_bind]
    refine ⟨trivial, fun now => ⟨trivial, fun stale => ⟨?_, fun expired => ?_⟩⟩⟩
    · intro expired hmem w
      refine Contract.Wp.bind h.refl ((h.loop hmem 0 w).mono fun finalised w' hw' => ?_)
      have hkept := h.kept (closeLeftovers_awaits now stale finalised) hw'
      exact hkept.mono fun reply w => h.post _ _ w
    · apply (afterSelection_uses now stale expired).mono
      intro st k h
      cases st with
      | selectExpired before => exact absurd rfl (h.2 before)
      | _ => trivial
  | _ =>
    apply (handle_awaits env _).mono
    intro st k h
    cases st <;> trivial

/-- After the step that selects an expired job, its thread meets the contract. -/
theorem BatchEstablishes.selected (h : BatchEstablishes c jobId I) {v v' : Plane}
    (hv : Reachable env v) {i : ℕ} {before : ℤ} (hsel : v.next? i = some (.selectExpired before))
    (hstep : (controlPlane env).step v (.exec i) = some v')
    (hexp : ∃ j ∈ v.store.db.jobs, j.jobId = jobId ∧ Database.isExpired before j = true) :
    ∃ t p, v'.threads[i]? = some ⟨t, some p⟩ ∧ ∀ w, c.Holds t p w := by
  obtain ⟨u, hu, hnext⟩ := Option.bind_eq_some_iff.mp hsel
  obtain ⟨k, hk⟩ := Thread.next?_eq_some hnext
  obtain ⟨t, rest⟩ := u
  have hsame : rest = some (.call (.selectExpired before) k) := hk
  subst hsame
  simp only [System.step, hu, Option.some.injEq] at hstep
  subst hstep
  refine ⟨t, _, List.getElem?_set_self (List.getElem?_eq_some_iff.mp hu).1, ?_⟩
  apply (hv.throughout h.handle_selectPhase i _ _ hu rfl).1 _
  obtain ⟨j, hj, rfl, hexp⟩ := hexp
  exact List.mem_map.mpr ⟨j, List.mem_filter.mpr ⟨hj, hexp⟩, rfl⟩

end

/-! ## Under any interleaving -/

/-- The job in row `n` is terminal. -/
def TerminalAt (n : ℕ) (jobId : String) (w : World) : Prop :=
  ∃ j, w.db.jobs[n]? = some j ∧ j.jobId = jobId ∧ j.status.isTerminal = true

theorem TerminalAt.evolves {n : ℕ} {jobId : String} {w w' : World} (h : TerminalAt n jobId w)
    (he : Evolves w w') : TerminalAt n jobId w' := by
  obtain ⟨j, hj, hid, hterm⟩ := h
  obtain ⟨j', hj', hs⟩ := he.jobs n j hj
  exact ⟨j', hj', hs.jobId.trans hid, by rw [hs.terminal hterm, hterm]⟩

theorem terminalAt_finaliseJob {n : ℕ} {jobId : String} {w : World} (outcome : JobOutcome)
    (h : ∃ j, w.db.jobs[n]? = some j ∧ j.jobId = jobId) :
    TerminalAt n jobId ((Statement.finaliseJob outcome jobId).exec w).2 := by
  obtain ⟨j, hj, hid⟩ := h
  obtain ⟨j', hj', hid', hs⟩ := (Statement.finaliseJob outcome jobId).exec_job hj
  refine ⟨j', hj', hid'.trans hid, ?_⟩
  rw [hs]
  cases hterm : j.status.isTerminal
  · simpa [Statement.jobStatusAfter, hid, hterm] using outcome.2
  · simp [Statement.jobStatusAfter, hid, hterm]

/-- When the sweep is answered, the job in row `n` is terminal. -/
def finalises (env : Env) (n : ℕ) (jobId : String) : Contract (controlPlane env) where
  Inv w := ∃ j, w.db.jobs[n]? = some j ∧ j.jobId = jobId
  Rely := Evolves
  Pre _ _ := True
  Post _ _ := TerminalAt n jobId

theorem finalises_established (env : Env) (n : ℕ) (jobId : String) :
    BatchEstablishes (finalises env n jobId) jobId (TerminalAt n jobId) where
  refl := Evolves.refl
  pre _ _ := trivial
  batch outcome _ hw := terminalAt_finaliseJob outcome hw
  exec st w _ hw := hw.evolves (st.exec_evolves w)
  rely _ _ := TerminalAt.evolves
  post _ _ _ := id

/-- However the rest of a sweep interleaves, a job that was expired when the sweep
selected is terminal once the sweep is answered. -/
theorem expired_terminal {env : Env} {v v' w : Plane} (hv : Reachable env v) {i : ℕ} {before : ℤ}
    (hsel : v.next? i = some (.selectExpired before))
    (hstep : (controlPlane env).step v (.exec i) = some v')
    (hrun : (controlPlane env).FreeRun v' w) {u : Thread Statement Statement.Result Arrival Reply}
    {reply : Reply} (hu : w.threads[i]? = some u) (hdone : u.rest = some (.done reply)) {n : ℕ}
    {j : JobRow} (hj : v.store.db.jobs[n]? = some j) (hexp : j.stopAt < before) :
    TerminalAt n j.jobId w.store := by
  have hev := hv.evolves_step hstep
  have hv' := hv.step hstep
  cases hterm : j.status.isTerminal with
  | true => exact TerminalAt.evolves ⟨j, hj, rfl, hterm⟩ (hev.trans (hv'.evolves hrun))
  | false =>
    obtain ⟨t, p, hi, hp⟩ := (finalises_established env n j.jobId).selected hv hsel hstep
      ⟨j, List.mem_of_getElem? hj, rfl, by simp [Database.isExpired, hterm, hexp]⟩
    obtain ⟨j', hj', hs⟩ := hev.jobs n j hj
    refine Contract.post_of_run (c := finalises env n j.jobId) Evolves.refl Evolves.trans hrun
      ⟨j', hj', hs.jobId⟩ ?_ hi (hp _) hu hdone
    rintro x a x' hx - hs' ⟨y, hy, hid⟩
    have hevs := (hv'.run hx.free).evolves_step hs'
    obtain ⟨y', hy', hys⟩ := hevs.jobs n y hy
    exact ⟨⟨y', hy', hys.jobId.trans hid⟩, fun _ => hevs⟩

/-! ## Alone -/

/-- No statement of another request is executed. -/
def Alone (i : ℕ) (_ : Plane) (a : Action Arrival ℕ) : Prop := ∀ k, a = .exec k → k = i

/-- While a thread runs alone, the tables only change by its own statements. -/
def undisturbed (env : Env) (Q : World → Prop) : Contract (controlPlane env) where
  Inv _ := True
  Rely w w' := w'.db = w.db
  Pre _ _ := True
  Post _ _ := Q

theorem undisturbed_run {env : Env} {Q : World → Prop} {v w : Plane} {i : ℕ}
    (hrun : (controlPlane env).Run (Alone i) v w) {t : Arrival} {p : Handler}
    (hi : v.threads[i]? = some ⟨t, some p⟩) (hp : (undisturbed env Q).Holds t p v.store)
    {u : Thread Statement Statement.Result Arrival Reply} {reply : Reply}
    (hu : w.threads[i]? = some u) (hdone : u.rest = some (.done reply)) : Q w.store := by
  refine Contract.post_of_run (c := undisturbed env Q) (fun _ => rfl) (fun h h' => h'.trans h)
    hrun trivial ?_ hi hp hu hdone
  intro x a x' _ halone hs _
  refine ⟨trivial, fun ha => ?_⟩
  rcases (controlPlane env).step_store hs with ⟨-, he⟩ | ⟨k, st, rfl, -, -⟩ | ⟨d, -, he⟩
  · exact congrArg World.db he
  · exact absurd (congrArg Action.exec (halone k rfl)) ha
  · rw [he]
    rfl

theorem undisturbed_established (env : Env) (jobId : String) :
    BatchEstablishes (undisturbed env fun w => w.db.runningCount jobId = 0) jobId
      (fun w => w.db.runningCount jobId = 0) where
  refl _ := rfl
  pre _ _ := trivial
  batch outcome w _ := by
    apply Database.runningCount_eq_zero.mpr
    intro r hr hjob
    rcases (Statement.finaliseJob outcome jobId).exec_spawn_back hr with
      ⟨r₀, -, hseat, hs⟩ | ⟨c, hc, -⟩
    · have hid : r₀.jobId = jobId := (congrArg SpawnSeat.jobId hseat).symm.trans hjob
      rw [hs]
      by_cases hrun : r₀.status = .running <;> simp [Statement.spawnStatusAfter, hid, hrun]
    · cases hc
  exec st w hst hw := by
    refine st.runningCount_exec (fun c hc => ?_) hw
    subst hc
    cases hst
  rely _ _ hw he := by rw [he]; exact hw
  post _ _ _ := id

/-- No spawn is stale. -/
def NoneStale (before : ℤ) (db : Database) : Prop :=
  ∀ r ∈ db.spawns, Database.isStale before r = false

theorem NoneStale.setSpawnStatus {before : ℤ} {db : Database} (h : NoneStale before db)
    (p : SpawnRow → Bool) {s : SpawnStatus} (hs : s ≠ .running) :
    NoneStale before (db.setSpawnStatus p s) := by
  intro r hr
  obtain ⟨r₀, hr₀, rfl⟩ := mem_updateWhere.mp hr
  split_ifs
  · simp [Database.isStale, hs]
  · exact h r₀ hr₀

theorem noneStale_failStale (before : ℤ) (db : Database) :
    NoneStale before (db.setSpawnStatus (Database.isStale before) .failed) := by
  intro r hr
  obtain ⟨r₀, hr₀, rfl⟩ := mem_updateWhere.mp hr
  cases hstale : Database.isStale before r₀ with
  | true => simp [Database.isStale]
  | false => simpa using hstale

theorem NoneStale.exec {before : ℤ} {st : Statement} (hst : Request.sweep.Awaits st) {w : World}
    (h : NoneStale before w.db) : NoneStale before (st.exec w).2.db := by
  cases st with
  | failStale | finaliseJob => exact h.setSpawnStatus _ (by simp)
  | dateNow | selectExpired | countSpawns | failAbandoned | closeQuiet => exact h
  | _ => simp [Request.Awaits, Request.isStart, Request.isPoll] at hst

/-- From its clock reading on, a sweep that runs alone leaves no spawn stale. -/
theorem reapJobs_noneStale (env : Env) (a : Arrival) (now : ℤ) (w : World) :
    (undisturbed env fun w => NoneStale (now - SPAWN_STALE_AFTER_MS) w.db).Holds a
      (.call (.failStale (now - SPAWN_STALE_AFTER_MS)) fun stale =>
        .call (.selectExpired (now - JOB_FINALISE_GRACE_MS)) fun expired =>
          finaliseExpired 0 expired >>= closeLeftovers now stale) w := by
  refine fun w₁ _ _ => ⟨trivial, ?_⟩
  refine Contract.wp_of_stable (c := undisturbed env _) (T := Request.sweep.Awaits)
    (I := fun w => NoneStale (now - SPAWN_STALE_AFTER_MS) w.db) (fun _ _ _ => trivial)
    (fun st w hst hw => hw.exec hst)
    (fun (w w' : World) hw he => by rw [show w'.db = w.db from he]; exact hw) ?_
    (noneStale_failStale _ _)
  exact ⟨rfl, fun expired =>
    Prog.Uses.bind (closeLeftovers_awaits now _) (finaliseExpired_awaits 0 expired)⟩

/-! ## A whole sweep -/

/-- The sweep in thread `i` reads the clock at `v₀`, selects the expired jobs at
`v` and is answered at `w`; all steps in between meet `C`. -/
structure SweepRun (env : Env) (C : Plane → Action Arrival ℕ → Prop) (i : ℕ) (v₀ v w : Plane) :
    Prop where
  reachable : Reachable env v₀
  begins : ∃ a, a.request = .sweep ∧ v₀.threads[i]? = some ⟨a, some (handle env a)⟩
  reads : ∃ v₁, (controlPlane env).step v₀ (.exec i) = some v₁ ∧ (controlPlane env).Run C v₁ v
  selects : ∃ before, v.next? i = some (.selectExpired before)
  goes : ∃ v', (controlPlane env).step v (.exec i) = some v' ∧ (controlPlane env).Run C v' w
  answered : ∃ u reply, w.threads[i]? = some u ∧ u.rest = some (.done reply)

namespace SweepRun
variable {env : Env} {C : Plane → Action Arrival ℕ → Prop} {i : ℕ} {v₀ v w : Plane}

/-- The rest of the sweep once it has read the clock. -/
theorem read (h : SweepRun env C i v₀ v w) : ∃ v₁ a, Reachable env v₁ ∧
    (controlPlane env).Run C v₁ v ∧ v₁.threads[i]? = some ⟨a, some
      (.call (.failStale (v₀.store.clock - SPAWN_STALE_AFTER_MS)) fun stale =>
        .call (.selectExpired (v₀.store.clock - JOB_FINALISE_GRACE_MS)) fun expired =>
          finaliseExpired 0 expired >>= closeLeftovers v₀.store.clock stale)⟩ := by
  obtain ⟨a, ha, hi⟩ := h.begins
  obtain ⟨v₁, hstep, hrun⟩ := h.reads
  have hv₁ := h.reachable.step hstep
  refine ⟨v₁, a, hv₁, hrun, ?_⟩
  simp only [handle, ha, reapJobs, await_bind] at hi
  simp only [System.step, hi, Option.some.injEq] at hstep
  subst hstep
  exact List.getElem?_set_self (List.getElem?_eq_some_iff.mp hi).1

/-- The selection uses the clock that the sweep has read. -/
theorem next (h : SweepRun env C i v₀ v w) : Reachable env v ∧
    v.next? i = some (.selectExpired (v₀.store.clock - JOB_FINALISE_GRACE_MS)) := by
  obtain ⟨v₁, a, hv₁, hrun, hi⟩ := h.read
  obtain ⟨before, hnext⟩ := h.selects
  refine ⟨hv₁.run hrun.free, ?_⟩
  suffices hbefore : before = v₀.store.clock - JOB_FINALISE_GRACE_MS by rw [hnext, hbefore]
  refine (controlPlane env).uses_of_run (T := fun st => ∀ before, st = .selectExpired before →
    before = v₀.store.clock - JOB_FINALISE_GRACE_MS) hrun.free hi ?_ hnext before rfl
  refine ⟨by simp, fun stale => ⟨by simp, fun expired => ?_⟩⟩
  exact (afterSelection_uses _ stale expired).mono fun st _ h before he => absurd he (h.2 before)

end SweepRun

/-- A sweep leaves every job terminal whose window had closed 30 seconds before its
clock reading when it selected, whatever interleaves. If nothing does, the jobs that
were unfinished then have no running spawn, and the others no stale one. -/
theorem no_job_hangs {env : Env} {C : Plane → Action Arrival ℕ → Prop} {i : ℕ} {v₀ v w : Plane}
    (h : SweepRun env C i v₀ v w) {n : ℕ} {j : JobRow} (hj : v.store.db.jobs[n]? = some j)
    (hexp : j.stopAt < v₀.store.clock - JOB_FINALISE_GRACE_MS) :
    TerminalAt n j.jobId w.store ∧
    ((∀ x a, C x a → Alone i x a) →
      (j.status.isTerminal = false → w.store.db.runningCount j.jobId = 0) ∧
      NoneStale (v₀.store.clock - SPAWN_STALE_AFTER_MS) w.store.db) := by
  obtain ⟨hv, hnext⟩ := h.next
  obtain ⟨v', hstep, hrun⟩ := h.goes
  obtain ⟨u, reply, hu, hdone⟩ := h.answered
  refine ⟨expired_terminal hv hnext hstep hrun.free hu hdone hj hexp, fun halone => ⟨?_, ?_⟩⟩
  · intro hterm
    obtain ⟨t, p, hi, hp⟩ := (undisturbed_established env j.jobId).selected hv hnext hstep
      ⟨j, List.mem_of_getElem? hj, rfl, by simp [Database.isExpired, hterm, hexp]⟩
    exact undisturbed_run (hrun.mono _ halone) hi (hp _) hu hdone
  · obtain ⟨v₁, a, -, hrun₁, hi⟩ := h.read
    have hsel : (controlPlane env).Run (Alone i) v v' := by
      refine System.Run.single _ (fun k hk => ?_) hstep
      simpa using hk.symm
    exact undisturbed_run (((hrun₁.mono _ halone).trans hsel).trans (hrun.mono _ halone)) hi
      (reapJobs_noneStale env a _ _) hu hdone

/-- A sweep arrives at `x` and runs alone: where it reads the clock, where it
selects, and where it is after `n` more statements. -/
def sweepAlone (env : Env) (n : ℕ) (x : Plane) : Option (Plane × Plane × Plane) := do
  let i := x.threads.length
  let v₀ ← (controlPlane env).step x (.arrive sweepArrival)
  let v₁ ← (controlPlane env).step v₀ (.exec i)
  let v ← (controlPlane env).step v₁ (.exec i)
  let v' ← (controlPlane env).step v (.exec i)
  let w ← (controlPlane env).replay (fun _ a => a = .exec i) (serve n i) v'
  return (v₀, v, w)

def isSelecting (i : ℕ) (v : Plane) : Bool :=
  match v.next? i with
  | some (.selectExpired _) => true
  | _ => false

def isAnswered (i : ℕ) (w : Plane) : Bool :=
  match w.threads[i]? with
  | some ⟨_, some (.done _)⟩ => true
  | _ => false

theorem sweepRun_of_alone {env : Env} {n : ℕ} {x v₀ v w : Plane} (hx : Reachable env x)
    (h : sweepAlone env n x = some (v₀, v, w)) (hsel : isSelecting x.threads.length v = true)
    (hans : isAnswered x.threads.length w = true) :
    SweepRun env (Alone x.threads.length) x.threads.length v₀ v w := by
  simp only [sweepAlone, Option.bind_eq_bind, Option.bind_eq_some_iff, Option.pure_def,
    Option.some.injEq, Prod.mk.injEq] at h
  obtain ⟨_, harrive, v₁, hread, _, hstale, v', hgo, _, hrest, rfl, rfl, rfl⟩ := h
  have halone : Alone x.threads.length v₁ (.exec x.threads.length) := fun k hk => by
    simpa using hk.symm
  refine ⟨hx.step harrive, ⟨sweepArrival, rfl, ?_⟩,
    ⟨v₁, hread, System.Run.single _ halone hstale⟩, ?_, ⟨v', hgo, ?_⟩, ?_⟩
  · obtain rfl := Option.some.inj harrive
    simp [controlPlane]
  · unfold isSelecting at hsel
    split at hsel
    · exact ⟨_, by assumption⟩
    · cases hsel
  · refine System.run_of_replay _ (fun y a ha k hk => ?_) hrest
    have ha := of_decide_eq_true ha
    subst hk
    simpa using ha
  · unfold isAnswered at hans
    split at hans
    · exact ⟨_, _, by assumption, rfl⟩
    · cases hans

/-- An executable check on a sweep that runs alone after some actions. -/
theorem exists_sweepRun (acts : List (Action Arrival ℕ)) (n : ℕ)
    (P : Plane × Plane × Plane → Bool)
    (h : ((controlPlane bareEnv).replay (fun _ _ => true) acts (idlePlane 0)).any (fun x =>
      (sweepAlone bareEnv n x).any fun r => isSelecting x.threads.length r.2.1 &&
        isAnswered x.threads.length r.2.2 && P r) = true) :
    ∃ i v₀ v w, SweepRun bareEnv (Alone i) i v₀ v w ∧ P (v₀, v, w) = true := by
  obtain ⟨x, hx, hr⟩ := (Option.any_eq_true _ _).mp h
  obtain ⟨⟨v₀, v, w⟩, hs, hP⟩ := (Option.any_eq_true _ _).mp hr
  simp only [Bool.and_eq_true] at hP
  have hreach : Reachable bareEnv x :=
    ⟨0, System.run_of_replay _ (fun _ _ _ => trivial) hx⟩
  exact ⟨_, v₀, v, w, sweepRun_of_alone hreach hs hP.1.1 hP.1.2, hP.2⟩

/-- The sample job had status `s` when the sweep selected, its window closed. -/
def expiredAt (s : JobStatus) (r : Plane × Plane × Plane) : Bool :=
  r.2.1.store.db.jobs[0]?.any fun j =>
    j.status = s ∧ j.stopAt < r.1.store.clock - JOB_FINALISE_GRACE_MS

/-- A job is started, an agent joins after 10 seconds, and nothing happens for
the next 81. -/
def silentJob : List (Action Arrival ℕ) :=
  .arrive (startOf 5 2 1 0) :: serve 3 0 ++ .drift 10000 :: .arrive (pollOf "a") :: serve 6 1 ++
    [.drift 81000]

/-- The sweep completes the running job and its only spawn. -/
theorem no_job_hangs_silent : ∃ i v₀ v w j, SweepRun bareEnv (Alone i) i v₀ v w ∧
    v.store.db.jobs[0]? = some j ∧ j.status = .running ∧ TerminalAt 0 j.jobId w.store ∧
    w.store.db.runningCount j.jobId = 0 := by
  obtain ⟨i, v₀, v, w, h, hP⟩ := exists_sweepRun silentJob 4 (expiredAt .running)
    (by decide +kernel)
  obtain ⟨j, hj, hexp⟩ := (Option.any_eq_true _ _).mp hP
  obtain ⟨hstatus, hexp⟩ := of_decide_eq_true hexp
  have hclosed := no_job_hangs h hj hexp
  refine ⟨i, v₀, v, w, j, h, hj, hstatus, hclosed.1, ?_⟩
  exact (hclosed.2 fun _ _ => id).1 (by rw [hstatus]; rfl)

/-- The completion report of an agent that met an error. -/
def failureOf (agentId : String) : Arrival :=
  ⟨.complete ⟨⟨some "key", spawnIdOf sampleUuid.text agentId, sampleUuid.text⟩, some "lost"⟩,
    sampleUuid, 0⟩

/-- Of two agents one reports an error, which fails the job. -/
def failedJob : List (Action Arrival ℕ) :=
  .arrive (startOf 5 2 1 0) :: serve 3 0 ++ .drift 10000 :: .arrive (pollOf "a") :: serve 6 1 ++
    .arrive (pollOf "b") :: serve 5 2 ++ .arrive (failureOf "a") :: serve 1 3 ++ [.drift 81000]

/-- The failed job is not selected, and its other spawn is not stale yet. -/
theorem expired_job_with_running_spawn : ¬ ∀ (env : Env) (i : ℕ) (v₀ v w : Plane),
    SweepRun env (Alone i) i v₀ v w → ∀ (n : ℕ) j, v.store.db.jobs[n]? = some j →
      j.stopAt < v₀.store.clock - JOB_FINALISE_GRACE_MS →
      TerminalAt n j.jobId w.store ∧ w.store.db.runningCount j.jobId = 0 := by
  intro hclaim
  obtain ⟨i, v₀, v, w, h, hP⟩ := exists_sweepRun failedJob 2
    (fun r => expiredAt .failed r && r.2.1.store.db.jobs[0]?.any fun j =>
      r.2.2.store.db.runningCount j.jobId = 1) (by decide +kernel)
  simp only [Bool.and_eq_true] at hP
  obtain ⟨j, hj, hexp⟩ := (Option.any_eq_true _ _).mp hP.1
  have hzero := (hclaim bareEnv i v₀ v w h 0 j hj (of_decide_eq_true hexp).2).2
  have hone := hP.2
  simp [show v.store.db.jobs[0]? = some j from hj, hzero] at hone

end R2Bench
