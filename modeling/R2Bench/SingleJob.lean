import R2Bench.Lifecycle

/-!
# One job at a time

`startJob` looks for an unfinished job and inserts its own in two statements,
with a clock read between them. Two requests that overlap there both pass the
check. When no `INSERT` finds another request past its check, one job at a time
is an invariant: a request past its check excludes unfinished jobs.
-/
namespace R2Bench
open Interleaving Tables

/-- The number of jobs in `QUEUED`, `RUNNING` or `STOPPING`. -/
def Database.unfinished (db : Database) : ℕ := db.jobs.countP fun j => !j.status.isTerminal

/-- A start request that found no unfinished job and has not inserted its own. -/
def isPastCheck (u : Thread Statement Statement.Result Arrival Reply) : Bool :=
  u.request.request.isStart && match u.next? with
    | some .dateNow | some (.insertJob _ _) => true
    | _ => false

def PastCheck (v : Plane) (k : ℕ) : Prop := ∃ u, v.threads[k]? = some u ∧ isPastCheck u = true

/-- No job is inserted while another start request is past its check. -/
def SoloInsert (v : Plane) (a : Action Arrival ℕ) : Prop :=
  ∀ i terms stopAt, a = .exec i → v.next? i = some (.insertJob terms stopAt) →
    ∀ k, k ≠ i → ¬ PastCheck v k

/-- A start request that finds an unfinished job, or has inserted its own, is at
its end. -/
def StartPhase : (st : Statement) → (st.Result → Handler) → Prop
  | .findUnfinishedJob _, k => ∀ jobId : String, (k (some jobId)).next? = none
  | .insertJob _ _, k => ∀ r, (k r).next? = none
  | _, _ => True

theorem startJob_startPhase (env : Env) (uuid : Uuid) (tie : ℕ) (req : JobStartRequest) :
    (startJob env uuid tie req).Everywhere StartPhase := by
  simp only [startJob, await_bind, Prog.pure_eq]
  cases validate env req with
  | error message => exact trivial
  | ok spec =>
    refine ⟨fun jobId => rfl, fun active => ?_⟩
    cases active with
    | some jobId => exact trivial
    | none =>
      refine ⟨trivial, fun now => ⟨fun inserted => ?_, fun inserted => ?_⟩⟩
      · cases inserted <;> rfl
      · cases inserted <;> trivial

theorem handle_startPhase (env : Env) (a : Arrival) :
    (handle env a).Everywhere StartPhase := by
  obtain ⟨request, uuid, tie⟩ := a
  cases request with
  | start presented req =>
    unfold handle
    dsimp only
    split_ifs
    · exact startJob_startPhase env uuid tie req
    · exact trivial
  | _ =>
    apply (handle_awaits env _).mono
    intro st k h
    cases st <;> trivial

/-- A request that has just arrived has not made its check. -/
theorem isPastCheck_arrival (env : Env) (a : Arrival) :
    isPastCheck ⟨a, some (handle env a)⟩ = false := by
  obtain ⟨request, uuid, tie⟩ := a
  cases request with
  | start presented req =>
    unfold handle
    dsimp only
    split_ifs
    · simp only [startJob, await_bind, Prog.pure_eq]
      cases validate env req <;> rfl
    · rfl
  | _ => rfl

namespace Database

theorem unfinished_eq_zero_of_find {db : Database} {tie : ℕ}
    (h : db.findUnfinishedJob tie = none) : db.unfinished = 0 := by
  simp only [findUnfinishedJob, List.getElem?_eq_none_iff] at h
  rw [unfinished, List.countP_eq_length_filter]
  by_contra hpos
  have hlt := Nat.mod_lt tie (Nat.pos_of_ne_zero hpos)
  omega

/-- Without a new row the number of unfinished jobs does not grow. -/
theorem unfinished_le {w w' : World} (h : Evolves w w')
    (hlen : w'.db.jobs.length ≤ w.db.jobs.length) : w'.db.unfinished ≤ w.db.unfinished := by
  apply h.jobs.countP_le hlen
  intro j j' hs hopen
  cases ht : j.status.isTerminal
  · rfl
  · rw [hs.terminal ht, ht] at hopen
    exact hopen

end Database

/-- A request is past its check because it was before, or because it has just
found no unfinished job. -/
theorem pastCheck_step {env : Env} {v v' : Plane} {a : Action Arrival ℕ} (hv : Reachable env v)
    (h : (controlPlane env).step v a = some v') {k : ℕ} (hk : PastCheck v' k) :
    (PastCheck v k ∧ ∀ terms stopAt, a = .exec k → v.next? k ≠ some (.insertJob terms stopAt)) ∨
    (v'.store = v.store ∧ v.store.db.unfinished = 0) := by
  obtain ⟨u', hu', hpast⟩ := hk
  rcases (controlPlane env).step_thread_from h hu' with ⟨hu, ha⟩ | ⟨t, -, -, rfl⟩ |
    ⟨t, st, c, rfl, hu, hst, rfl⟩ | hnone
  · exact .inl ⟨⟨u', hu, hpast⟩, fun _ _ he => absurd he ha⟩
  · exact absurd hpast (by simp [controlPlane, isPastCheck_arrival])
  · have hphase := (hv.throughout (fun _ => handle_startPhase env _) k _ _ hu rfl).1
    have hawaits := (hv.throughout (handle_awaits env) k _ _ hu rfl).1
    have hnext : v.next? k = some st := by simp [Pool.next?, hu]
    obtain ⟨hstart, hpast⟩ := (Bool.and_eq_true _ _).mp hpast
    rcases hawaits.start hstart with rfl | ⟨tie, rfl⟩ | ⟨terms, stopAt, rfl⟩
    · exact .inl ⟨⟨_, hu, by simpa [isPastCheck] using hstart⟩, by simp [hnext]⟩
    · cases hfind : v.store.db.findUnfinishedJob tie with
      | none => exact .inr ⟨hst, Database.unfinished_eq_zero_of_find hfind⟩
      | some j => simp [controlPlane, Statement.exec, hfind, hphase j.jobId] at hpast
    · simp [hphase _] at hpast
  · simp [isPastCheck, Thread.next?, hnone] at hpast

/-- The `INSERT` adds at most one unfinished job. -/
theorem unfinished_insertJob_le (terms : JobTerms) (stopAt : ℤ) (w : World) :
    ((Statement.insertJob terms stopAt).exec w).2.db.unfinished ≤ w.db.unfinished + 1 := by
  have hev := (Statement.insertJob terms stopAt).exec_evolves w
  rcases (Statement.insertJob terms stopAt).exec_rows w with hs | ⟨_, _, -, -, hdb⟩ | ⟨c, hc, -⟩
  · have hlen := congrArg List.length hs.jobs
    simp only [List.length_map] at hlen
    exact (Database.unfinished_le hev hlen.le).trans (Nat.le_succ _)
  · rw [hdb, Database.unfinished, List.countP_append]
    exact Nat.add_le_add_left (List.countP_le_length.trans (by simp)) _
  · cases hc

/-- One step of the invariant: at most one job is unfinished, and none while a
start request is past its check. -/
theorem single_job_step {env : Env} {v v' : Plane} {a : Action Arrival ℕ} (hv : Reachable env v)
    (h : (controlPlane env).step v a = some v') (hsolo : SoloInsert v a)
    (hone : v.store.db.unfinished ≤ 1)
    (hnone : ∀ k, PastCheck v k → v.store.db.unfinished = 0) :
    v'.store.db.unfinished ≤ 1 ∧ ∀ k, PastCheck v' k → v'.store.db.unfinished = 0 := by
  by_cases hins : ∃ i terms stopAt, a = .exec i ∧ v.next? i = some (.insertJob terms stopAt)
  · obtain ⟨i, terms, stopAt, rfl, hnext⟩ := hins
    obtain ⟨u, hu, hawaits⟩ := hv.awaits hnext
    have hui : u.next? = some (.insertJob terms stopAt) := by simpa [Pool.next?, hu] using hnext
    have hstart : u.request.request.isStart = true := hawaits
    have hzero := hnone i ⟨u, hu, by simp [isPastCheck, hui, hstart]⟩
    refine ⟨?_, fun k hk => ?_⟩
    · have hle := unfinished_insertJob_le terms stopAt v.store
      rw [(controlPlane env).exec_store h hnext]
      show ((Statement.insertJob terms stopAt).exec v.store).2.db.unfinished ≤ 1
      omega
    · rcases pastCheck_step hv h hk with ⟨hpast, hne⟩ | ⟨hsame, hempty⟩
      · have hki : k ≠ i := by
          rintro rfl
          exact hne terms stopAt rfl hnext
        exact absurd hpast (hsolo i terms stopAt rfl hnext k hki)
      · rw [hsame, hempty]
  · have hev := hv.evolves_step h
    have hlen : v'.store.db.jobs.length ≤ v.store.db.jobs.length := by
      rcases (controlPlane env).step_store h with ⟨-, he⟩ | ⟨i, st, rfl, hst, he⟩ | ⟨d, -, he⟩
      · rw [he]
      · rw [he]
        refine (Statement.exec_jobs_length st v.store fun terms stopAt hi => ?_).le
        exact hins ⟨i, terms, stopAt, rfl, hi ▸ hst⟩
      · rw [he]
        exact le_rfl
    have hle := Database.unfinished_le hev hlen
    refine ⟨hle.trans hone, fun k hk => ?_⟩
    rcases pastCheck_step hv h hk with ⟨hpast, -⟩ | ⟨hsame, hzero⟩
    · have hzero := hnone k hpast
      omega
    · rw [hsame, hzero]

/-- One job at a time, along every run in which no job is inserted while another
start request is past its check. -/
theorem one_job_at_a_time {env : Env} {clock : ℤ} {w : Plane}
    (hrun : (controlPlane env).Run SoloInsert (idlePlane clock) w) :
    w.store.db.unfinished ≤ 1 := by
  refine (System.Run.invariant _ hrun (I := fun v => v.store.db.unfinished ≤ 1 ∧
    ∀ k, PastCheck v k → v.store.db.unfinished = 0) ⟨by simp [idlePlane, Database.empty,
      Database.unfinished], by simp [PastCheck, idlePlane]⟩ ?_).1
  rintro v a v' hv hsolo h ⟨hone, hnone⟩
  exact single_job_step ⟨clock, hv.free⟩ h hsolo hone hnone

/-- An executable form of `SoloInsert`. -/
def soloGuard (v : Plane) : Action Arrival ℕ → Bool
  | .exec i =>
    match v.next? i with
    | some (.insertJob _ _) =>
      (List.range v.threads.length).all fun k => k = i || !(v.threads[k]?.any isPastCheck)
    | _ => true
  | _ => true

theorem soloInsert_of_guard (v : Plane) (a : Action Arrival ℕ) (h : soloGuard v a = true) :
    SoloInsert v a := by
  rintro i terms stopAt rfl hnext k hki ⟨u, hu, hpast⟩
  have hlt := (List.getElem?_eq_some_iff.mp hu).1
  simp only [soloGuard, hnext, List.all_eq_true, List.mem_range] at h
  simpa [hki, hu, hpast] using h k hlt

/-- A second start request served after the first: it is refused. -/
theorem one_job_at_a_time_refused : ∃ w : Plane,
    (controlPlane bareEnv).Run SoloInsert (idlePlane 0) w ∧
    w.store.db.jobs.length = 1 ∧ w.threads.length = 2 ∧ w.store.db.unfinished ≤ 1 := by
  obtain ⟨w, hrun, hw⟩ := (controlPlane bareEnv).exists_run_of_replay (w := idlePlane 0)
    soloGuard soloInsert_of_guard
    (.arrive (startOf 5 2 1 0) :: serve 3 0 ++ .arrive (startOf 7 1 1 0) :: serve 1 1)
    (fun w => w.store.db.jobs.length = 1 ∧ w.threads.length = 2) (by decide +kernel)
  obtain ⟨hjobs, hthreads⟩ := of_decide_eq_true hw
  exact ⟨w, hrun, hjobs, hthreads, one_job_at_a_time hrun⟩

/-- Two start requests check before either inserts: two jobs are queued. -/
theorem two_jobs_at_a_time : ¬ ∀ (env : Env) (w : Plane), Reachable env w →
    w.store.db.unfinished ≤ 1 := by
  intro hclaim
  obtain ⟨w, hrun, hw⟩ := (controlPlane bareEnv).exists_run_of_replay (w := idlePlane 0)
    (fun _ _ => true) (C := fun _ _ => True) (fun _ _ _ => trivial)
    ([.arrive (startOf 5 2 1 0), .arrive { startOf 7 1 1 0 with uuid := otherUuid }] ++
      serve 1 0 ++ serve 3 1 ++ serve 2 0)
    (fun w => w.store.db.unfinished = 2) (by decide +kernel)
  have htwo := of_decide_eq_true hw
  have hone := hclaim bareEnv w ⟨0, hrun⟩
  omega

end R2Bench
