import R2Bench.AgentReports
import R2Bench.SlotAllocation
import R2Bench.Vocabulary

/-!
# Metric rows are the acknowledged reports

Every metrics request that was answered with success has stored one row, and
every row belongs to such a request, under any interleaving. What an agent's
rows add up to is therefore decided by what it sends.
-/
namespace R2Bench
open Interleaving

/-- A row without the two columns that the Worker chooses. -/
def MetricRow.data (m : MetricRow) : MetricRow := { m with metricId := "", createdAt := 0 }

/-- The data that a report asks to store. -/
def SpawnMetricsReport.data (report : SpawnMetricsReport) : MetricRow :=
  Database.metricRow "" report 0

/-- The report of a metrics request that was answered with success. -/
def acknowledgement (u : Thread Statement Statement.Result Arrival Reply) :
    Option SpawnMetricsReport :=
  match u.request.request, u.rest with
  | .metrics report, some (.done .ok) => some report
  | _, _ => none

theorem acknowledgement_ok {a : Arrival} {report : SpawnMetricsReport}
    (h : a.request = .metrics report) : acknowledgement ⟨a, some (.done .ok)⟩ = some report := by
  simp [acknowledgement, h]

def acknowledged (w : Plane) : List SpawnMetricsReport := w.threads.filterMap acknowledgement

/-- Only the batch of `recordBenchmarkMetrics` touches the table. -/
theorem Statement.exec_metrics (st : Statement) (w : World)
    (h : ∀ id report now, st ≠ .recordMetrics id report now) :
    (st.exec w).2.db.metrics = w.db.metrics := by
  cases st with
  | recordMetrics id report now => exact absurd rfl (h id report now)
  | insertJob terms stopAt =>
    simp only [exec, Database.insertJob]
    split_ifs <;> rfl
  | claimSlot c =>
    rcases w.db.claimSlot_cases c with ⟨h, -⟩ | ⟨h, -⟩ | ⟨h, -⟩ <;>
      simp only [exec, h, World.attempt]
  | _ => rfl

theorem Statement.exec_recordMetrics (id : String) (report : SpawnMetricsReport) (now : ℤ)
    (w : World) :
    ((∃ e, ((recordMetrics id report now).exec w).1 = .error e) ∧
      ((recordMetrics id report now).exec w).2.db.metrics = w.db.metrics) ∨
    (((recordMetrics id report now).exec w).1 = .ok () ∧
      ((recordMetrics id report now).exec w).2.db.metrics =
        w.db.metrics ++ [Database.metricRow id report (w.clock / 1000)]) := by
  simp only [exec, Database.recordMetrics]
  split_ifs
  · exact .inl ⟨⟨_, rfl⟩, rfl⟩
  · exact .inr ⟨rfl, rfl⟩

/-- A metrics request is answered by its batch and by nothing else. -/
def AckPhase (a : Arrival) : (st : Statement) → (st.Result → Handler) → Prop
  | .recordMetrics _ report _, k => a.request = .metrics report ∧ k (.ok ()) = .done .ok ∧
      ∀ e, k (.error e) = .done .unavailable
  | _, k => ∀ report, a.request = .metrics report → ∀ r, (k r).next? ≠ none

theorem handle_ackPhase (env : Env) (a : Arrival) : (handle env a).Everywhere (AckPhase a) := by
  obtain ⟨request, uuid, tie⟩ := a
  cases request with
  | metrics report =>
    simp only [handle]
    split_ifs
    · simp only [recordBenchmarkMetrics, await_bind, Prog.pure_eq]
      refine ⟨fun _ _ now => by simp, fun now => ⟨⟨rfl, rfl, fun _ => rfl⟩, fun stored => ?_⟩⟩
      cases stored <;> exact trivial
    · exact trivial
  | _ =>
    apply (handle_awaits env _).mono
    intro st k h
    cases st with
    | recordMetrics id report now => cases h
    | _ =>
      intro report he
      cases he

theorem AckPhase.acknowledgement_eq_none {a : Arrival} {st : Statement}
    {k : st.Result → Handler} (h : AckPhase a st k)
    (hst : ∀ id report now, st ≠ .recordMetrics id report now) (r : st.Result) :
    acknowledgement ⟨a, some (k r)⟩ = none := by
  have hopen : ∀ report, a.request = .metrics report → (k r).next? ≠ none := by
    intro report hreq
    cases st with
    | recordMetrics id report now => exact absurd rfl (hst id report now)
    | _ => exact h report hreq r
  unfold acknowledgement
  split
  · rename_i report hreq hdone
    rw [Option.some.inj hdone] at hopen
    exact absurd rfl (hopen report hreq)
  · rfl

theorem acknowledgement_handle (env : Env) (a : Arrival) :
    acknowledgement ⟨a, some (handle env a)⟩ = none := by
  obtain ⟨request, uuid, tie⟩ := a
  cases request with
  | metrics report =>
    simp only [handle]
    split_ifs <;> rfl
  | _ => rfl

/-- The table holds the acknowledged reports, each once. -/
theorem metrics_perm_acknowledged {env : Env} {w : Plane} (hw : Reachable env w) :
    (w.store.db.metrics.map MetricRow.data).Perm
      ((acknowledged w).map SpawnMetricsReport.data) := by
  obtain ⟨clock, hrun⟩ := hw
  refine System.Run.invariant _ hrun
    (I := fun v => (v.store.db.metrics.map MetricRow.data).Perm
      ((acknowledged v).map SpawnMetricsReport.data)) (.refl _) ?_
  intro v a v' hv _ hstep ih
  rcases (controlPlane env).step_filterMap acknowledgement (fun _ _ _ => by simp [acknowledgement])
    (fun _ => by simp [acknowledgement]) (acknowledgement_handle env) hstep with
    ⟨hperm, hstore⟩ | ⟨i, t, st, k, hi, hstore, hperm⟩
  · have hsame : v'.store.db = v.store.db := by
      rcases hstore with he | ⟨d, he⟩ <;> rw [he]
      rfl
    rw [hsame]
    exact ih.trans (hperm.symm.map _)
  · have hphase := (Reachable.throughout ⟨clock, hv⟩ (handle_ackPhase env) i _ _ hi rfl).1
    rw [controlPlane_exec] at hstore hperm
    rw [hstore]
    refine List.Perm.trans ?_ (hperm.symm.map _)
    by_cases hrec : ∃ id report now, st = .recordMetrics id report now
    · obtain ⟨id, report, now, rfl⟩ := hrec
      obtain ⟨hreq, hok, herr⟩ := hphase
      rcases Statement.exec_recordMetrics id report now v.store with ⟨⟨e, he⟩, hkeep⟩ | ⟨he, hnew⟩
      · rw [he, herr, hkeep]
        simpa [acknowledgement, acknowledged] using ih
      · rw [he, hok, hnew, acknowledgement_ok hreq, List.map_append]
        exact (List.perm_append_singleton _ _).trans (ih.cons _)
    · have hst : ∀ id report now, st ≠ .recordMetrics id report now :=
        fun id report now he => hrec ⟨id, report, now, he⟩
      rw [st.exec_metrics _ hst, hphase.acknowledgement_eq_none hst]
      exact ih

/-! ## What the rows of an agent add up to -/

/-- The metric rows of a spawn. -/
def Database.metricsOf (db : Database) (spawnId : String) : List MetricRow :=
  db.metrics.filter fun m => m.spawnId = spawnId

/-- The acknowledged reports of a spawn. -/
def acknowledgedBy (w : Plane) (spawnId : String) : List SpawnMetricsReport :=
  (acknowledged w).filter fun report => report.spawnId = spawnId

def Counter.ofRow : Counter → MetricRow → ℕ
  | count, m => m.count
  | bytes, m => m.bytes
  | status4xx, m => m.status4xx
  | status5xx, m => m.status5xx

/-- The rows of a spawn add up to what its acknowledged reports add up to. -/
theorem metricsOf_sum {env : Env} {w : Plane} (hw : Reachable env w) (spawnId : String)
    (c : Counter) : ((w.store.db.metricsOf spawnId).map c.ofRow).sum =
      ((acknowledgedBy w spawnId).map c.ofBody).sum := by
  have hperm := ((metrics_perm_acknowledged hw).filter fun m => m.spawnId = spawnId).map c.ofRow
  have hrow : ∀ m : MetricRow, c.ofRow m.data = c.ofRow m := fun m => by cases c <;> rfl
  have hreport : ∀ r : SpawnMetricsReport, c.ofRow r.data = c.ofBody r := fun r => by
    cases c <;> rfl
  have hsum := hperm.sum_eq
  rw [List.filter_map, List.filter_map, List.map_map, List.map_map] at hsum
  simp only [Function.comp_def, hrow, hreport] at hsum
  exact hsum

/-- When exactly the stored reports of one run of an agent are acknowledged, in any
order, the rows add up to the final counters if and only if no stored interval
report counted anything: the final flush counts everything again. This is about counters
of up to `2 ^ 53`, past which the bodies are not what the Worker's doubles hold. -/
theorem reported_once_iff {env : Env} {w : Plane} (hw : Reachable env w) {run : AgentRun}
    {token : String}
    (hstored : (acknowledgedBy w run.assignment.spawnId).Perm (run.stored token)) :
    (∀ c : Counter, ((w.store.db.metricsOf run.assignment.spawnId).map c.ofRow).sum =
      (c.ofSnapshot run.final).toNat) ↔
    ∀ b, (b, true) ∈ intervals [] run.events → ∀ c : Counter, c.counted b = 0 := by
  have hsum : ∀ c : Counter, ((w.store.db.metricsOf run.assignment.spawnId).map c.ofRow).sum =
      ((run.stored token).map c.ofBody).sum := fun c => by
    rw [metricsOf_sum hw, (hstored.map c.ofBody).sum_eq]
  simp only [hsum]
  exact run.stored_sum_iff token

def sampleAssignment : Assignment := ⟨"job", "job-a", 5, 1, 60000, false⟩

/-- One successful request of 2 ms with a body of 1536 bytes. -/
def sampleRequest : AgentEvent := .observe (.success 2000 1536 200)

/-- Nothing happens in the stored interval; the report of the other one is lost. -/
def lostRun : AgentRun :=
  ⟨sampleAssignment, 0, [.tick 10000000000 true, sampleRequest, .tick 20000000000 false],
    25000000000⟩

/-- A request, then a report that is stored. -/
def storedRun : AgentRun :=
  ⟨sampleAssignment, 0, [sampleRequest, .tick 10000000000 true], 15000000000⟩

/-- A report that passes authentication is acknowledged when it is served alone
under a new id. -/
theorem Reachable.deliver {env : Env} {w : Plane} (hw : Reachable env w)
    {report : SpawnMetricsReport}
    (hver : verifyInternalRequest env report.toSpawnStatusRequest = true) (uuid : Uuid)
    (hnew : ∀ m ∈ w.store.db.metrics, m.metricId ≠ uuid.text) :
    ∃ w', Reachable env w' ∧ acknowledged w' = acknowledged w ++ [report] ∧
      ∀ m ∈ w'.store.db.metrics, m ∈ w.store.db.metrics ∨ m.metricId = uuid.text := by
  have hno : ¬ ∃ m ∈ w.store.db.metrics, m.metricId = uuid.text := by
    rintro ⟨m, hm, he⟩
    exact hnew m hm he
  let a : Arrival := ⟨.metrics report, uuid, 0⟩
  have harrive : Reachable env ⟨w.store, w.threads ++ [⟨a, some (handle env a)⟩]⟩ :=
    hw.step (a := .arrive a) rfl
  have hrun := System.run_alone (controlPlane env) (i := w.threads.length) (t := a)
    (p := handle env a) (w := ⟨w.store, w.threads ++ [⟨a, some (handle env a)⟩]⟩) (by simp)
  refine ⟨_, harrive.run hrun.free, ?_, ?_⟩
  · simp [a, acknowledged, handle, hver, recordBenchmarkMetrics, controlPlane_exec, Statement.exec,
      Database.recordMetrics, hno, World.attempt, acknowledgement]
  · simp [a, handle, hver, recordBenchmarkMetrics, controlPlane_exec, Statement.exec,
      Database.recordMetrics, hno, World.attempt]
    rintro m (hm | rfl)
    · exact .inl hm
    · exact .inr rfl

/-- A plane that has acknowledged exactly the two stored reports of a run. -/
theorem exists_acknowledged (run : AgentRun) (hids : verifyInternalRequest bareEnv
      ⟨some "key", run.assignment.spawnId, run.assignment.jobId⟩ = true)
    {first flush : SpawnMetricsReport} (hrun : run.stored "key" = [first, flush]) :
    ∃ w, Reachable bareEnv w ∧
      (acknowledgedBy w run.assignment.spawnId).Perm (run.stored "key") := by
  have hidle : Reachable bareEnv (idlePlane 0) := ⟨0, Relation.ReflTransGen.refl⟩
  have hreport := run.stored_ids "key"
  simp only [hrun, List.mem_cons, List.not_mem_nil, or_false, forall_eq_or_imp,
    forall_eq] at hreport
  obtain ⟨hfirst, hflush⟩ := hreport
  obtain ⟨w₁, hw₁, hack₁, hold⟩ := hidle.deliver (by rw [hfirst]; exact hids)
    sampleUuid (by simp [idlePlane, Database.empty])
  obtain ⟨w₂, hw₂, hack₂, -⟩ := hw₁.deliver (by rw [hflush]; exact hids)
    otherUuid (fun m hm => by
      rcases hold m hm with hm | hid
      · simp [idlePlane, Database.empty] at hm
      · rw [hid]
        decide +kernel)
  refine ⟨w₂, hw₂, .of_eq ?_⟩
  rw [acknowledgedBy, hack₂, hack₁, hrun]
  simp [acknowledged, idlePlane, hfirst, hflush]

/-- The lost report is made good by the final flush. -/
theorem reported_once_lost : ∃ w, Reachable bareEnv w ∧ lostRun.final.count = 1 ∧
    ∀ c : Counter, ((w.store.db.metricsOf lostRun.assignment.spawnId).map c.ofRow).sum =
      (c.ofSnapshot lostRun.final).toNat := by
  obtain ⟨w, hw, hack⟩ := exists_acknowledged lostRun (by decide +kernel) rfl
  refine ⟨w, hw, by decide +kernel, (reported_once_iff hw hack).mpr ?_⟩
  intro b hb c
  have hsame : b = [] := by simpa [lostRun, sampleRequest, intervals] using hb
  subst hsame
  cases c <;> rfl

/-- One request, reported at a tick and again by the final flush, counts twice. -/
theorem request_reported_twice : ¬ ∀ (env : Env) (w : Plane) (run : AgentRun) (token : String),
    Reachable env w → (acknowledgedBy w run.assignment.spawnId).Perm (run.stored token) →
    ∀ c : Counter, ((w.store.db.metricsOf run.assignment.spawnId).map c.ofRow).sum =
      (c.ofSnapshot run.final).toNat := by
  intro hclaim
  obtain ⟨w, hw, hack⟩ := exists_acknowledged storedRun (by decide +kernel) rfl
  have hcount := hclaim bareEnv w storedRun "key" hw hack .count
  rw [metricsOf_sum hw, (hack.map _).sum_eq, storedRun.stored_sum] at hcount
  revert hcount
  decide +kernel

end R2Bench
