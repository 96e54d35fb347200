import R2Bench.Orchestrator

/-!
# Which request awaits which statement

One table for all handlers. A statement that a thread of a reachable pool waits
for was bound by its handler, so its values come from the thread's own request.
-/
namespace R2Bench
open Interleaving

def Request.isStart : Request → Bool
  | .start _ _ => true
  | _ => false

def Request.isPoll : Request → Bool
  | .poll _ => true
  | _ => false

/-- The statements that serving a request may await. -/
def Request.Awaits (request : Request) : Statement → Prop
  | .dateNow => ∀ report, request ≠ .complete report
  | .findUnfinishedJob _ | .insertJob _ _ => request.isStart
  | .findActiveJob _ | .selectSpawn _ | .touchSpawn _ _ | .claimSlot _ | .selectSlot _
  | .markRunning _ => request.isPoll
  | .requestStop _ jobId => ∃ presented, request = .stop presented ⟨jobId⟩
  | .recordMetrics _ report _ => request = .metrics report
  | .failSpawn spawnId jobId => ∃ report : SpawnCompletionReport, request = .complete report ∧
      report.hasError = true ∧ spawnId = report.spawnId ∧ jobId = report.jobId
  | .selectStatus jobId => (∃ body : SpawnStatusRequest, request = .status body) ∨
      ∃ report : SpawnCompletionReport, request = .complete report ∧ report.hasError = false ∧
        jobId = report.jobId
  | .finishSpawn _ spawnId => ∃ report : SpawnCompletionReport, request = .complete report ∧
      report.hasError = false ∧ spawnId = report.spawnId
  | .countRunning jobId => ∃ report : SpawnCompletionReport, request = .complete report ∧
      report.hasError = false ∧ jobId = report.jobId
  | .closeJob outcome jobId => ∃ report : SpawnCompletionReport, request = .complete report ∧
      report.hasError = false ∧ jobId = report.jobId ∧
      (outcome.1 = .stopped ∨ outcome.1 = .completed)
  | .finaliseJob outcome _ => request = .sweep ∧ (outcome.1 = .completed ∨ outcome.1 = .failed)
  | .failStale _ | .selectExpired _ | .countSpawns _ | .failAbandoned _ | .closeQuiet =>
    request = .sweep

theorem Request.Awaits.start {request : Request} {st : Statement} (h : request.Awaits st)
    (hs : request.isStart = true) :
    st = .dateNow ∨ (∃ tie, st = .findUnfinishedJob tie) ∨
      ∃ terms stopAt, st = .insertJob terms stopAt := by
  cases request with
  | start presented req => cases st <;> simp_all [Request.Awaits, Request.isPoll]
  | _ => cases hs

section
variable {env : Env} {request : Request}

theorem grantSlot_awaits {job : JobRow} {agentId : String} {slot : Option ℕ}
    (h : request.isPoll = true) : (grantSlot job agentId slot).Uses request.Awaits := by
  simp only [grantSlot, await_bind, Prog.pure_eq]
  split_ifs
  · exact ⟨h, fun _ => trivial⟩
  · exact trivial

theorem agentPoll_awaits (tie : ℕ) (body : AgentPollRequest) :
    (agentPoll env tie body).Uses (Request.poll body).Awaits := by
  simp only [agentPoll, claimAndGrant, await_bind, Prog.pure_eq]
  split_ifs
  · exact trivial
  · exact trivial
  refine ⟨rfl, fun job? => ?_⟩
  cases job? with
  | none => exact trivial
  | some job =>
    refine ⟨by rintro _ ⟨⟩, fun now => ?_⟩
    dsimp only
    split_ifs
    · exact trivial
    refine ⟨rfl, fun existing => ?_⟩
    cases existing with
    | none =>
      refine ⟨rfl, fun claimed => ?_⟩
      cases claimed with
      | error _ => exact trivial
      | ok _ =>
        refine ⟨rfl, fun claimed => ?_⟩
        cases claimed with
        | none => exact trivial
        | some slot => exact grantSlot_awaits rfl
    | some row =>
      dsimp only
      split_ifs
      · exact trivial
      · exact ⟨rfl, fun _ => grantSlot_awaits rfl⟩

theorem startJob_awaits (uuid : Uuid) (tie : ℕ) (presented : String) (req : JobStartRequest) :
    (startJob env uuid tie req).Uses (Request.start presented req).Awaits := by
  simp only [startJob, await_bind, Prog.pure_eq]
  cases validate env req with
  | error message => exact trivial
  | ok spec =>
    refine ⟨rfl, fun active => ?_⟩
    cases active with
    | some jobId => exact trivial
    | none =>
      refine ⟨by rintro _ ⟨⟩, fun now => ⟨rfl, fun inserted => ?_⟩⟩
      cases inserted with
      | error _ => exact trivial
      | ok _ => exact trivial

theorem completeBenchmarkSpawn_awaits (report : SpawnCompletionReport) :
    (completeBenchmarkSpawn report).Uses (Request.complete report).Awaits := by
  simp only [completeBenchmarkSpawn, await_bind, Prog.pure_eq]
  by_cases he : report.hasError = true
  · rw [if_pos he]
    exact ⟨⟨report, rfl, he, rfl, rfl⟩, fun _ => trivial⟩
  · rw [if_neg he]
    have he' : report.hasError = false := by simpa using he
    refine ⟨.inr ⟨report, rfl, he', rfl⟩, fun status => ⟨⟨report, rfl, he', rfl⟩, fun _ =>
      ⟨⟨report, rfl, he', rfl⟩, fun active => ?_⟩⟩⟩
    dsimp only
    split_ifs
    · exact trivial
    · exact ⟨⟨report, rfl, he', rfl, jobOutcome_cases _⟩, fun _ => trivial⟩

theorem finaliseExpired_awaits (finalised : ℕ) (expired : List String) :
    (finaliseExpired finalised expired).Uses Request.sweep.Awaits := by
  apply (finaliseExpired_uses finalised expired).mono
  rintro st - ⟨jobId, rfl | ⟨outcome, rfl, ho⟩⟩
  · rfl
  · exact ⟨rfl, ho⟩

theorem closeLeftovers_awaits (now : ℤ) (staleSpawns finalised : ℕ) :
    (closeLeftovers now staleSpawns finalised).Uses Request.sweep.Awaits :=
  ⟨rfl, fun _ => ⟨rfl, fun _ => trivial⟩⟩

theorem reapJobs_awaits : reapJobs.Uses Request.sweep.Awaits := by
  simp only [reapJobs, await_bind]
  refine ⟨by rintro _ ⟨⟩, fun now => ⟨rfl, fun stale => ⟨rfl, fun expired => ?_⟩⟩⟩
  exact Prog.Uses.bind (closeLeftovers_awaits now stale) (finaliseExpired_awaits 0 expired)

end

/-- Every handler stays within the vocabulary of its request. -/
theorem handle_awaits (env : Env) (a : Arrival) : (handle env a).Uses a.request.Awaits := by
  obtain ⟨request, uuid, tie⟩ := a
  unfold handle
  cases request with
  | start presented req =>
    dsimp only
    split_ifs
    · exact startJob_awaits uuid tie presented req
    · exact trivial
  | poll body => exact agentPoll_awaits tie body
  | stop presented body =>
    simp only [stopJob, await_bind, Prog.pure_eq]
    split_ifs
    · exact trivial
    · exact ⟨by rintro _ ⟨⟩, fun now => ⟨⟨presented, rfl⟩, fun _ => trivial⟩⟩
    · exact trivial
  | status body =>
    dsimp only
    split_ifs
    · exact ⟨.inl ⟨body, rfl⟩, fun _ => trivial⟩
    · exact trivial
  | metrics report =>
    simp only [recordBenchmarkMetrics, await_bind, Prog.pure_eq]
    split_ifs
    · refine ⟨by rintro _ ⟨⟩, fun now => ⟨rfl, fun stored => ?_⟩⟩
      cases stored with
      | error _ => exact trivial
      | ok _ => exact trivial
    · exact trivial
  | complete report =>
    dsimp only
    split_ifs
    · exact completeBenchmarkSpawn_awaits report
    · exact trivial
  | sweep => exact reapJobs_awaits

/-- What holds throughout every handler holds throughout every reachable pool. -/
theorem Reachable.throughout {env : Env} {w : Plane} (hw : Reachable env w)
    {Φ : Arrival → (st : Statement) → (st.Result → Handler) → Prop}
    (hΦ : ∀ a, (handle env a).Everywhere (Φ a)) : System.Throughout Φ w := by
  obtain ⟨clock, hrun⟩ := hw
  exact (controlPlane env).throughout_of_run hΦ hrun (by simp [System.Throughout, idlePlane])

/-- A statement that thread `i` waits for is in the vocabulary of its request. -/
theorem Reachable.awaits {env : Env} {w : Plane} (hw : Reachable env w) {i : ℕ} {st : Statement}
    (h : w.next? i = some st) : ∃ u, w.threads[i]? = some u ∧ u.request.request.Awaits st := by
  obtain ⟨u, hu, hnext⟩ := Option.bind_eq_some_iff.mp h
  obtain ⟨k, hk⟩ := Thread.next?_eq_some hnext
  have hall := hw.throughout (Φ := fun a st _ => a.request.Awaits st) (handle_awaits env)
  exact ⟨u, hu, (hall i u _ hu hk).1⟩

end R2Bench
