import R2Bench.Lifecycle
import R2Bench.TargetShares

/-!
# Run responses agree

A run response combines a job row read at the start of the handler with a slot
read several statements later, while a stop may rewrite the window in between.
The row was active when it was read and a job's terms never change, so all
responses for a job carry one window, and an agent is always given one share.
-/
namespace R2Bench
open Interleaving

/-- Thread `i` has answered the poll `body` with the run response `r`. -/
def Handed (w : Plane) (i : ℕ) (body : AgentPollRequest) (r : RunResponse) : Prop :=
  ∃ a, w.threads[i]? = some ⟨a, some (.done (.poll (.run r)))⟩ ∧ a.request = .poll body

/-- A response that was handed out names a seat of the agent that asked. -/
theorem Reachable.handed {env : Env} {w : Plane} (hw : Reachable env w) {i : ℕ}
    {body : AgentPollRequest} {r : RunResponse} (h : Handed w i body r) :
    ∃ job slot, Seated w.store job body.agentId slot ∧ r = runResponse job body.agentId slot := by
  obtain ⟨a, hi, hreq⟩ := h
  obtain ⟨body', job, slot, hbody, hs, hr⟩ := hw.seated hi rfl
  have hsame : body' = body := by simpa [hreq] using hbody.symm
  subst hsame
  exact ⟨job, slot, hs, hr⟩

namespace WorldInv
variable {env : Env} {w : World} {job job' : JobRow} {agentId agentId' : String}
  {slot slot' : Option ℕ}

/-- Two seats of one job were computed from the same terms. -/
theorem terms_eq (h : WorldInv env w) (hs : Seated w job agentId slot)
    (hs' : Seated w job' agentId' slot') (hid : job.jobId = job'.jobId) :
    job.toJobTerms = job'.toJobTerms := by
  obtain ⟨j, hj, hterms⟩ := hs.known
  obtain ⟨j', hj', hterms'⟩ := hs'.known
  have hsame : j.jobId = j'.jobId := by
    rw [congrArg JobTerms.jobId hterms, congrArg JobTerms.jobId hterms']
    exact hid
  rw [← hterms, ← hterms']
  exact h.registry.eq_of_jobId (terms_mem hj) (terms_mem hj') hsame

/-- The window in a response is computed from the terms alone. -/
theorem window_eq (h : WorldInv env w) (hs : Seated w job agentId slot)
    (hs' : Seated w job' agentId' slot') (hid : job.jobId = job'.jobId) :
    job.stopAt = job'.stopAt := by
  have hterms := h.terms_eq hs hs' hid
  rw [hs.window, hs'.window, congrArg JobTerms.startAt hterms, congrArg JobTerms.duration hterms]

/-- An agent has one seat in a job, so it has one slot. -/
theorem slot_eq (h : WorldInv env w) (hs : Seated w job agentId slot)
    (hs' : Seated w job' agentId slot') (hid : job.jobId = job'.jobId) : slot = slot' := by
  obtain ⟨r, hr, hjob, hagent, hslot⟩ := hs.row
  obtain ⟨r', hr', hjob', hagent', hslot'⟩ := hs'.row
  have hspawn : r.spawnId = r'.spawnId := by
    rw [h.registry.named _ (seat_mem hr), h.registry.named _ (seat_mem hr')]
    simp only [hjob, hjob', hagent, hagent', hid]
  rw [← hslot, ← hslot', h.spawn_eq hr hr' hspawn]

/-- Validation bounds the workers of every job by the deployment's maximum. -/
theorem workers_le (h : WorldInv env w) (hs : Seated w job agentId slot) {cap : ℕ}
    (hcap : cap ∈ maxWorkersPerAgent env) : job.workersPerAgent ≤ cap := by
  obtain ⟨j, hj, hterms⟩ := hs.known
  obtain ⟨spec, uuid, he⟩ := h.registry.accepted _ (terms_mem hj)
  have hworkers : job.workersPerAgent = spec.workersPerAgent :=
    congrArg JobTerms.workersPerAgent (hterms.symm.trans he)
  rw [hworkers]
  exact spec.workers_le_cap cap hcap

end WorldInv

theorem Seated.start_le_stop {w : World} {job : JobRow} {agentId : String} {slot : Option ℕ}
    (hs : Seated w job agentId slot) : job.startAt ≤ job.stopAt := by
  rw [hs.window, stopAtOf]
  have hnonneg := Int.natCast_nonneg job.duration
  omega

/-- In every reachable state any two run responses for one job carry the same
window, workers and mode, the window is in order and the workers are within the
deployment's maximum; and two responses to one agent are the same response. -/
theorem run_responses_agree {env : Env} {w : Plane} (hw : Reachable env w) {i i' : ℕ}
    {body body' : AgentPollRequest} {r r' : RunResponse} (h : Handed w i body r)
    (h' : Handed w i' body' r') (hjob : r.jobId = r'.jobId) :
    r.startAtEpochMs = r'.startAtEpochMs ∧ r.stopAtEpochMs = r'.stopAtEpochMs ∧
    r.workers = r'.workers ∧ r.unthrottled = r'.unthrottled ∧
    r.startAtEpochMs ≤ r.stopAtEpochMs ∧
    (∀ cap ∈ maxWorkersPerAgent env, r.workers ≤ cap) ∧
    (body.agentId = body'.agentId → r = r') := by
  obtain ⟨job, slot, hs, rfl⟩ := hw.handed h
  obtain ⟨job', slot', hs', rfl⟩ := hw.handed h'
  have hid : job.jobId = job'.jobId := hjob
  have hterms := hw.inv.terms_eq hs hs' hid
  have hstop := hw.inv.window_eq hs hs' hid
  refine ⟨congrArg JobTerms.startAt hterms, hstop, congrArg JobTerms.workersPerAgent hterms, ?_,
    hs.start_le_stop, fun cap hcap => hw.inv.workers_le hs hcap, fun hagent => ?_⟩
  · simp only [runResponse, hterms]
  · have hslot : slot = slot' := hw.inv.slot_eq (hagent ▸ hs) hs' hid
    simp only [runResponse, hterms, hstop, hslot, hagent]

/-- The run response that thread `i` has been answered with. -/
def runResponse? (v : Plane) (i : ℕ) : Option RunResponse :=
  match v.threads[i]? with
  | some ⟨_, some (.done (.poll (.run r)))⟩ => some r
  | _ => none

theorem answered_of_runResponse? {v : Plane} {i : ℕ} {resp : RunResponse}
    (h : runResponse? v i = some resp) :
    ∃ a, v.threads[i]? = some ⟨a, some (.done (.poll (.run resp)))⟩ := by
  unfold runResponse? at h
  split at h
  · obtain rfl := Option.some.inj h
    exact ⟨_, by assumption⟩
  · cases h

theorem handed_of_runResponse? {v : Plane} {i : ℕ} {body : AgentPollRequest} {r : RunResponse}
    (h : runResponse? v i = some r)
    (hreq : (v.threads[i]?.map fun u => u.request.request) = some (.poll body)) :
    Handed v i body r := by
  obtain ⟨a, ha⟩ := answered_of_runResponse? h
  rw [ha] at hreq
  exact ⟨a, ha, Option.some.inj hreq⟩

/-- Agent `a` polls twice; the second handler holds the job row when an operator
stops the job, and answers after the stop. -/
def pollsAroundStop : List (Action Arrival ℕ) :=
  .arrive (startOf 5 2 1 0) :: serve 3 0 ++ .arrive (pollOf "a") :: serve 6 1 ++
    .arrive (pollOf "a") :: serve 1 2 ++
    .arrive (stopOf sampleUuid.text) :: serve 2 3 ++ serve 3 2

theorem run_responses_agree_stopped : ∃ (w : Plane) (r r' : RunResponse),
    Handed w 1 ⟨some "key", "a", none⟩ r ∧ Handed w 2 ⟨some "key", "a", none⟩ r' ∧
    statusAt 0 .stopping w = true ∧ r = r' := by
  obtain ⟨w, hrun, hw⟩ := (controlPlane bareEnv).exists_run_of_replay
    (w := idlePlane 0) (C := fun _ _ => True) (fun _ _ => true) (fun _ _ _ => trivial)
    pollsAroundStop (fun w => statusAt 0 .stopping w ∧
      (runResponse? w 1).isSome ∧ (runResponse? w 2).isSome ∧
      (runResponse? w 1).map (fun r => r.jobId) = (runResponse? w 2).map (fun r => r.jobId) ∧
      (w.threads[1]?.map fun u => u.request.request) = some (pollOf "a").request ∧
      (w.threads[2]?.map fun u => u.request.request) = some (pollOf "a").request)
    (by decide +kernel)
  obtain ⟨hstop, h1, h2, hjob, hreq1, hreq2⟩ := of_decide_eq_true hw
  obtain ⟨r, hr⟩ := Option.isSome_iff_exists.mp h1
  obtain ⟨r', hr'⟩ := Option.isSome_iff_exists.mp h2
  have hid : r.jobId = r'.jobId := by simpa [hr, hr'] using hjob
  have h := handed_of_runResponse? hr hreq1
  have h' := handed_of_runResponse? hr' hreq2
  have hagree := run_responses_agree ⟨0, hrun⟩ h h' hid
  exact ⟨w, r, r', h, h', hstop, hagree.2.2.2.2.2.2 rfl⟩

end R2Bench
