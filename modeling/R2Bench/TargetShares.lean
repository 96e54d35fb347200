import R2Bench.AgentReports
import R2Bench.SlotAllocation

/-!
# The offered target

Slots are an initial segment, so the shares handed out for a job are the first
positions of an equal split; validation keeps every share of a throttled job
positive, and the runner then always starts its pacer.
-/
namespace R2Bench
open Interleaving Tables

/-- The `targetRPS` that run responses for a spawn carry. -/
def offered (job : JobRow) (r : SpawnRow) : ℕ := rpsForSlot job.rps job.agents (r.slot.getD 0)

namespace WorldInv
variable {env : Env} {w : World} {j : JobRow}

/-- The checks that the row of a job passed. -/
theorem spec (h : WorldInv env w) (hj : j ∈ w.db.jobs) : ∃ spec : JobSpec env,
    j.rps = spec.targetRPS ∧ j.agents = spec.agents ∧
      j.unthrottled = if spec.unthrottled then 1 else 0 := by
  obtain ⟨spec, uuid, he⟩ := h.registry.accepted _ (terms_mem hj)
  exact ⟨spec, congrArg JobTerms.rps he, congrArg JobTerms.agents he,
    congrArg JobTerms.unthrottled he⟩

theorem agents_pos (h : WorldInv env w) (hj : j ∈ w.db.jobs) : 0 < j.agents := by
  obtain ⟨spec, -, ha, -⟩ := h.spec hj
  rw [ha]
  exact spec.agents_pos

theorem agents_le_rps (h : WorldInv env w) (hj : j ∈ w.db.jobs) (hu : j.unthrottled ≠ 1) :
    j.agents ≤ j.rps := by
  obtain ⟨spec, hr, ha, hu'⟩ := h.spec hj
  rw [hr, ha]
  apply spec.agents_le_target
  cases he : spec.unthrottled
  · rfl
  · simp [hu', he] at hu

/-- What the spawns of a job are offered is an equal split over their slots. -/
theorem offered_eq (h : WorldInv env w) (hj : j ∈ w.db.jobs) (hrps : j.rps ≤ 2 ^ 53) :
    (w.db.spawnsOf j.jobId).map (offered j) =
      (List.range (w.db.spawnsOf j.jobId).length).map (Shares.share j.rps j.agents) := by
  have hshare : offered j = (fun s : Option ℕ => Shares.share j.rps j.agents (s.getD 0)) ∘
      fun r : SpawnRow => r.slot := by
    funext r
    exact rpsForSlot_eq_share (h.agents_pos hj) hrps
  rw [hshare, ← List.map_map, h.slots_eq hj, List.map_map]
  rfl

theorem offered_eq_share (h : WorldInv env w) (hj : j ∈ w.db.jobs) (hrps : j.rps ≤ 2 ^ 53)
    (r : SpawnRow) : offered j r = Shares.share j.rps j.agents (r.slot.getD 0) :=
  rpsForSlot_eq_share (h.agents_pos hj) hrps

theorem one_le_offered (h : WorldInv env w) (hj : j ∈ w.db.jobs) (hrps : j.rps ≤ 2 ^ 53)
    (hu : j.unthrottled ≠ 1) (r : SpawnRow) : 1 ≤ offered j r := by
  rw [h.offered_eq_share hj hrps]
  exact Shares.one_le_share (h.agents_pos hj) (h.agents_le_rps hj hu) _

/-- A run response for a job carries the share of one of its spawns. -/
theorem response (h : WorldInv env w) (hj : j ∈ w.db.jobs) {job : JobRow} {agentId : String}
    {slot : Option ℕ} (hs : Seated w job agentId slot)
    (hid : (runResponse job agentId slot).jobId = j.jobId) :
    ∃ r ∈ w.db.spawnsOf j.jobId, (runResponse job agentId slot).spawnId = r.spawnId ∧
      (runResponse job agentId slot).targetRPS = offered j r ∧
      (runResponse job agentId slot).unthrottled = decide (j.unthrottled = 1) := by
  obtain ⟨j', hj', hterms⟩ := hs.known
  have hsame : j'.toJobTerms = j.toJobTerms :=
    h.registry.eq_of_jobId (terms_mem hj') (terms_mem hj)
      ((congrArg JobTerms.jobId hterms).trans hid)
  have hjob : job.toJobTerms = j.toJobTerms := hterms.symm.trans hsame
  obtain ⟨r, hr, hrjob, hragent, hrslot⟩ := hs.row
  refine ⟨r, Database.mem_spawnsOf.mpr ⟨hr, hrjob.trans hid⟩, ?_, ?_, ?_⟩
  · rw [h.registry.named _ (seat_mem hr)]
    simp only [runResponse, hrjob, hragent]
  · simp only [runResponse, offered, hrslot, hjob]
  · simp only [runResponse, hjob]

end WorldInv

/-- The spawns of a job are never offered more than its target. For a throttled
job the offers add up to the target exactly when all slots are claimed, differ by
at most one, are at least one, and every run response starts the agent's pacer. -/
theorem offered_within_target {env : Env} {w : Plane} (hw : Reachable env w) {j : JobRow}
    (hj : j ∈ w.store.db.jobs) (hrps : j.rps ≤ 2 ^ 53) :
    ((w.store.db.spawnsOf j.jobId).map (offered j)).sum ≤ j.rps ∧
    (j.unthrottled ≠ 1 →
      (((w.store.db.spawnsOf j.jobId).map (offered j)).sum = j.rps ↔
        (w.store.db.spawnsOf j.jobId).length = j.agents) ∧
      (∀ r ∈ w.store.db.spawnsOf j.jobId, ∀ r' ∈ w.store.db.spawnsOf j.jobId,
        offered j r ≤ offered j r' + 1) ∧
      ∀ r ∈ w.store.db.spawnsOf j.jobId, 1 ≤ offered j r) ∧
    ∀ (i : ℕ) u resp, w.threads[i]? = some u → u.rest = some (.done (.poll (.run resp))) →
      resp.jobId = j.jobId →
      (∃ r ∈ w.store.db.spawnsOf j.jobId, resp.spawnId = r.spawnId ∧
        resp.targetRPS = offered j r) ∧
      (j.unthrottled ≠ 1 → ∀ maxWorkers,
        (Runner.run maxWorkers resp.assignment).tokens = some (resp.targetRPS : ℤ)) := by
  have hle := hw.inv.length_le_agents hj
  refine ⟨?_, fun hu => ⟨?_, fun r _ r' _ => ?_, fun r _ => ?_⟩, ?_⟩
  · rw [hw.inv.offered_eq hj hrps]
    exact Shares.sum_range_le hle
  · rw [hw.inv.offered_eq hj hrps]
    exact Shares.sum_range_eq_iff (hw.inv.agents_pos hj) (hw.inv.agents_le_rps hj hu) hle
  · rw [hw.inv.offered_eq_share hj hrps, hw.inv.offered_eq_share hj hrps]
    exact Shares.share_le_share_add_one _ _ _ _
  · exact hw.inv.one_le_offered hj hrps hu r
  · intro i u resp hi hresp hid
    obtain ⟨body, job, slot, -, hs, rfl⟩ := hw.seated hi hresp
    obtain ⟨r, hr, hspawn, htarget, hun⟩ := hw.inv.response hj hs hid
    refine ⟨⟨r, hr, hspawn, htarget⟩, fun hu maxWorkers => ?_⟩
    apply Runner.run_tokens (by simpa [RunResponse.assignment, hu] using hun)
    have hpos := hw.inv.one_le_offered hj hrps hu r
    simp only [RunResponse.assignment]
    omega

theorem offered_within_target_twoPolls : ∃ w j, Reachable bareEnv w ∧ j ∈ w.store.db.jobs ∧
    j.rps = 5 ∧ (w.store.db.spawnsOf j.jobId).length = 2 ∧
    ((w.store.db.spawnsOf j.jobId).map (offered j)).sum = 5 := by
  obtain ⟨w, hrun, hw⟩ := (controlPlane bareEnv).exists_run_of_replay
    (w := idlePlane 0) (C := fun _ _ => True) (fun _ _ => true) (fun _ _ _ => trivial) twoPolls
    (fun w => w.store.db.jobs.any fun j => j.rps = 5 ∧ j.agents = 2 ∧ j.unthrottled = 0 ∧
      (w.store.db.spawnsOf j.jobId).length = 2)
    (by decide +kernel)
  obtain ⟨j, hj, hprops⟩ := List.any_eq_true.mp hw
  obtain ⟨hrps, hagents, hu, hlen⟩ := of_decide_eq_true hprops
  have hr : Reachable bareEnv w := ⟨0, hrun⟩
  have hsum := ((offered_within_target hr hj (by omega)).2.1 (by omega)).1.mpr (by omega)
  exact ⟨w, j, hr, hj, hrps, hlen, hsum.trans hrps⟩

end R2Bench
