import R2Bench.Registry

/-!
# The contract of the control plane

Between any two statements of a handler the others let rows evolve and keep the
registry. In return a handler binds the two `INSERT`s to values it has read or
validated, and a run response names a seat that its agent holds.
-/
namespace R2Bench
open Interleaving Tables

/-- What the values bound to an `INSERT` satisfy. -/
def Statement.Pre (env : Env) : Statement → World → Prop
  | .insertJob terms stopAt, _ => ∃ (spec : JobSpec env) (uuid : Uuid) (startAt : ℤ),
      terms = spec.terms uuid.text startAt ∧ stopAt = stopAtOf startAt spec.duration
  | .claimSlot c, w => c.spawnId = spawnIdOf c.jobId c.agentId ∧
      ∃ j ∈ w.db.jobs, j.jobId = c.jobId ∧ j.agents = c.agents
  | _, _ => True

/-- The seat behind a run response: the job is known with the terms that the
response was computed from, and the agent's row has the slot. -/
structure Seated (w : World) (job : JobRow) (agentId : String) (slot : Option ℕ) : Prop where
  known : ∃ j ∈ w.db.jobs, j.toJobTerms = job.toJobTerms
  window : job.stopAt = stopAtOf job.startAt job.duration
  row : ∃ r ∈ w.db.spawns, r.jobId = job.jobId ∧ r.agentId = agentId ∧ r.slot = slot

/-- What a reply guarantees from then on. -/
def Reply.Post (a : Arrival) : Reply → World → Prop
  | .poll (.run r), w => ∃ body job slot, a.request = .poll body ∧
      Seated w job body.agentId slot ∧ r = runResponse job body.agentId slot
  | _, _ => True

def planeContract (env : Env) : Contract (controlPlane env) where
  Inv := WorldInv env
  Rely := Evolves
  Pre := Statement.Pre env
  Post := Reply.Post

theorem Evolves.known {w w' : World} (h : Evolves w w') {t : JobTerms}
    (hj : ∃ j ∈ w.db.jobs, j.toJobTerms = t) : ∃ j ∈ w'.db.jobs, j.toJobTerms = t := by
  obtain ⟨j, hj, rfl⟩ := hj
  obtain ⟨j', hj', hs⟩ := h.jobs.mem hj
  exact ⟨j', hj', hs.terms⟩

theorem Seated.evolves {w w' : World} {job : JobRow} {agentId : String} {slot : Option ℕ}
    (h : Seated w job agentId slot) (he : Evolves w w') : Seated w' job agentId slot := by
  obtain ⟨r, hr, hjob, hagent, hslot⟩ := h.row
  obtain ⟨r', hr', hs⟩ := he.spawns.mem hr
  exact ⟨he.known h.known, h.window, r', hr', hs.jobId.trans hjob, hs.agentId.trans hagent,
    hs.slot.trans hslot⟩

namespace WorldInv
variable {env : Env} {w : World}

/-- A statement that keeps all rows keeps the invariant. -/
theorem sameRows {w' : World} (h : WorldInv env w) (hs : SameRows w.db w'.db)
    (he : Evolves w w') : WorldInv env w' := by
  refine ⟨by rw [hs.jobs, hs.spawns]; exact h.registry, fun j hj ha => ?_⟩
  have hlen : w'.db.jobs.length ≤ w.db.jobs.length := by
    simpa using (congrArg List.length hs.jobs).le
  obtain ⟨j₀, hj₀, hstep⟩ := he.jobs.mem_back hlen hj
  have hterms := hstep.terms
  rw [hstep.window ha, h.window j₀ hj₀ (hstep.active ha)]
  simp only [hterms]

/-- Every statement bound as its handlers bind it keeps the invariant. -/
theorem exec {st : Statement} (h : WorldInv env w) (hpre : st.Pre env w) :
    WorldInv env (st.exec w).2 := by
  rcases st.exec_rows w with hs | ⟨terms, stopAt, rfl, hnew, hdb⟩ | ⟨c, rfl, hc, hdb⟩
  · exact h.sameRows hs (st.exec_evolves w)
  · obtain ⟨spec, uuid, startAt, rfl, rfl⟩ := hpre
    refine ⟨?_, fun j hj ha => ?_⟩
    · rw [hdb]
      simp only [List.map_append, List.map_cons, List.map_nil]
      apply h.registry.insertJob spec uuid startAt
      intro t ht
      obtain ⟨j, hj, rfl⟩ := List.mem_map.mp ht
      exact hnew j hj
    · rw [hdb] at hj
      rcases List.mem_append.mp hj with hj | hj
      · exact h.window j hj ha
      · obtain rfl := List.mem_singleton.mp hj
        rfl
  · obtain ⟨hname, j, hj, hid, hagents⟩ := hpre
    refine ⟨?_, by rw [hdb]; exact h.window⟩
    rw [hdb]
    simp only [List.map_append, List.map_cons, List.map_nil]
    have hcount : (seatsOf (w.db.spawns.map SpawnRow.toSpawnSeat) j.jobId).length =
        (w.db.spawnsOf c.jobId).length := by rw [Database.seatsOf_map, List.length_map, hid]
    refine h.registry.claim (terms_mem hj) hid.symm (hname.trans (by rw [hid]; rfl)) ?_ ?_ ?_
    · rw [hcount]
      rfl
    · rw [hcount, hagents]
      exact hc.1
    · intro s hs
      obtain ⟨r, hr, rfl⟩ := List.mem_map.mp hs
      exact hc.2 r hr

theorem drift {d : ℕ} (h : WorldInv env w) : WorldInv env { w with clock := w.clock + d } :=
  ⟨h.registry, h.window⟩

/-- A row read under the spawn id of a known job is the agent's own. -/
theorem seated {job : JobRow} {agentId : String} {r : SpawnRow} (h : WorldInv env w)
    (hknown : ∃ j ∈ w.db.jobs, j.toJobTerms = job.toJobTerms)
    (hwin : job.stopAt = stopAtOf job.startAt job.duration)
    (hr : w.db.spawn? (spawnIdOf job.jobId agentId) = some r) : Seated w job agentId r.slot := by
  obtain ⟨hmem, hid⟩ := Database.spawn?_mem hr
  obtain ⟨j, hj, hterms⟩ := hknown
  have hjob : job.jobId = j.jobId := (congrArg JobTerms.jobId hterms).symm
  rw [hjob] at hid
  obtain ⟨h1, h2⟩ := h.registry.seat_of_spawnId (terms_mem hj) (seat_mem hmem) hid
  exact ⟨⟨j, hj, hterms⟩, hwin, r, hmem, h1.trans hjob.symm, h2, rfl⟩

end WorldInv

section Handlers
variable {env : Env} {a : Arrival} {w : World}

theorem wp_grantSlot {job : JobRow} {body : AgentPollRequest} {slot : Option ℕ}
    (ha : a.request = .poll body) (h : Seated w job body.agentId slot) :
    (planeContract env).Holds a (grantSlot job body.agentId slot) w := by
  have hdone : ∀ v, Seated v job body.agentId slot → (planeContract env).Holds a
      (.done (.poll (.run (runResponse job body.agentId slot)))) v := fun v hv w' _ he =>
    ⟨body, job, slot, ha, hv.evolves he, rfl⟩
  unfold grantSlot
  split_ifs
  · intro w' _ he
    exact ⟨trivial, hdone _ ((h.evolves he).evolves (Statement.exec_evolves _ _))⟩
  · exact hdone w h

theorem wp_claimAndGrant {job : JobRow} {body : AgentPollRequest} {now : ℤ}
    (ha : a.request = .poll body) (hknown : ∃ j ∈ w.db.jobs, j.toJobTerms = job.toJobTerms)
    (hwin : job.stopAt = stopAtOf job.startAt job.duration) :
    (planeContract env).Holds a (claimAndGrant job body now) w := by
  simp only [claimAndGrant, await_bind, Prog.pure_eq]
  intro w₁ _ he₁
  have hknown₁ := he₁.known hknown
  obtain ⟨j, hj, hterms⟩ := hknown₁
  refine ⟨⟨rfl, j, hj, congrArg JobTerms.jobId hterms, congrArg JobTerms.agents hterms⟩, ?_⟩
  have hclaim := Statement.exec_evolves (.claimSlot
    { spawnId := spawnIdOf job.jobId body.agentId, jobId := job.jobId, agentId := body.agentId,
      region := body.region.getD "unknown", now, agents := job.agents }) w₁
  dsimp only [controlPlane]
  split
  · exact fun _ _ _ => trivial
  · intro w₂ hi₂ he₂
    refine ⟨trivial, ?_⟩
    have hknown₂ := (hclaim.trans he₂).known ⟨j, hj, hterms⟩
    simp only [Statement.exec]
    cases hr : w₂.db.spawn? (spawnIdOf job.jobId body.agentId) with
    | none => exact fun _ _ _ => trivial
    | some r => exact wp_grantSlot ha (hi₂.seated hknown₂ hwin hr)

theorem wp_agentPoll {body : AgentPollRequest} (ha : a.request = .poll body) :
    (planeContract env).Holds a (agentPoll env a.tie body) w := by
  simp only [agentPoll, await_bind, Prog.pure_eq]
  split_ifs
  · exact fun _ _ _ => trivial
  · exact fun _ _ _ => trivial
  intro w₁ hi₁ _
  refine ⟨trivial, ?_⟩
  simp only [Statement.exec, controlPlane]
  cases hjob : w₁.db.findActiveJob a.tie with
  | none => exact fun _ _ _ => trivial
  | some job =>
    obtain ⟨hmem, hactive⟩ := Database.findActiveJob_mem hjob
    have hwin := hi₁.window job hmem hactive
    intro w₂ _ he₂
    refine ⟨trivial, ?_⟩
    have hknown₂ := he₂.known ⟨job, hmem, rfl⟩
    dsimp only
    split_ifs
    · exact fun _ _ _ => trivial
    intro w₃ hi₃ he₃
    refine ⟨trivial, ?_⟩
    have hknown₃ := he₃.known hknown₂
    simp only [Statement.exec]
    cases hr : w₃.db.spawn? (spawnIdOf job.jobId body.agentId) with
    | none => exact wp_claimAndGrant ha hknown₃ hwin
    | some r =>
      simp only [Option.map_some]
      split_ifs
      · exact fun _ _ _ => trivial
      · intro w₄ _ he₄
        have hseat := hi₃.seated hknown₃ hwin hr
        exact ⟨trivial, wp_grantSlot ha
          ((hseat.evolves he₄).evolves (Statement.exec_evolves _ _))⟩

theorem wp_startJob {req : JobStartRequest} :
    (planeContract env).Holds a (startJob env a.uuid a.tie req) w := by
  simp only [startJob, await_bind, Prog.pure_eq]
  cases validate env req with
  | error message => exact fun _ _ _ => trivial
  | ok spec =>
    intro w₁ _ _
    refine ⟨trivial, ?_⟩
    dsimp only
    split
    · exact fun _ _ _ => trivial
    · intro w₂ _ _
      refine ⟨trivial, fun w₃ _ _ => ⟨⟨spec, a.uuid, _, rfl, rfl⟩, ?_⟩⟩
      dsimp only
      split <;> exact fun _ _ _ => trivial

theorem wp_stopJob {body : WatchRequest} : (planeContract env).Holds a (stopJob body) w := by
  simp only [stopJob, await_bind, Prog.pure_eq]
  split_ifs
  · exact fun _ _ _ => trivial
  · exact fun _ _ _ => ⟨trivial, fun _ _ _ => ⟨trivial, fun _ _ _ => trivial⟩⟩

theorem wp_recordBenchmarkMetrics {metricId : String} {report : SpawnMetricsReport} :
    (planeContract env).Holds a (recordBenchmarkMetrics metricId report) w := by
  simp only [recordBenchmarkMetrics, await_bind, Prog.pure_eq]
  refine fun w₁ _ _ => ⟨trivial, fun w₂ _ _ => ⟨trivial, ?_⟩⟩
  dsimp only
  split <;> exact fun _ _ _ => trivial

theorem wp_completeBenchmarkSpawn {report : SpawnCompletionReport} :
    (planeContract env).Holds a (completeBenchmarkSpawn report) w := by
  simp only [completeBenchmarkSpawn, await_bind, Prog.pure_eq]
  split_ifs
  · exact fun _ _ _ => ⟨trivial, fun _ _ _ => trivial⟩
  · refine fun w₁ _ _ => ⟨trivial, fun w₂ _ _ => ⟨trivial, fun w₃ _ _ => ⟨trivial, ?_⟩⟩⟩
    dsimp only
    split_ifs
    · exact fun _ _ _ => trivial
    · exact fun _ _ _ => ⟨trivial, fun _ _ _ => trivial⟩

theorem wp_reapJobs : (planeContract env).Holds a reapJobs w := by
  simp only [reapJobs, await_bind]
  refine fun w₁ _ _ => ⟨trivial, fun w₂ _ _ => ⟨trivial, fun w₃ _ _ => ⟨trivial, ?_⟩⟩⟩
  apply Contract.Wp.bind Evolves.refl
  refine Contract.wp_of_uses ?_ ?_ (finaliseExpired_uses _ _) _
  · rintro st w ⟨jobId, rfl | ⟨outcome, rfl, -⟩⟩ <;> trivial
  · exact fun _ _ _ _ _ => ⟨trivial, fun _ _ _ => ⟨trivial, fun _ _ _ => trivial⟩⟩

theorem wp_handle : (planeContract env).Holds a (handle env a) w := by
  unfold handle
  cases ha : a.request with
  | start presented req =>
    dsimp only
    split_ifs
    · exact wp_startJob
    · exact fun _ _ _ => trivial
  | poll body => exact wp_agentPoll ha
  | stop presented body =>
    dsimp only
    split_ifs
    · exact wp_stopJob
    · exact fun _ _ _ => trivial
  | status body =>
    dsimp only
    split_ifs
    · exact fun _ _ _ => ⟨trivial, fun _ _ _ => trivial⟩
    · exact fun _ _ _ => trivial
  | metrics report =>
    dsimp only
    split_ifs
    · exact wp_recordBenchmarkMetrics
    · exact fun _ _ _ => trivial
  | complete report =>
    dsimp only
    split_ifs
    · exact wp_completeBenchmarkSpawn
    · exact fun _ _ _ => trivial
  | sweep => exact wp_reapJobs

end Handlers

theorem planeContract_valid (env : Env) : (planeContract env).Valid where
  refl := Evolves.refl
  trans := Evolves.trans
  exec st _ h hpre := ⟨h.exec hpre, st.exec_evolves _⟩
  drift d _ h := ⟨h.drift, .drift d _⟩
  handler _ _ _ := wp_handle

namespace Reachable
variable {env : Env} {w w' : Plane}

theorem satisfied (h : Reachable env w) : (planeContract env).Satisfied w := by
  obtain ⟨clock, hrun⟩ := h
  exact (planeContract_valid env).run hrun (Contract.satisfied_idle (WorldInv.idle env clock))

theorem inv (h : Reachable env w) : WorldInv env w.store := h.satisfied.1

/-- Along every run rows stay, keep their terms and move forward. -/
theorem evolves (h : Reachable env w) (hrun : (controlPlane env).FreeRun w w') :
    Evolves w.store w'.store := (planeContract_valid env).rely_run hrun h.satisfied

theorem evolves_step (h : Reachable env w) {a : Action Arrival ℕ}
    (hs : (controlPlane env).step w a = some w') : Evolves w.store w'.store :=
  h.evolves (System.Run.single _ trivial hs)

/-- Every run response given so far names a seat of the agent that asked. -/
theorem seated (h : Reachable env w) {i : ℕ} {u : Thread Statement Statement.Result Arrival Reply}
    {r : RunResponse} (hu : w.threads[i]? = some u) (hr : u.rest = some (.done (.poll (.run r)))) :
    ∃ body job slot, u.request.request = .poll body ∧ Seated w.store job body.agentId slot ∧
      r = runResponse job body.agentId slot :=
  (planeContract_valid env).post h.satisfied hu hr

end Reachable

end R2Bench
