import R2Bench.Orchestrator

/-!
# What a statement can change

Two facts about a single statement carry every run-level result. It only lets
rows evolve: identities and terms stay, job statuses move forward and no spawn
becomes running again. And it keeps the identity of all rows, unless it is the
`INSERT` of a job or of a spawn that succeeds.
-/
namespace R2Bench
open Interleaving Tables

/-- How the row of one job may change. -/
structure JobStep (j j' : JobRow) : Prop where
  terms : j'.toJobTerms = j.toJobTerms
  createdAt : j'.createdAt = j.createdAt
  status : Forward JobStatus.rank j.status j'.status
  window : j'.status.isActive = true → j'.stopAt = j.stopAt

/-- How the row of one spawn may change. -/
structure SpawnStep (r r' : SpawnRow) : Prop where
  seat : r'.toSpawnSeat = r.toSpawnSeat
  status : r'.status = .running → r.status = .running

namespace JobStep

theorem refl (j : JobRow) : JobStep j j := ⟨rfl, rfl, .refl _, fun _ => rfl⟩

theorem jobId {j j' : JobRow} (h : JobStep j j') : j'.jobId = j.jobId :=
  congrArg JobTerms.jobId h.terms

theorem active {j j' : JobRow} (h : JobStep j j') (ha : j'.status.isActive = true) :
    j.status.isActive = true := by
  rw [JobStatus.isActive_iff_rank] at ha ⊢
  exact h.status.rank_le.trans ha

theorem terminal {j j' : JobRow} (h : JobStep j j') (ht : j.status.isTerminal = true) :
    j'.status = j.status := by
  rw [JobStatus.isTerminal_iff_rank] at ht
  exact (h.status.eq_of_top (j'.status.rank_le.trans ht)).symm

theorem trans {j₁ j₂ j₃ : JobRow} (h : JobStep j₁ j₂) (h' : JobStep j₂ j₃) : JobStep j₁ j₃ where
  terms := h'.terms.trans h.terms
  createdAt := h'.createdAt.trans h.createdAt
  status := h.status.trans h'.status
  window ha := (h'.window ha).trans (h.window (h'.active ha))

/-- An update of the status alone, forward. -/
theorem setStatus {j : JobRow} {s : JobStatus} (h : Forward JobStatus.rank j.status s) :
    JobStep j { j with status := s } := ⟨rfl, rfl, h, fun _ => rfl⟩

end JobStep

namespace SpawnStep

theorem refl (r : SpawnRow) : SpawnStep r r := ⟨rfl, id⟩

theorem trans {r₁ r₂ r₃ : SpawnRow} (h : SpawnStep r₁ r₂) (h' : SpawnStep r₂ r₃) :
    SpawnStep r₁ r₃ := ⟨h'.seat.trans h.seat, fun hr => h.status (h'.status hr)⟩

theorem spawnId {r r' : SpawnRow} (h : SpawnStep r r') : r'.spawnId = r.spawnId :=
  congrArg SpawnSeat.spawnId h.seat

theorem jobId {r r' : SpawnRow} (h : SpawnStep r r') : r'.jobId = r.jobId :=
  congrArg SpawnSeat.jobId h.seat

theorem agentId {r r' : SpawnRow} (h : SpawnStep r r') : r'.agentId = r.agentId :=
  congrArg SpawnSeat.agentId h.seat

theorem slot {r r' : SpawnRow} (h : SpawnStep r r') : r'.slot = r.slot :=
  congrArg SpawnSeat.slot h.seat

end SpawnStep

/-- What every step of the control plane guarantees. -/
structure Evolves (w w' : World) : Prop where
  jobs : Grows JobStep w.db.jobs w'.db.jobs
  spawns : Grows SpawnStep w.db.spawns w'.db.spawns
  clock : w.clock ≤ w'.clock

namespace Evolves

theorem refl (w : World) : Evolves w w :=
  ⟨.refl JobStep.refl _, .refl SpawnStep.refl _, le_rfl⟩

theorem trans {w₁ w₂ w₃ : World} (h : Evolves w₁ w₂) (h' : Evolves w₂ w₃) : Evolves w₁ w₃ :=
  ⟨h.jobs.trans JobStep.trans h'.jobs, h.spawns.trans SpawnStep.trans h'.spawns,
    h.clock.trans h'.clock⟩

theorem setJobStatus {p : JobRow → Bool} {s : JobStatus}
    (h : ∀ j, p j = true → Forward JobStatus.rank j.status s) (w : World) :
    Evolves w { w with db := w.db.setJobStatus p s } :=
  ⟨.update JobStep.refl (fun j hj => .setStatus (h j hj)) _, .refl SpawnStep.refl _, le_rfl⟩

theorem setSpawnStatus {p : SpawnRow → Bool} {s : SpawnStatus} (h : s ≠ .running) (w : World) :
    Evolves w { w with db := w.db.setSpawnStatus p s } := by
  refine ⟨.refl JobStep.refl _, .update SpawnStep.refl (fun r _ => ?_) _, le_rfl⟩
  exact ⟨rfl, fun hr => absurd hr h⟩

theorem drift (d : ℕ) (w : World) : Evolves w { w with clock := w.clock + d } :=
  ⟨.refl JobStep.refl _, .refl SpawnStep.refl _, by simp⟩

end Evolves

theorem forward_of_open {s s' : JobStatus} (h : s.isTerminal = false) (hs : s'.isTerminal = true) :
    Forward JobStatus.rank s s' := by
  cases s <;> cases s' <;> simp_all [JobStatus.isTerminal, Forward, JobStatus.rank]

theorem forward_stopping {s : JobStatus} (h : s.isTerminal = false) :
    Forward JobStatus.rank s .stopping := by
  cases s <;> simp_all [JobStatus.isTerminal, Forward, JobStatus.rank]

/-- Every statement lets rows evolve, whatever values it was bound with. -/
theorem Statement.exec_evolves (st : Statement) (w : World) :
    Evolves w (st.exec w).2 := by
  cases st with
  | dateNow | findUnfinishedJob | findActiveJob | selectSpawn | selectSlot | selectStatus
  | countRunning | selectExpired | countSpawns => exact .refl w
  | insertJob terms stopAt =>
    simp only [exec, Database.insertJob]
    split_ifs
    · exact .refl w
    · exact ⟨.append JobStep.refl _ _, .refl SpawnStep.refl _, le_rfl⟩
  | touchSpawn now spawnId =>
    refine ⟨.refl JobStep.refl _, .update SpawnStep.refl (fun r _ => ?_) _, le_rfl⟩
    exact ⟨rfl, fun h => h⟩
  | claimSlot c =>
    rcases w.db.claimSlot_cases c with ⟨h, -⟩ | ⟨h, -⟩ | ⟨h, -⟩ <;>
      simp only [exec, h, World.attempt]
    · exact .refl w
    · exact .refl w
    · exact ⟨.refl JobStep.refl _, .append SpawnStep.refl _ _, le_rfl⟩
  | markRunning jobId =>
    refine .setJobStatus (fun j hj => ?_) w
    simp only [Bool.decide_and, Bool.and_eq_true, decide_eq_true_eq] at hj
    exact .inr (by rw [hj.2]; decide)
  | requestStop now jobId =>
    refine ⟨.update JobStep.refl (fun j hj => ?_) _, .refl SpawnStep.refl _, le_rfl⟩
    simp only [Bool.decide_and, Bool.and_eq_true, decide_eq_true_eq, Bool.not_eq_true'] at hj
    exact ⟨rfl, rfl, forward_stopping hj.2, by simp [JobStatus.isActive]⟩
  | recordMetrics metricId report now =>
    simp only [exec, Database.recordMetrics]
    split_ifs
    · exact .refl w
    · refine ⟨.refl JobStep.refl _, .update SpawnStep.refl (fun r _ => ?_) _, le_rfl⟩
      exact ⟨rfl, fun h => h⟩
  | failSpawn spawnId jobId =>
    refine (Evolves.setSpawnStatus (by simp) w).trans (.setJobStatus (fun j hj => ?_) _)
    simp only [Bool.decide_and, Bool.and_eq_true, decide_eq_true_eq, Bool.decide_eq_true] at hj
    refine forward_of_open ?_ rfl
    cases hs : j.status <;> simp_all [JobStatus.isActive, JobStatus.isTerminal]
  | finishSpawn outcome spawnId => exact .setSpawnStatus outcome.2 w
  | closeJob outcome jobId =>
    refine .setJobStatus (fun j hj => ?_) w
    simp only [Bool.decide_and, Bool.and_eq_true, decide_eq_true_eq, Bool.not_eq_true'] at hj
    exact forward_of_open hj.2 outcome.2
  | failStale before => exact .setSpawnStatus (by simp) w
  | finaliseJob outcome jobId =>
    refine (Evolves.setSpawnStatus (by simp) w).trans (.setJobStatus (fun j hj => ?_) _)
    simp only [Bool.decide_and, Bool.and_eq_true, decide_eq_true_eq, Bool.not_eq_true'] at hj
    exact forward_of_open hj.2 outcome.2
  | failAbandoned before =>
    refine .setJobStatus (fun j hj => ?_) w
    simp only [Database.isAbandoned, decide_eq_true_eq] at hj
    exact forward_of_open (by rw [hj.1]; rfl) rfl
  | closeQuiet =>
    refine .setJobStatus (fun j hj => ?_) w
    simp only [Database.isQuiet, decide_eq_true_eq] at hj
    exact forward_of_open (by rw [hj.1]; rfl) rfl

/-- The same rows up to the columns that statements update. -/
structure SameRows (db db' : Database) : Prop where
  jobs : db'.jobs.map JobRow.toJobTerms = db.jobs.map JobRow.toJobTerms
  spawns : db'.spawns.map SpawnRow.toSpawnSeat = db.spawns.map SpawnRow.toSpawnSeat

namespace SameRows

theorem refl (db : Database) : SameRows db db := ⟨rfl, rfl⟩

theorem trans {db₁ db₂ db₃ : Database} (h : SameRows db₁ db₂) (h' : SameRows db₂ db₃) :
    SameRows db₁ db₃ := ⟨h'.jobs.trans h.jobs, h'.spawns.trans h.spawns⟩

theorem setJobStatus (p : JobRow → Bool) (s : JobStatus) (db : Database) :
    SameRows db (db.setJobStatus p s) := by
  refine ⟨map_updateWhere JobRow.toJobTerms (fun j => ?_) _, rfl⟩
  rfl

theorem setSpawnStatus (p : SpawnRow → Bool) (s : SpawnStatus) (db : Database) :
    SameRows db (db.setSpawnStatus p s) := by
  refine ⟨rfl, map_updateWhere SpawnRow.toSpawnSeat (fun r => ?_) _⟩
  rfl

end SameRows

/-- A statement keeps the rows, or is one of the two `INSERT`s and adds one. -/
theorem Statement.exec_rows (st : Statement) (w : World) :
    SameRows w.db (st.exec w).2.db ∨
    (∃ terms stopAt, st = .insertJob terms stopAt ∧ (∀ j ∈ w.db.jobs, j.jobId ≠ terms.jobId) ∧
      (st.exec w).2.db = { w.db with
        jobs := w.db.jobs ++ [Database.newJob terms stopAt (w.clock / 1000)] }) ∨
    (∃ c, st = .claimSlot c ∧ w.db.Claimable c ∧
      (st.exec w).2.db = { w.db with
        spawns := w.db.spawns ++ [Database.claimRow c (w.db.spawnsOf c.jobId).length] }) := by
  cases st with
  | dateNow | findUnfinishedJob | findActiveJob | selectSpawn | selectSlot | selectStatus
  | countRunning | selectExpired | countSpawns => exact .inl (.refl _)
  | insertJob terms stopAt =>
    by_cases hex : ∃ j ∈ w.db.jobs, j.jobId = terms.jobId
    · left
      simp only [exec, Database.insertJob, if_pos hex, World.attempt]
      exact .refl _
    · refine .inr (.inl ⟨terms, stopAt, rfl, fun j hj he => hex ⟨j, hj, he⟩, ?_⟩)
      simp only [exec, Database.insertJob, if_neg hex, World.attempt]
  | claimSlot c =>
    rcases w.db.claimSlot_cases c with ⟨h, -⟩ | ⟨h, -⟩ | ⟨h, hc⟩
    · left
      simp only [exec, h, World.attempt]
      exact .refl _
    · left
      simp only [exec, h, World.attempt]
      exact .refl _
    · exact .inr (.inr ⟨c, rfl, hc, by simp only [exec, h, World.attempt]⟩)
  | recordMetrics metricId report now =>
    left
    simp only [exec, Database.recordMetrics]
    split_ifs
    · exact .refl _
    · refine ⟨rfl, map_updateWhere SpawnRow.toSpawnSeat (fun r => ?_) _⟩
      rfl
  | touchSpawn now spawnId =>
    refine .inl ⟨rfl, map_updateWhere SpawnRow.toSpawnSeat (fun r => ?_) _⟩
    rfl
  | requestStop now jobId =>
    refine .inl ⟨map_updateWhere JobRow.toJobTerms (fun j => ?_) _, rfl⟩
    rfl
  | failSpawn spawnId jobId =>
    exact .inl ((SameRows.setSpawnStatus _ _ _).trans (.setJobStatus _ _ _))
  | finaliseJob outcome jobId =>
    exact .inl ((SameRows.setSpawnStatus _ _ _).trans (.setJobStatus _ _ _))
  | finishSpawn | failStale => exact .inl (.setSpawnStatus _ _ _)
  | markRunning | closeJob | failAbandoned | closeQuiet => exact .inl (.setJobStatus _ _ _)

/-- Only `startJob`'s `INSERT` adds a job. -/
theorem Statement.exec_jobs_length (st : Statement) (w : World)
    (h : ∀ terms stopAt, st ≠ .insertJob terms stopAt) :
    (st.exec w).2.db.jobs.length = w.db.jobs.length := by
  rcases st.exec_rows w with hs | ⟨terms, stopAt, he, -⟩ | ⟨c, -, -, hdb⟩
  · simpa using congrArg List.length hs.jobs
  · exact absurd he (h terms stopAt)
  · rw [hdb]

end R2Bench
