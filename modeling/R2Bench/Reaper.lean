import R2Bench.Serial
import R2Bench.Sweep

/-!
# Sweeps that nothing interleaves with

Run alone, a sweep is a function of the tables and the clock. It leaves the
tables settled: none of its four rules applies any more, at that instant. What
it makes of an active job depends only on the job's window, on whether it has a
spawn, and on the instant; a later sweep never decides otherwise.
-/
namespace R2Bench
open Interleaving Tables

theorem completed_isTerminal : JobStatus.completed.isTerminal = true := rfl

theorem failed_isTerminal : JobStatus.failed.isTerminal = true := rfl

namespace Database

/-- What the sweep decides for an expired job. -/
def expiredOutcome (db : Database) (jobId : String) : JobOutcome :=
  if (db.spawnsOf jobId).length > 0 then ⟨.completed, completed_isTerminal⟩
  else ⟨.failed, failed_isTerminal⟩

/-- The batches for the expired jobs, one after another. -/
def finaliseJobs (db : Database) : List String → Database
  | [] => db
  | jobId :: expired =>
    (db.finaliseJob (db.expiredOutcome jobId) jobId).finaliseJobs expired

/-- The tables after the staleness rule. -/
def afterStale (now : ℤ) (db : Database) : Database :=
  db.setSpawnStatus (isStale (now - SPAWN_STALE_AFTER_MS)) .failed

/-- The jobs that the second rule selects. -/
def expiredJobs (now : ℤ) (db : Database) : List String :=
  (db.jobs.filter (isExpired (now - JOB_FINALISE_GRACE_MS))).map fun j => j.jobId

/-- The tables after the first two rules. -/
def afterExpired (now : ℤ) (db : Database) : Database :=
  (db.afterStale now).finaliseJobs ((db.afterStale now).expiredJobs now)

/-- The tables after the first three rules. -/
def afterAbandoned (now : ℤ) (db : Database) : Database :=
  (db.afterExpired now).setJobStatus
    ((db.afterExpired now).isAbandoned (now - QUEUED_WITHOUT_AGENTS_TIMEOUT_MS)) .failed

/-- The tables after a sweep. -/
def afterSweep (now : ℤ) (db : Database) : Database :=
  (db.afterAbandoned now).setJobStatus (db.afterAbandoned now).isQuiet .stopped

end Database

/-- The tables after sweeps at the given instants, with nothing in between. -/
def sweeps (ticks : List ℤ) (db : Database) : Database :=
  ticks.foldl (fun db now => (reapJobs.run Statement.exec ⟨db, now⟩).2.db) db

theorem run_finaliseExpired (expired : List String) (finalised : ℕ) (w : World) :
    (finaliseExpired finalised expired).run Statement.exec w =
      (finalised + expired.length, { w with db := w.db.finaliseJobs expired }) := by
  induction expired generalizing finalised w with
  | nil => rfl
  | cons jobId expired ih =>
    simp only [finaliseExpired, await_bind, Prog.run_call]
    rw [ih]
    simp only [List.length_cons, Prod.mk.injEq]
    constructor
    · omega
    · rfl

/-- A sweep that runs alone, with the counts it answers. -/
theorem run_reapJobs (db : Database) (now : ℤ) :
    reapJobs.run Statement.exec ⟨db, now⟩ =
      (.swept ((db.afterStale now).expiredJobs now).length
        (db.spawns.countP (Database.isStale (now - SPAWN_STALE_AFTER_MS)))
        ((db.afterExpired now).jobs.countP
          ((db.afterExpired now).isAbandoned (now - QUEUED_WITHOUT_AGENTS_TIMEOUT_MS))),
        ⟨db.afterSweep now, now⟩) := by
  simp only [reapJobs, await_bind, Prog.run_call, Prog.run_bind, Statement.exec]
  rw [run_finaliseExpired, Nat.zero_add]
  rfl

/-! ## What the rules leave alone -/

theorem SameRows.length_spawnsOf {db db' : Database} (h : SameRows db db') (jobId : String) :
    (db'.spawnsOf jobId).length = (db.spawnsOf jobId).length := by
  have hseats := congrArg (fun seats => (seatsOf seats jobId).length) h.spawns
  simpa only [Database.seatsOf_map, List.length_map] using hseats

theorem SameRows.jobIds {db db' : Database} (h : SameRows db db') :
    (db'.jobs.map fun j => j.jobId) = db.jobs.map fun j => j.jobId := by
  have hids := congrArg (List.map JobTerms.jobId) h.jobs
  rwa [List.map_map, List.map_map] at hids

theorem sameRows_finaliseJob (db : Database) (outcome : JobOutcome) (jobId : String) :
    SameRows db (db.finaliseJob outcome jobId) :=
  (SameRows.setSpawnStatus _ _ db).trans (.setJobStatus _ _ _)

theorem sameRows_finaliseJobs (expired : List String) (db : Database) :
    SameRows db (db.finaliseJobs expired) := by
  induction expired generalizing db with
  | nil => exact .refl db
  | cons jobId expired ih => exact (sameRows_finaliseJob db _ jobId).trans (ih _)

theorem sameRows_afterExpired (now : ℤ) (db : Database) : SameRows db (db.afterExpired now) :=
  (SameRows.setSpawnStatus _ _ db).trans (sameRows_finaliseJobs _ _)

theorem sameRows_afterSweep (now : ℤ) (db : Database) : SameRows db (db.afterSweep now) :=
  (sameRows_afterExpired now db).trans ((SameRows.setJobStatus _ _ _).trans (.setJobStatus _ _ _))

theorem SameRows.expiredOutcome {db db' : Database} (h : SameRows db db') (jobId : String) :
    db'.expiredOutcome jobId = db.expiredOutcome jobId := by
  simp only [Database.expiredOutcome, h.length_spawnsOf]

namespace Database

/-- A row of `JOBS` after the batches: closed when it was selected and open. -/
def finaliseRow (db : Database) (expired : List String) (j : JobRow) : JobRow :=
  if j.jobId ∈ expired ∧ j.status.isTerminal = false then
    { j with status := (db.expiredOutcome j.jobId).1 }
  else j

theorem jobs_finaliseJobs (expired : List String) (db : Database) :
    (db.finaliseJobs expired).jobs = db.jobs.map (db.finaliseRow expired) := by
  induction expired generalizing db with
  | nil =>
    have hid : db.finaliseRow [] = id := by
      funext j
      simp [finaliseRow]
    rw [finaliseJobs, hid, List.map_id]
  | cons jobId expired ih =>
    rw [finaliseJobs, ih]
    have hjobs : (db.finaliseJob (db.expiredOutcome jobId) jobId).jobs =
        db.jobs.map fun j => if j.jobId = jobId ∧ j.status.isTerminal = false then
          { j with status := (db.expiredOutcome jobId).1 } else j := by
      simp [finaliseJob, setJobStatus, setSpawnStatus, updateWhere]
    rw [hjobs, List.map_map]
    apply List.map_congr_left
    intro j _
    have hsame := (sameRows_finaliseJob db (db.expiredOutcome jobId) jobId).expiredOutcome
    by_cases hopen : j.jobId = jobId ∧ j.status.isTerminal = false
    · have hclosed := (db.expiredOutcome jobId).2
      simp [finaliseRow, hopen, hclosed]
    · simp only [Function.comp_apply, if_neg hopen, finaliseRow, hsame, List.mem_cons]
      by_cases he : j.jobId = jobId
      · have hterm : ¬ j.status.isTerminal = false := fun h => hopen ⟨he, h⟩
        simp [hterm]
      · simp [he]

end Database

/-! ## Settled tables -/

/-- None of the four rules applies at the instant. -/
structure Settled (now : ℤ) (db : Database) : Prop where
  stale : NoneStale (now - SPAWN_STALE_AFTER_MS) db
  expired : ∀ j ∈ db.jobs, Database.isExpired (now - JOB_FINALISE_GRACE_MS) j = false
  abandoned : ∀ j ∈ db.jobs, db.isAbandoned (now - QUEUED_WITHOUT_AGENTS_TIMEOUT_MS) j = false
  quiet : ∀ j ∈ db.jobs, db.isQuiet j = false

/-- What the new status and the rows left alone do not satisfy, no row does. -/
theorem none_setJobStatus {p q : JobRow → Bool} {s : JobStatus} {db : Database}
    (hnew : ∀ j : JobRow, q { j with status := s } = false)
    (hold : ∀ j ∈ db.jobs, p j = false → q j = false) :
    ∀ j ∈ (db.setJobStatus p s).jobs, q j = false := by
  intro j hj
  obtain ⟨j₀, hj₀, rfl⟩ := mem_updateWhere.mp hj
  split_ifs with hp
  · exact hnew j₀
  · exact hold j₀ hj₀ (by simpa using hp)

theorem noneStale_finaliseJobs {before : ℤ} (expired : List String) {db : Database}
    (h : NoneStale before db) : NoneStale before (db.finaliseJobs expired) := by
  induction expired generalizing db with
  | nil => exact h
  | cons jobId expired ih => exact ih (h.setSpawnStatus _ (by simp))

/-- Every expired job was selected, so its batch has closed it. -/
theorem noneExpired_afterExpired (now : ℤ) (db : Database) :
    ∀ j ∈ (db.afterExpired now).jobs,
      Database.isExpired (now - JOB_FINALISE_GRACE_MS) j = false := by
  intro j hj
  rw [Database.afterExpired, Database.jobs_finaliseJobs] at hj
  obtain ⟨j₀, hj₀, rfl⟩ := List.mem_map.mp hj
  cases hexp : Database.isExpired (now - JOB_FINALISE_GRACE_MS) j₀ with
  | true =>
    have hmem : j₀.jobId ∈ (db.afterStale now).expiredJobs now :=
      List.mem_map_of_mem (List.mem_filter.mpr ⟨hj₀, hexp⟩)
    have hopen : j₀.status.isTerminal = false := by
      simp only [Database.isExpired, decide_eq_true_eq] at hexp
      simpa using hexp.1
    have hclosed := ((db.afterStale now).expiredOutcome j₀.jobId).2
    simp [Database.finaliseRow, hmem, hopen, Database.isExpired, hclosed]
  | false =>
    unfold Database.finaliseRow
    split_ifs
    · have hclosed := ((db.afterStale now).expiredOutcome j₀.jobId).2
      simp [Database.isExpired, hclosed]
    · exact hexp

theorem settled_afterSweep (now : ℤ) (db : Database) : Settled now (db.afterSweep now) where
  stale := noneStale_finaliseJobs _ (noneStale_failStale _ _)
  expired := by
    apply none_setJobStatus
    · simp [Database.isExpired, JobStatus.isTerminal]
    · intro j hj _
      refine none_setJobStatus ?_ (fun j hj _ => noneExpired_afterExpired now db j hj) j hj
      simp [Database.isExpired, JobStatus.isTerminal]
  abandoned := by
    apply none_setJobStatus
    · simp [Database.isAbandoned]
    · intro j hj _
      refine none_setJobStatus ?_ (fun j _ hp => hp) j hj
      simp [Database.isAbandoned]
  quiet := by
    apply none_setJobStatus
    · simp [Database.isQuiet]
    · exact fun j _ hp => hp

namespace Settled
variable {now : ℤ} {db : Database}

theorem afterStale (h : Settled now db) : db.afterStale now = db := by
  simp only [Database.afterStale, Database.setSpawnStatus, updateWhere_of_none h.stale]

theorem expiredJobs (h : Settled now db) : db.expiredJobs now = [] := by
  rw [Database.expiredJobs, List.map_eq_nil_iff, List.filter_eq_nil_iff]
  intro j hj
  simp [h.expired j hj]

theorem afterExpired (h : Settled now db) : db.afterExpired now = db := by
  rw [Database.afterExpired, h.afterStale, h.expiredJobs, Database.finaliseJobs]

theorem afterSweep (h : Settled now db) : db.afterSweep now = db := by
  have habandoned : db.afterAbandoned now = db := by
    rw [Database.afterAbandoned, h.afterExpired]
    simp only [Database.setJobStatus, updateWhere_of_none h.abandoned]
  rw [Database.afterSweep, habandoned]
  simp only [Database.setJobStatus, updateWhere_of_none h.quiet]

end Settled

/-- On settled tables a sweep finds nothing to do. -/
theorem run_reapJobs_of_settled {now : ℤ} {db : Database} (h : Settled now db) :
    reapJobs.run Statement.exec ⟨db, now⟩ = (.swept 0 0 0, ⟨db, now⟩) := by
  have hstale : db.spawns.countP (Database.isStale (now - SPAWN_STALE_AFTER_MS)) = 0 := by
    rw [List.countP_eq_zero]
    intro r hr
    simp [h.stale r hr]
  have habandoned : db.jobs.countP
      (db.isAbandoned (now - QUEUED_WITHOUT_AGENTS_TIMEOUT_MS)) = 0 := by
    rw [List.countP_eq_zero]
    intro j hj
    simp [h.abandoned j hj]
  rw [run_reapJobs, h.afterStale, h.afterExpired, h.afterSweep, h.expiredJobs, hstale, habandoned]
  rfl

/-- A second sweep at the instant of the first one changes nothing and counts nothing. -/
theorem sweep_idempotent (db : Database) (now : ℤ) :
    reapJobs.run Statement.exec (reapJobs.run Statement.exec ⟨db, now⟩).2 =
      (.swept 0 0 0, (reapJobs.run Statement.exec ⟨db, now⟩).2) := by
  rw [run_reapJobs db now]
  exact run_reapJobs_of_settled (settled_afterSweep now db)

/-! ## Missed ticks -/

/-- What the second rule makes of an expired job. -/
def expiredStatus (spawned : ℕ) : JobStatus := if spawned > 0 then .completed else .failed

/-- The status that a sweep at `now` leaves a job with that nobody is stopping. -/
def sweptStatus (now : ℤ) (spawned : ℕ) (j : JobRow) : JobStatus :=
  if Database.isExpired (now - JOB_FINALISE_GRACE_MS) j then expiredStatus spawned
  else if j.status = .queued ∧ j.startAt < now - QUEUED_WITHOUT_AGENTS_TIMEOUT_MS ∧ spawned = 0 then
    .failed
  else j.status

def sweptRow (now : ℤ) (spawned : ℕ) (j : JobRow) : JobRow :=
  { j with status := sweptStatus now spawned j }

theorem expiredStatus_terminal (spawned : ℕ) : (expiredStatus spawned).isTerminal = true := by
  unfold expiredStatus
  split_ifs <;> rfl

theorem sweptStatus_of_expired {now : ℤ} {j : JobRow} (spawned : ℕ)
    (h : Database.isExpired (now - JOB_FINALISE_GRACE_MS) j = true) :
    sweptStatus now spawned j = expiredStatus spawned := if_pos h

theorem sweptStatus_of_terminal (now : ℤ) (spawned : ℕ) {j : JobRow}
    (h : j.status.isTerminal = true) : sweptStatus now spawned j = j.status := by
  have hexp : ¬ Database.isExpired (now - JOB_FINALISE_GRACE_MS) j = true := by
    simp [Database.isExpired, h]
  have hqueued : j.status ≠ .queued := by
    intro he
    simp [he, JobStatus.isTerminal] at h
  rw [sweptStatus, if_neg hexp, if_neg fun hleft => hqueued hleft.1]

theorem sweptStatus_ne_stopping {now : ℤ} {spawned : ℕ} {j : JobRow} (h : j.status ≠ .stopping) :
    sweptStatus now spawned j ≠ .stopping := by
  unfold sweptStatus expiredStatus
  split_ifs <;> simp [h]

theorem isExpired_mono {before before' : ℤ} (hle : before ≤ before') {j : JobRow}
    (h : Database.isExpired before j = true) : Database.isExpired before' j = true := by
  simp only [Database.isExpired, decide_eq_true_eq] at h ⊢
  exact ⟨h.1, by omega⟩

/-- A later sweep decides as if the earlier one had not been: whichever rule closed
the job first, both give it the same outcome. -/
theorem sweptRow_sweptRow {now now' : ℤ} (hle : now ≤ now') (spawned : ℕ) (j : JobRow) :
    sweptRow now' spawned (sweptRow now spawned j) = sweptRow now' spawned j := by
  suffices hstatus :
      sweptStatus now' spawned (sweptRow now spawned j) = sweptStatus now' spawned j by
    simp only [sweptRow] at hstatus ⊢
    rw [hstatus]
  by_cases hexp : Database.isExpired (now - JOB_FINALISE_GRACE_MS) j = true
  · have hfirst : (sweptRow now spawned j).status = expiredStatus spawned :=
      sweptStatus_of_expired spawned hexp
    have hclosed : (sweptRow now spawned j).status.isTerminal = true := by
      rw [hfirst, expiredStatus_terminal]
    rw [sweptStatus_of_terminal now' spawned hclosed, hfirst,
      sweptStatus_of_expired spawned (isExpired_mono (by omega) hexp)]
  · by_cases hleft : j.status = .queued ∧
        j.startAt < now - QUEUED_WITHOUT_AGENTS_TIMEOUT_MS ∧ spawned = 0
    · have hfirst : (sweptRow now spawned j).status = .failed := by
        simp only [sweptRow, sweptStatus, if_neg hexp, if_pos hleft]
      have hclosed : (sweptRow now spawned j).status.isTerminal = true := by rw [hfirst]; rfl
      rw [sweptStatus_of_terminal now' spawned hclosed, hfirst]
      obtain ⟨hqueued, hstart, hnone⟩ := hleft
      have hstart' : j.startAt < now' - QUEUED_WITHOUT_AGENTS_TIMEOUT_MS := by omega
      unfold sweptStatus
      split_ifs with hlater hstill
      · rw [expiredStatus, if_neg (by omega)]
      · rfl
      · exact absurd ⟨hqueued, hstart', hnone⟩ hstill
    · have hsame : sweptRow now spawned j = j := by
        simp only [sweptRow, sweptStatus, if_neg hexp, if_neg hleft]
      rw [hsame]

/-- `JOB_ID` is the primary key of `JOBS`. -/
def JobKeys (db : Database) : Prop := (db.jobs.map fun j => j.jobId).Nodup

/-- The row of a job after the second rule. No other row has its id, so it was selected
exactly when it was expired itself. -/
theorem afterExpired_row {db : Database} (hkeys : JobKeys db) (now : ℤ) {i : ℕ} {j : JobRow}
    (hj : db.jobs[i]? = some j) : (db.afterExpired now).jobs[i]? = some
      (if Database.isExpired (now - JOB_FINALISE_GRACE_MS) j then
        { j with status := expiredStatus (db.spawnsOf j.jobId).length } else j) := by
  have hrow : (db.afterExpired now).jobs[i]? =
      some ((db.afterStale now).finaliseRow ((db.afterStale now).expiredJobs now) j) := by
    rw [Database.afterExpired, Database.jobs_finaliseJobs, List.getElem?_map]
    show db.jobs[i]?.map _ = _
    rw [hj, Option.map_some]
  rw [hrow, Database.finaliseRow]
  by_cases hexp : Database.isExpired (now - JOB_FINALISE_GRACE_MS) j = true
  · have hopen : j.status.isTerminal = false := by
      simp only [Database.isExpired, decide_eq_true_eq] at hexp
      simpa using hexp.1
    have hmem : j.jobId ∈ (db.afterStale now).expiredJobs now :=
      List.mem_map_of_mem (List.mem_filter.mpr ⟨List.mem_of_getElem? hj, hexp⟩)
    have hout : ((db.afterStale now).expiredOutcome j.jobId).1 =
        expiredStatus (db.spawnsOf j.jobId).length := by
      rw [Database.afterStale, (SameRows.setSpawnStatus _ _ db).expiredOutcome]
      unfold Database.expiredOutcome expiredStatus
      split_ifs <;> rfl
    rw [if_pos ⟨hmem, hopen⟩, if_pos hexp, hout]
  · have hout : j.jobId ∉ (db.afterStale now).expiredJobs now := by
      intro hmem
      obtain ⟨j', hj', hid⟩ := List.mem_map.mp hmem
      obtain ⟨hmem', hexp'⟩ := List.mem_filter.mp hj'
      have hsame : j' = j := List.inj_on_of_nodup_map hkeys hmem' (List.mem_of_getElem? hj) hid
      subst hsame
      exact hexp hexp'
    rw [if_neg fun h => hout h.1, if_neg hexp]

/-- The row of a job after a sweep that nothing interleaves with. -/
theorem afterSweep_row {db : Database} (hkeys : JobKeys db) (now : ℤ) {i : ℕ} {j : JobRow}
    (hj : db.jobs[i]? = some j) (hs : j.status ≠ .stopping) :
    (db.afterSweep now).jobs[i]? = some (sweptRow now (db.spawnsOf j.jobId).length j) := by
  have hcount := (sameRows_afterExpired now db).length_spawnsOf j.jobId
  have habandoned : (db.afterAbandoned now).jobs[i]? =
      some (sweptRow now (db.spawnsOf j.jobId).length j) := by
    rw [Database.afterAbandoned, Database.setJobStatus, getElem?_updateWhere,
      afterExpired_row hkeys now hj, Option.map_some]
    by_cases hexp : Database.isExpired (now - JOB_FINALISE_GRACE_MS) j = true
    · have hclosed : expiredStatus (db.spawnsOf j.jobId).length ≠ .queued := by
        unfold expiredStatus
        split_ifs <;> simp
      simp [hexp, Database.isAbandoned, hclosed, sweptRow, sweptStatus]
    · simp only [if_neg hexp, Database.isAbandoned, hcount, sweptRow, sweptStatus,
        decide_eq_true_eq]
      split_ifs <;> rfl
  rw [Database.afterSweep, Database.setJobStatus, getElem?_updateWhere, habandoned, Option.map_some]
  have hnot : (db.afterAbandoned now).isQuiet
      (sweptRow now (db.spawnsOf j.jobId).length j) = false := by
    simp [Database.isQuiet, sweptRow, sweptStatus_ne_stopping hs]
  rw [hnot]
  rfl

/-- Sweeps in order of time leave a job with what the last of them decides. -/
theorem sweeps_row {ticks : List ℤ} {now : ℤ} (hticks : (ticks ++ [now]).Pairwise (· ≤ ·))
    {db : Database} (hkeys : JobKeys db) {i : ℕ} {j : JobRow} (hj : db.jobs[i]? = some j)
    (hs : j.status ≠ .stopping) : (sweeps (ticks ++ [now]) db).jobs[i]? =
      some (sweptRow now (db.spawnsOf j.jobId).length j) := by
  induction ticks generalizing db j with
  | nil =>
    simp only [sweeps, List.nil_append, List.foldl_cons, List.foldl_nil, run_reapJobs]
    exact afterSweep_row hkeys now hj hs
  | cons t ticks ih =>
    obtain ⟨hfirst, hrest⟩ := List.pairwise_cons.mp hticks
    have hrows := sameRows_afterSweep t db
    have hkeys' : JobKeys (db.afterSweep t) := by
      rw [JobKeys, hrows.jobIds]
      exact hkeys
    have hstep := ih hrest hkeys' (afterSweep_row hkeys t hj hs) (sweptStatus_ne_stopping hs)
    have hcount := hrows.length_spawnsOf j.jobId
    simp only [sweeps, List.cons_append, List.foldl_cons, run_reapJobs] at hstep ⊢
    rw [hstep]
    show some (sweptRow now ((db.afterSweep t).spawnsOf j.jobId).length _) = _
    rw [hcount, sweptRow_sweptRow (hfirst now (by simp))]

/-- Whatever sweeps came before the last one, a job that was active at the beginning
ends as after the last one alone. -/
theorem missed_tick {db : Database} (hkeys : JobKeys db) {ticks : List ℤ} {now : ℤ}
    (hticks : (ticks ++ [now]).Pairwise (· ≤ ·)) {i : ℕ} {j : JobRow} (hj : db.jobs[i]? = some j)
    (hactive : j.status.isActive = true) :
    ∃ j₁ j₂, (sweeps (ticks ++ [now]) db).jobs[i]? = some j₁ ∧
      (sweeps [now] db).jobs[i]? = some j₂ ∧ j₁.jobId = j.jobId ∧ j₂.jobId = j.jobId ∧
      j₁.status = j₂.status := by
  have hs : j.status ≠ .stopping := by
    intro he
    simp [he, JobStatus.isActive] at hactive
  have hall := sweeps_row hticks hkeys hj hs
  have hsingle : ([] ++ [now]).Pairwise (· ≤ ·) := List.pairwise_singleton _ now
  have hlast := sweeps_row hsingle hkeys hj hs
  exact ⟨_, _, hall, hlast, rfl, rfl, rfl⟩

/-- A job with a window of ten minutes that no agent joins. -/
def unattended : Database :=
  ⟨[⟨⟨"job", 5, 1, 1, 1, 10, 0, 0⟩, 600000, .queued, 0⟩], [], []⟩

/-- The earlier sweep fails the job as abandoned; without it the later one does so
because the window has closed. -/
theorem missed_tick_unattended : ∃ j₁ j₂,
    (sweeps ([360000] ++ [660001]) unattended).jobs[0]? = some j₁ ∧
    (sweeps [660001] unattended).jobs[0]? = some j₂ ∧ j₁.jobId = "job" ∧ j₂.jobId = "job" ∧
    j₁.status = j₂.status := by
  have hkeys : JobKeys unattended := by simp [JobKeys, unattended]
  have hticks : ([360000] ++ [660001] : List ℤ).Pairwise (· ≤ ·) := by decide
  exact missed_tick hkeys hticks (i := 0) rfl rfl

example : (sweeps [360000] unattended).jobs.map JobRow.status = [.failed] := by decide

example : (sweeps [660001] unattended).jobs.map JobRow.status = [.failed] := by decide

end R2Bench
