import R2Bench.OfferedLoad
import R2Bench.RunResponses

/-!
# The load of a whole fleet

Each agent paces itself at its own share and load begins at an instant that all of
them are given. Together they never exceed the target of the job, whatever each of
them does and however the control plane's handlers interleave; an agent that is started
again takes up the slot that it had.
-/
namespace R2Bench
open Interleaving LoadRun

/-- A timed run as far as it has got, or got before its agent was started again. -/
structure Stint where
  load : Load
  acts : List LoadAct
  last : LoadRun

/-- The requests that it began. -/
def Stint.begun (t : Stint) : ℕ := (noted t.load (start t.load) t.acts).count .begun

/-- A timed run on a run response that the control plane has answered with for spawn `r` of
`j`; load waits for the shared start. -/
structure Drives (w : Plane) (j : JobRow) (r : SpawnRow) (t : Stint) : Prop where
  answered : ∃ (i : ℕ) (u : Thread Statement Statement.Result Arrival Reply) (resp : RunResponse),
    w.threads[i]? = some u ∧ u.rest = some (.done (.poll (.run resp))) ∧
    resp.jobId = j.jobId ∧ resp.spawnId = r.spawnId ∧ t.load.assignment = resp.assignment ∧
    resp.startAtEpochMs * 1000000 ≤ t.load.start
  reached : Reached t.load t.acts t.last

theorem LoadRun.clock_le {load : Load} {v v' : LoadRun} {a : LoadAct} {e : Option LoadEvent}
    (h : LoadRun.Moved load v a e v') : v.clock ≤ v'.clock := by
  cases h with
  | wait d => exact Int.le_add_of_nonneg_right (Int.natCast_nonneg d)
  | _ => exact le_rfl

section
variable {env : Env} {w : Plane} {j : JobRow} {r : SpawnRow} {t : Stint}

theorem Drives.start_le (h : Drives w j r t) : t.load.start ≤ t.last.clock :=
  h.reached.invariant (I := fun v => t.load.start ≤ v.clock) le_rfl
    fun _ _ _ _ moved hv => hv.trans (LoadRun.clock_le (LoadRun.moved moved))

end

end R2Bench
