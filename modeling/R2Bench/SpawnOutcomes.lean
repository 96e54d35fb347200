import R2Bench.Lifecycle

/-!
# The outcome of a spawn

Three of the five writers of `JOB_SPAWNS.STATUS` ask for a running spawn. The
two updates of a completion report name the spawn only, so a late or repeated
report can rewrite an outcome that the reaper or an earlier report has recorded.
-/
namespace R2Bench
open Interleaving Tables

/-- The value that a completion report writes to the status of its spawn. -/
def Statement.reported? (spawnId : String) : Statement → Option SpawnStatus
  | .finishSpawn outcome spawnId' => if spawnId' = spawnId then some outcome.1 else none
  | .failSpawn spawnId' _ => if spawnId' = spawnId then some .failed else none
  | _ => none

/-- A completion report whose update is executed when its spawn has already ended
writes the status that the spawn has. -/
def OutcomeRespected (spawnId : String) (v : Plane) (a : Action Arrival ℕ) : Prop :=
  ∀ i st, a = .exec i → v.next? i = some st → ∀ r ∈ v.store.db.spawns, r.spawnId = spawnId →
    r.status ≠ .running → ∀ s ∈ st.reported? spawnId, s = r.status

/-- The other three writers leave an ended spawn alone. -/
theorem Statement.spawnStatusAfter_ended (st : Statement) {r : SpawnRow}
    (h : r.status ≠ .running) : st.spawnStatusAfter r = (st.reported? r.spawnId).getD r.status := by
  cases st with
  | finishSpawn outcome spawnId | failSpawn spawnId jobId =>
    by_cases he : r.spawnId = spawnId
    · simp [spawnStatusAfter, reported?, he]
    · simp [spawnStatusAfter, reported?, he, Ne.symm he]
  | failStale before => simp [spawnStatusAfter, reported?, Database.isStale, h]
  | finaliseJob outcome jobId => simp [spawnStatusAfter, reported?, h]
  | _ => rfl

/-- One step, exactly: an ended spawn keeps its status if and only if the step
respects it. -/
theorem outcomeRespected_iff {env : Env} {v v' : Plane} {a : Action Arrival ℕ}
    (hv : Reachable env v) (h : (controlPlane env).step v a = some v') {m : ℕ} {r : SpawnRow}
    (hr : v.store.db.spawns[m]? = some r) (hend : r.status ≠ .running) :
    OutcomeRespected r.spawnId v a ↔ ∃ r', v'.store.db.spawns[m]? = some r' ∧
      r'.spawnId = r.spawnId ∧ r'.status = r.status := by
  rcases (controlPlane env).step_store h with ⟨ha, he⟩ | ⟨i, st, rfl, hnext, he⟩ | ⟨d, rfl, he⟩
  · rw [he]
    exact ⟨fun _ => ⟨r, hr, rfl, rfl⟩, fun _ i _ hi => absurd hi (ha i)⟩
  · obtain ⟨r', hr', hseat, hafter⟩ := st.exec_spawn hr
    replace he : v'.store = (st.exec v.store).2 := he
    have hid : r'.spawnId = r.spawnId := congrArg SpawnSeat.spawnId hseat
    rw [st.spawnStatusAfter_ended hend] at hafter
    constructor
    · intro hc
      refine ⟨r', by rw [he, hr'], hid, ?_⟩
      rw [hafter]
      cases hs : st.reported? r.spawnId with
      | none => rfl
      | some s => exact hc i st rfl hnext r (List.mem_of_getElem? hr) rfl hend s hs
    · rintro ⟨r'', hr'', -, hsame⟩ i' st' hi' hnext' y hy hyid - s hs
      have heq : r'' = r' := by rw [he, hr'] at hr''; exact (Option.some.inj hr'').symm
      subst heq
      obtain rfl : i = i' := by simpa using hi'
      obtain rfl : st = st' := Option.some.inj (hnext.symm.trans hnext')
      obtain rfl : y = r := hv.inv.spawn_eq hy (List.mem_of_getElem? hr) hyid
      rw [Option.mem_def.mp hs] at hafter
      exact hafter.symm.trans hsame
  · rw [he]
    exact ⟨fun _ => ⟨r, hr, rfl, rfl⟩, fun _ i _ hi => by simp at hi⟩

/-- Along every run whose steps respect it, the outcome of a spawn stays what it
was; and a step that does not respect it changes the outcome. -/
theorem spawn_outcome_final {env : Env} {w : Plane} (hw : Reachable env w) {m : ℕ} {r : SpawnRow}
    (hr : w.store.db.spawns[m]? = some r) (hend : r.status ≠ .running) :
    (∀ w', (controlPlane env).Run (OutcomeRespected r.spawnId) w w' →
      ∃ r', w'.store.db.spawns[m]? = some r' ∧ r'.status = r.status) ∧
    ∀ a w', (controlPlane env).step w a = some w' → ¬ OutcomeRespected r.spawnId w a →
      ∃ r', w'.store.db.spawns[m]? = some r' ∧ r'.status ≠ r.status := by
  constructor
  · intro w' hrun
    suffices h : ∃ r', w'.store.db.spawns[m]? = some r' ∧ r'.spawnId = r.spawnId ∧
        r'.status = r.status by
      obtain ⟨r', hr', -, hs⟩ := h
      exact ⟨r', hr', hs⟩
    apply System.Run.invariant _ hrun (I := fun v => ∃ r', v.store.db.spawns[m]? = some r' ∧
      r'.spawnId = r.spawnId ∧ r'.status = r.status) ⟨r, hr, rfl, rfl⟩
    intro v a v' hv hc hstep hI
    obtain ⟨r', hr', hid, hs⟩ := hI
    have hend' : r'.status ≠ .running := by rwa [hs]
    obtain ⟨r'', hr'', hid', hs'⟩ :=
      (outcomeRespected_iff (hw.run hv.free) hstep hr' hend').mp (hid.symm ▸ hc)
    exact ⟨r'', hr'', hid'.trans hid, hs'.trans hs⟩
  · intro a w' hstep hc
    obtain ⟨r', hr', hs⟩ := (hw.evolves_step hstep).spawns m r hr
    refine ⟨r', hr', fun hsame => hc ?_⟩
    exact (outcomeRespected_iff hw hstep hr hend).mpr ⟨r', hr', hs.spawnId, hsame⟩

/-! ## A report after the reaper -/

/-- A job of ten minutes is started, an agent joins and is silent for 90 seconds,
and a sweep fails its spawn. -/
def reapedSpawn : List (Action Arrival ℕ) :=
  .arrive (startOf 5 2 10 0) :: serve 3 0 ++ .arrive (pollOf "a") :: serve 6 1 ++
    .drift 90001 :: .arrive sweepArrival :: serve 5 2

def spawnAt (m : ℕ) (s : SpawnStatus) (v : Plane) : Bool :=
  v.store.db.spawns[m]?.any fun r => r.status = s

theorem mem_of_spawnAt {m : ℕ} {s : SpawnStatus} {v : Plane} (h : spawnAt m s v = true) :
    ∃ r, v.store.db.spawns[m]? = some r ∧ r.status = s := by
  obtain ⟨r, hr, hs⟩ := (Option.any_eq_true _ _).mp h
  exact ⟨r, hr, of_decide_eq_true hs⟩

/-- An executable form of `OutcomeRespected`, for every spawn. -/
def outcomeGuard (v : Plane) : Action Arrival ℕ → Bool
  | .exec i =>
    match v.next? i with
    | some (.finishSpawn _ _) | some (.failSpawn _ _) => false
    | _ => true
  | _ => true

theorem outcomeRespected_of_guard (spawnId : String) (v : Plane) (a : Action Arrival ℕ)
    (h : outcomeGuard v a = true) : OutcomeRespected spawnId v a := by
  intro i st ha hnext r _ _ _ s hs
  subst ha
  cases st with
  | finishSpawn | failSpawn => simp [outcomeGuard, hnext] at h
  | _ => cases hs

/-- The agent polls again and the reaper sweeps again: the spawn stays failed. -/
theorem spawn_outcome_final_reaped : ∃ (w w' : Plane) (r : SpawnRow), Reachable bareEnv w ∧
    w.store.db.spawns[0]? = some r ∧ r.status = .failed ∧
    (controlPlane bareEnv).Run (OutcomeRespected r.spawnId) w w' ∧
    ∃ r', w'.store.db.spawns[0]? = some r' ∧ r'.status = r.status := by
  obtain ⟨w, w', hrun, hw, hrun', -⟩ := (controlPlane bareEnv).exists_runs_of_replay
    (C := fun v a => outcomeGuard v a = true) (w := idlePlane 0) reapedSpawn (spawnAt 0 .failed)
    outcomeGuard (fun _ _ => id)
    (.arrive (pollOf "a") :: serve 3 3 ++ .arrive sweepArrival :: serve 5 4) (fun _ => true)
    (by decide +kernel)
  obtain ⟨r, hr, hs⟩ := mem_of_spawnAt hw
  have hreach : Reachable bareEnv w := ⟨0, hrun⟩
  have hend : r.status ≠ .running := by simp [hs]
  have hkept := hrun'.mono _ (outcomeRespected_of_guard r.spawnId)
  exact ⟨w, w', r, hreach, hr, hs, hkept, (spawn_outcome_final hreach hr hend).1 w' hkept⟩

/-- The agent was cut off, not dead: its completion report arrives after the sweep
that failed its spawn, and the spawn is shown as completed. -/
theorem spawn_outcome_rewritten : ¬ ∀ (env : Env) (w w' : Plane), Reachable env w →
    (controlPlane env).FreeRun w w' → ∀ (m : ℕ) r r', w.store.db.spawns[m]? = some r →
      r.status ≠ .running → w'.store.db.spawns[m]? = some r' → r'.status = r.status := by
  intro hclaim
  obtain ⟨w, w', hrun, hw, hrun', hw'⟩ := (controlPlane bareEnv).exists_runs_of_replay
    (w := idlePlane 0) (C := fun _ _ => True) reapedSpawn (spawnAt 0 .failed)
    (fun _ _ => true) (fun _ _ _ => trivial) (.arrive (completeOf "a") :: serve 4 3)
    (spawnAt 0 .completed) (by decide +kernel)
  obtain ⟨r, hr, hs⟩ := mem_of_spawnAt hw
  obtain ⟨r', hr', hs'⟩ := mem_of_spawnAt hw'
  have hbad := hclaim bareEnv w w' ⟨0, hrun⟩ hrun' 0 r r' hr (by simp [hs]) hr'
  simp [hs, hs'] at hbad

end R2Bench
