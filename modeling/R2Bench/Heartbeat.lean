import R2Bench.LiveAgents
import R2Bench.RunResponses

/-!
# Silence and the staleness rule

Between the poll that granted its slot and its first metrics report an agent
sends nothing that refreshes `LAST_SEEN`: it warms up and holds until the shared
start. `Execution` is the timing of one pass of `execute`; a run of the control
plane is healthy for it when no report is lost or late.
-/
namespace R2Bench
open Interleaving Tables

/-- The instants of one pass of `execute` past the check of the stop time, in
milliseconds of the control plane's clock. -/
structure Execution where
  resp : RunResponse
  /-- The run response is there. -/
  received : ℤ
  /-- The warm-up has returned. -/
  warmed : ℤ
  /-- `MetricsInterval`. -/
  interval : ℤ
  /-- The workers and the report loop have returned; the final flush is sent. -/
  ended : ℤ
  /-- The completion report is recorded. -/
  completed : ℤ
  live : received < resp.stopAtEpochMs
  received_le : received ≤ warmed
  interval_pos : 0 < interval
  interval_le : interval ≤ 30000
  start_le : max warmed resp.startAtEpochMs ≤ ended
  ended_le : ended ≤ completed
  /-- Both terminal reports share a timeout of 20 seconds. -/
  completed_le : completed ≤ ended + 20000

namespace Execution

/-- Load begins: the warm-up is over and the shared start has come. -/
def start (x : Execution) : ℤ := max x.warmed x.resp.startAtEpochMs

/-- A metrics report is sent at `h`: at a tick, or as the final flush. -/
def Due (x : Execution) (h : ℤ) : Prop :=
  (∃ k : ℕ, h = x.start + (k + 1) * x.interval ∧ h ≤ x.ended) ∨ h = x.ended

/-- The first tick, or the final flush of a run that is shorter. -/
def firstReport (x : Execution) : ℤ := min (x.start + x.interval) x.ended

theorem received_le_start (x : Execution) : x.received ≤ x.start :=
  x.received_le.trans (le_max_left _ _)

theorem start_le_firstReport (x : Execution) : x.start ≤ x.firstReport := by
  have hpos := x.interval_pos
  have hend : x.start ≤ x.ended := x.start_le
  unfold firstReport
  omega

theorem Due.firstReport_le {x : Execution} {h : ℤ} (hd : x.Due h) : x.firstReport ≤ h := by
  rcases hd with ⟨k, rfl, -⟩ | rfl
  · have hmul : 0 ≤ (k : ℤ) * x.interval :=
      mul_nonneg (Int.natCast_nonneg k) (le_of_lt x.interval_pos)
    have hfirst : x.firstReport ≤ x.start + x.interval := min_le_left _ _
    linarith
  · exact min_le_right _ _

/-- When every due report has refreshed `LAST_SEEN`, the silence so far is within
the first gap or within one interval. -/
theorem silence_le (x : Execution) {seen s clock : ℤ}
    (hgap : x.firstReport - seen ≤ SPAWN_STALE_AFTER_MS) (hs : seen ≤ s)
    (hdue : ∀ h, x.Due h → h < clock → h ≤ s) (hc : clock ≤ x.completed) :
    clock - s ≤ SPAWN_STALE_AFTER_MS := by
  unfold SPAWN_STALE_AFTER_MS at hgap ⊢
  by_cases hfirst : clock ≤ x.firstReport
  · omega
  by_cases hend : x.ended < clock
  · have hflush := hdue x.ended (.inr rfl) hend
    have hlast := x.completed_le
    omega
  -- The last tick before `clock` is less than an interval ago.
  have hpos := x.interval_pos
  have hint := x.interval_le
  have hstart : x.start + x.interval < clock := by
    unfold firstReport at hfirst
    omega
  have hdiv := Int.mul_ediv_add_emod (clock - 1 - x.start) x.interval
  have hrem := Int.emod_lt_of_pos (clock - 1 - x.start) hpos
  have hnonneg := Int.emod_nonneg (clock - 1 - x.start) (ne_of_gt hpos)
  have hquot : 1 ≤ (clock - 1 - x.start) / x.interval :=
    (Int.le_ediv_iff_mul_le hpos).mpr (by omega)
  obtain ⟨k, hk⟩ := Int.eq_ofNat_of_zero_le (sub_nonneg.mpr hquot)
  have htick : x.start + ((k : ℤ) + 1) * x.interval =
      x.start + x.interval * ((clock - 1 - x.start) / x.interval) := by
    rw [← hk]
    ring
  have hlast := hdue _ (.inl ⟨k, rfl, by omega⟩) (by omega)
  omega

end Execution

/-! ## The control plane's side -/

/-- The statement refreshes `LAST_SEEN` of the spawn with `now`. -/
def Statement.Beats (st : Statement) (spawnId : String) (now : ℤ) : Prop :=
  st = .touchSpawn now spawnId ∨
    ∃ id report, st = .recordMetrics id report now ∧ report.spawnId = spawnId

theorem lastSeen_setSpawnStatus {db : Database} {p : SpawnRow → Bool} {status : SpawnStatus}
    {m : ℕ} {r r' : SpawnRow} (hr : db.spawns[m]? = some r)
    (hr' : (db.setSpawnStatus p status).spawns[m]? = some r') : r'.lastSeen = r.lastSeen := by
  obtain rfl := Option.some.inj (hr'.symm.trans (getElem?_updateWhere_of hr))
  split_ifs <;> rfl

/-- `LAST_SEEN` of a row changes only by a statement that refreshes it. -/
theorem Statement.exec_lastSeen (st : Statement) {w : World} {m : ℕ} {r r' : SpawnRow}
    (hr : w.db.spawns[m]? = some r) (hr' : (st.exec w).2.db.spawns[m]? = some r') :
    r'.lastSeen = r.lastSeen ∨ ∃ now, st.Beats r.spawnId now ∧ r'.lastSeen = some now := by
  have hlt := (List.getElem?_eq_some_iff.mp hr).1
  have hsame : w.db.spawns[m]? = some r' → r'.lastSeen = r.lastSeen := fun h => by
    rw [Option.some.inj (h.symm.trans hr)]
  cases st with
  | touchSpawn now spawnId =>
    obtain rfl := Option.some.inj (hr'.symm.trans (getElem?_updateWhere_of hr))
    split_ifs with hid
    · exact .inr ⟨now, .inl (by rw [of_decide_eq_true hid]), rfl⟩
    · exact .inl rfl
  | recordMetrics id report now =>
    simp only [exec, Database.recordMetrics] at hr'
    split_ifs at hr'
    · exact .inl (hsame hr')
    · obtain rfl := Option.some.inj (hr'.symm.trans (getElem?_updateWhere_of hr))
      split_ifs with hid
      · exact .inr ⟨now, .inr ⟨id, report, rfl, (of_decide_eq_true hid).symm⟩, rfl⟩
      · exact .inl rfl
  | insertJob terms stopAt =>
    simp only [exec, Database.insertJob] at hr'
    split_ifs at hr' <;> exact .inl (hsame hr')
  | claimSlot c =>
    left
    rcases w.db.claimSlot_cases c with ⟨h, -⟩ | ⟨h, -⟩ | ⟨h, -⟩ <;>
      simp only [exec, h, World.attempt] at hr'
    · exact hsame hr'
    · exact hsame hr'
    · exact hsame (by rwa [List.getElem?_append_left hlt] at hr')
  | finishSpawn | failStale | failSpawn | finaliseJob =>
    exact .inl (lastSeen_setSpawnStatus hr hr')
  | _ => exact .inl (hsame hr')

/-- A pending staleness rule looks back 90 seconds from now at the least. -/
def lookback (env : Env) : Contract (controlPlane env) where
  Inv _ := True
  Rely w w' := w.clock ≤ w'.clock
  Pre st w := ∀ before, st = .failStale before → before ≤ w.clock - SPAWN_STALE_AFTER_MS
  Post _ _ _ := True

theorem lookback_valid (env : Env) : (lookback env).Valid where
  refl _ := le_rfl
  trans := le_trans
  exec st w _ _ := ⟨trivial, le_of_eq (st.exec_clock w).symm⟩
  drift d w _ := ⟨trivial, by simp [lookback, controlPlane]⟩
  handler a w _ := by
    change (lookback env).Holds a (handle env a) w
    have hother : ∀ (p : Handler), (p.Uses fun st => ∀ before, st ≠ .failStale before) → ∀ w,
        (lookback env).Holds a p w := fun p hp w =>
      Contract.wp_of_uses (fun st w h before he => absurd he (h before)) (fun _ _ => trivial) hp w
    obtain ⟨request, uuid, tie⟩ := a
    cases request with
    | sweep =>
      simp only [handle, reapJobs, await_bind]
      refine fun w₁ _ _ => ⟨by simp [lookback], fun w₂ _ hle => ⟨?_, hother _ ?_ _⟩⟩
      · intro before he
        obtain rfl := Statement.failStale.inj he
        exact sub_le_sub_right hle _
      · exact ⟨by simp, fun expired =>
          (afterSelection_uses _ _ expired).mono fun st _ h => h.1⟩
    | _ =>
      refine hother _ ((handle_awaits env _).mono fun st k h before he => ?_) w
      subst he
      cases h

theorem Reachable.failStale_le {env : Env} {w : Plane} (hw : Reachable env w) {i : ℕ} {before : ℤ}
    (h : w.next? i = some (.failStale before)) :
    before ≤ w.store.clock - SPAWN_STALE_AFTER_MS := by
  obtain ⟨clock, hrun⟩ := hw
  exact (lookback_valid env).pre
    ((lookback_valid env).run hrun (Contract.satisfied_idle trivial)) h before rfl

/-! ## An agent that loses no request -/

/-- At `v` the agent has its run response. Its spawn, in row `m`, is running and
was last seen at `seen`, by the poll. -/
structure Granted (env : Env) (x : Execution) (m : ℕ) (seen : ℤ) (v : Plane) : Prop where
  reachable : Reachable env v
  answered : ∃ (i : ℕ) (a : Arrival), v.threads[i]? = some ⟨a, some (.done (.poll (.run x.resp)))⟩
  row : ∃ r, v.store.db.spawns[m]? = some r ∧ r.spawnId = x.resp.spawnId ∧
    r.status = .running ∧ r.lastSeen = some seen
  clock : v.store.clock = x.received

/-- While the spawn is running, time does not pass a report of the agent that is due
and not recorded, nor its completion; and its reports are recorded in order. -/
def Healthy (x : Execution) (m : ℕ) (v : Plane) (a : Action Arrival ℕ) : Prop :=
  ∀ r, v.store.db.spawns[m]? = some r → r.status = .running →
    (∀ d, a = .drift d → v.store.clock + d ≤ x.completed ∧
      ∀ h, x.Due h → h < v.store.clock + d → ∃ s, r.lastSeen = some s ∧ h ≤ s) ∧
    ∀ i st now s, a = .exec i → v.next? i = some st → st.Beats r.spawnId now →
      r.lastSeen = some s → s ≤ now

/-- The next statement of thread `i` is a sweep's staleness rule, and it moves the
running spawn in row `m` to failed. -/
def DeclaredDead (env : Env) (m : ℕ) (v v' : Plane) : Prop :=
  ∃ i before r r', v.next? i = some (.failStale before) ∧
    (controlPlane env).step v (.exec i) = some v' ∧ v.store.db.spawns[m]? = some r ∧
    r.status = .running ∧ v'.store.db.spawns[m]? = some r' ∧ r'.status = .failed

/-- The heartbeat of the spawn is as recent as the reports that were due. -/
def Seen (x : Execution) (m : ℕ) (seen : ℤ) (w : World) : Prop :=
  ∃ r, w.db.spawns[m]? = some r ∧ (r.status = .running → ∃ s, r.lastSeen = some s ∧ seen ≤ s ∧
    w.clock ≤ x.completed ∧ ∀ h, x.Due h → h < w.clock → h ≤ s)

section
variable {env : Env} {x : Execution} {m : ℕ} {seen : ℤ} {v v' w : Plane}

theorem Granted.initial (h : Granted env x m seen v) : Seen x m seen v.store := by
  obtain ⟨r, hr, -, -, hs⟩ := h.row
  refine ⟨r, hr, fun _ => ⟨seen, hs, le_rfl, ?_, fun h' hd hlt => ?_⟩⟩
  · have hrec := x.received_le_start
    have hstart : x.start ≤ x.ended := x.start_le
    have hend := x.ended_le
    rw [h.clock]
    omega
  · have hrec := x.received_le_start
    have hfirst := x.start_le_firstReport
    have hdue := hd.firstReport_le
    rw [h.clock] at hlt
    omega

theorem Seen.step {a : Action Arrival ℕ} (hs : Seen x m seen v.store)
    (hh : Healthy x m v a) (h : (controlPlane env).step v a = some v') :
    Seen x m seen v'.store := by
  obtain ⟨r, hr, hlive⟩ := hs
  rcases (controlPlane env).step_store h with ⟨-, he⟩ | ⟨i, st, rfl, hnext, he⟩ | ⟨d, rfl, he⟩
  · rw [he]
    exact ⟨r, hr, hlive⟩
  · rw [controlPlane_exec] at he
    obtain ⟨r', hr', hstep⟩ := (st.exec_evolves v.store).spawns m r hr
    rw [he]
    refine ⟨r', hr', fun hrun' => ?_⟩
    have hrun := hstep.status hrun'
    obtain ⟨s, hs, hle, hc, hdue⟩ := hlive hrun
    rw [st.exec_clock]
    rcases st.exec_lastSeen hr hr' with hkeep | ⟨now, hbeat, hnow⟩
    · exact ⟨s, hkeep.trans hs, hle, hc, hdue⟩
    · have horder := (hh r hr hrun).2 i st now s rfl hnext hbeat hs
      exact ⟨now, hnow, hle.trans horder, hc, fun h hd hlt => (hdue h hd hlt).trans horder⟩
  · rw [he]
    refine ⟨r, hr, fun hrun => ?_⟩
    obtain ⟨s, hs, hle, -, -⟩ := hlive hrun
    obtain ⟨hc, hdue⟩ := (hh r hr hrun).1 d rfl
    refine ⟨s, hs, hle, hc, fun h hd hlt => ?_⟩
    obtain ⟨s', hs', hle'⟩ := hdue h hd hlt
    have hsame : s = s' := by simpa using hs.symm.trans hs'
    subst hsame
    exact hle'

/-- The staleness rule moves a running spawn to failed exactly when it is stale. -/
theorem declaredDead_iff {i : ℕ} {before : ℤ} {r : SpawnRow}
    (hnext : v.next? i = some (.failStale before))
    (h : (controlPlane env).step v (.exec i) = some v') (hr : v.store.db.spawns[m]? = some r)
    (hrun : r.status = .running) : (∃ r', v'.store.db.spawns[m]? = some r' ∧ r'.status = .failed) ↔
      Database.isStale before r = true := by
  have hstore : v'.store = ((Statement.failStale before).exec v.store).2 :=
    (controlPlane env).exec_store h hnext
  obtain ⟨r', hr', -, hs⟩ := (Statement.failStale before).exec_spawn hr
  simp only [Statement.spawnStatusAfter, hrun] at hs
  rw [hstore]
  constructor
  · rintro ⟨r'', hr'', hfail⟩
    have heq : r'' = r' := Option.some.inj (hr''.symm.trans hr')
    subst heq
    rw [hs] at hfail
    by_contra hstale
    simp [hstale] at hfail
  · intro hstale
    exact ⟨r', hr', by rw [hs, if_pos hstale]⟩

/-- While the first gap is short enough no sweep finds the spawn stale. -/
theorem Granted.not_declaredDead (h : Granted env x m seen v)
    (hgap : x.firstReport - seen ≤ SPAWN_STALE_AFTER_MS)
    (hrun : (controlPlane env).Run (Healthy x m) v w) (w' : Plane) :
    ¬ DeclaredDead env m w w' := by
  have hseen : Seen x m seen w.store :=
    System.Run.invariant _ hrun (I := fun v => Seen x m seen v.store) h.initial
      fun _ _ _ _ hh hstep hs => hs.step hh hstep
  rintro ⟨i, before, r, r', hnext, hstep, hr, hlive, hr', hfail⟩
  obtain ⟨r₀, hr₀, hlast⟩ := hseen
  have hsame : r₀ = r := Option.some.inj (hr₀.symm.trans hr)
  subst hsame
  obtain ⟨s, hs, hle, hc, hdue⟩ := hlast hlive
  have hsilence := x.silence_le hgap hle hdue hc
  have hbefore := (h.reachable.run hrun.free).failStale_le hnext
  have hstale := (declaredDead_iff hnext hstep hr hlive).mp ⟨r', hr', hfail⟩
  have hold : s < before := by simpa [Database.isStale, hlive, hs] using hstale
  omega

/-- A sweep may arrive at any time and read the clock. -/
theorem exists_sweep_reading (env : Env) (v : Plane) {C : Plane → Action Arrival ℕ → Prop}
    (harrive : ∀ v a, C v (.arrive a)) (hread : ∀ v i, v.next? i = some .dateNow → C v (.exec i)) :
    ∃ w i w', (controlPlane env).Run C v w ∧ w.store = v.store ∧
      w.next? i = some (.failStale (v.store.clock - SPAWN_STALE_AFTER_MS)) ∧
      (controlPlane env).step w (.exec i) = some w' := by
  let v₁ : Plane := ⟨v.store, v.threads ++ [⟨sweepArrival, some (handle env sweepArrival)⟩]⟩
  have hi : v₁.threads[v.threads.length]? =
      some ⟨sweepArrival, some (handle env sweepArrival)⟩ := by
    simp [v₁]
  simp only [handle, sweepArrival, reapJobs, await_bind] at hi
  have hstep₁ : (controlPlane env).step v (.arrive sweepArrival) = some v₁ := rfl
  obtain ⟨w, hstep₂⟩ : ∃ w, (controlPlane env).step v₁ (.exec v.threads.length) = some w := by
    simp only [System.step, hi]
    exact ⟨_, rfl⟩
  have hw := hstep₂
  simp only [System.step, hi, Option.some.injEq] at hw
  have hlt := (List.getElem?_eq_some_iff.mp hi).1
  have hnext : w.next? v.threads.length =
      some (.failStale (v.store.clock - SPAWN_STALE_AFTER_MS)) := by
    rw [← hw]
    simp [Pool.next?, hlt]
    rfl
  obtain ⟨w', hw'⟩ : ∃ w', (controlPlane env).step w (.exec v.threads.length) = some w' := by
    rw [← hw]
    simp only [System.step, List.getElem?_set_self hlt]
    exact ⟨_, rfl⟩
  refine ⟨w, _, w', ?_, by rw [← hw]; rfl, hnext, hw'⟩
  exact (System.Run.single _ (harrive v _) hstep₁).tail
    ⟨_, hread v₁ _ (by simp [Pool.next?, hi]), hstep₂⟩

/-- Otherwise a sweep at the end of the silence declares the agent dead. -/
theorem Granted.declaredDead (h : Granted env x m seen v)
    (hgap : ¬ x.firstReport - seen ≤ SPAWN_STALE_AFTER_MS) :
    ∃ w w', (controlPlane env).Run (Healthy x m) v w ∧ DeclaredDead env m w w' := by
  obtain ⟨r, hr, -, hlive, hs⟩ := h.row
  have hrec := x.received_le_start
  have hfirst := x.start_le_firstReport
  have hend : x.firstReport ≤ x.ended := min_le_right _ _
  have hcompl := x.ended_le
  -- The first instant at which the spawn is stale, or now.
  obtain ⟨d, hd⟩ := Int.eq_ofNat_of_zero_le
    (sub_nonneg.mpr (le_max_left x.received (seen + SPAWN_STALE_AFTER_MS + 1)))
  let v₁ : Plane := ⟨{ v.store with clock := v.store.clock + d }, v.threads⟩
  have hclock : v₁.store.clock = max x.received (seen + SPAWN_STALE_AFTER_MS + 1) := by
    simp only [v₁, h.clock]
    omega
  have hdrift : (controlPlane env).step v (.drift d) = some v₁ := rfl
  have hhealthy : Healthy x m v (.drift d) := by
    refine fun _ _ _ => ⟨fun d' he => ?_, by simp⟩
    have hsame : d = d' := by simpa using he
    subst hsame
    have hc : v.store.clock + d = max x.received (seen + SPAWN_STALE_AFTER_MS + 1) := hclock
    refine ⟨by omega, fun h' hdue hlt => ?_⟩
    have hle := hdue.firstReport_le
    omega
  have hread : ∀ (y : Plane) i, y.next? i = some .dateNow → Healthy x m y (.exec i) := by
    refine fun y i hy _ _ _ => ⟨by simp, fun j st now s hj hst hbeat => ?_⟩
    have heq : i = j := by simpa using hj
    subst heq
    obtain rfl := Option.some.inj (hst.symm.trans hy)
    rcases hbeat with hb | ⟨id, report, hb, -⟩ <;> cases hb
  obtain ⟨w, i, w', hrun, hstore, hnext, hstep⟩ := exists_sweep_reading env v₁
    (C := Healthy x m) (fun _ _ _ _ _ => ⟨by simp, by simp⟩) hread
  have hrow : w.store.db.spawns[m]? = some r := by rw [hstore]; exact hr
  have hold : seen < v₁.store.clock - SPAWN_STALE_AFTER_MS := by omega
  obtain ⟨r', hr', hfail⟩ := (declaredDead_iff hnext hstep hrow hlive).mpr
    (by simpa [Database.isStale, hlive, hs] using hold)
  exact ⟨w, w', hrun.head ⟨_, hhealthy, hdrift⟩, i, _, r, r', hnext, hstep, hrow, hlive, hr', hfail⟩

/-- A healthy agent is never declared dead if and only if the silence between its
poll and its first metrics report is at most 90 seconds. -/
theorem healthy_agent_kept_iff (h : Granted env x m seen v) :
    (∀ w w', (controlPlane env).Run (Healthy x m) v w → ¬ DeclaredDead env m w w') ↔
      x.firstReport - seen ≤ SPAWN_STALE_AFTER_MS := by
  constructor
  · intro hkept
    by_contra hgap
    obtain ⟨w, w', hrun, hdead⟩ := h.declaredDead hgap
    exact hkept w w' hrun hdead
  · exact fun hgap w w' hrun => h.not_declaredDead hgap hrun w'

end

/-- The answer to the first agent of the sample job. -/
def sampleResponse (startDelaySeconds : ℕ) : RunResponse :=
  { jobId := sampleUuid.text, spawnId := spawnIdOf sampleUuid.text "a", targetRPS := 3,
    workers := 512, startAtEpochMs := startDelaySeconds * 1000,
    stopAtEpochMs := startDelaySeconds * 1000 + 60000, unthrottled := false }

/-- Two seconds of warm-up, reports every ten seconds, a run to the stop time. -/
def sampleExecution (startDelaySeconds : ℕ) : Execution :=
  { resp := sampleResponse startDelaySeconds, received := 0, warmed := 2000, interval := 10000,
    ended := startDelaySeconds * 1000 + 60000, completed := startDelaySeconds * 1000 + 60000,
    live := by simp only [sampleResponse]; omega
    received_le := by omega
    interval_pos := by omega
    interval_le := by omega
    start_le := by simp only [sampleResponse]; omega
    ended_le := le_rfl
    completed_le := by omega }

def isGranted (x : Execution) (v : Plane) : Bool :=
  runResponse? v 1 = some x.resp ∧ v.store.clock = x.received ∧
    v.store.db.spawns[0]?.any fun r =>
      r.spawnId = x.resp.spawnId ∧ r.status = .running ∧ r.lastSeen = some 0

/-- The sample job is started and an agent polls at once. -/
theorem exists_granted (startDelaySeconds : ℕ)
    (h : ((controlPlane bareEnv).replay (fun _ _ => true)
      (.arrive (startOf 5 2 1 startDelaySeconds) :: serve 3 0 ++ .arrive (pollOf "a") :: serve 6 1)
      (idlePlane 0)).any (isGranted (sampleExecution startDelaySeconds)) = true) :
    ∃ v, Granted bareEnv (sampleExecution startDelaySeconds) 0 0 v := by
  obtain ⟨v, hrun, hv⟩ := (controlPlane bareEnv).exists_run_of_replay (C := fun _ _ => True)
    (fun _ _ => true) (fun _ _ _ => trivial) _ _ h
  obtain ⟨hresp, hclock, hrow⟩ := of_decide_eq_true hv
  obtain ⟨r, hr, hrow⟩ := (Option.any_eq_true _ _).mp hrow
  exact ⟨v, ⟨0, hrun⟩, ⟨1, answered_of_runResponse? hresp⟩, ⟨r, hr, of_decide_eq_true hrow⟩, hclock⟩

/-- With the default start delay of 30 seconds the silence lasts 40. -/
theorem healthy_agent_kept_default : ∃ v, Granted bareEnv (sampleExecution 30) 0 0 v ∧
    ∀ w w', (controlPlane bareEnv).Run (Healthy (sampleExecution 30) 0) v w →
      ¬ DeclaredDead bareEnv 0 w w' := by
  obtain ⟨v, hv⟩ := exists_granted 30 (by decide +kernel)
  exact ⟨v, hv, (healthy_agent_kept_iff hv).mpr (by decide)⟩

/-- With a start delay of two minutes a sweep fails the spawn before its start. -/
theorem healthy_agent_declared_dead : ¬ ∀ (env : Env) (x : Execution) (m : ℕ) (seen : ℤ)
    (v w w' : Plane), Granted env x m seen v → (controlPlane env).Run (Healthy x m) v w →
      ¬ DeclaredDead env m w w' := by
  intro hclaim
  obtain ⟨v, hv⟩ := exists_granted 120 (by decide +kernel)
  obtain ⟨w, w', hrun, hdead⟩ := hv.declaredDead (by decide)
  exact hclaim _ _ _ _ v w w' hv hrun hdead

end R2Bench
