import R2Bench.Turns

/-!
# Stopped before the start

An agent asks for the status of its job only once it drives load, so a stop does
not reach one that is still warming up or holding. A stop that comes before any
agent has the job keeps it from every agent, because a poll hands out only active
jobs and a stopped job never becomes active again.
-/
namespace R2Bench
open Interleaving Machines

/-! ## Polls that have not read the job -/

/-- A result that does not show the job's row as active. -/
def Statement.Misses (jobId : String) : (st : Statement) → st.Result → Prop
  | .findActiveJob _, (job? : Option JobRow) => ∀ job ∈ job?, job.jobId ≠ jobId
  | _, _ => True

/-- Unless it reads the job's row from now on, the program is not answered with
the job. -/
def Unaware (jobId : String) : Handler → Prop
  | .done reply => ∀ r, reply = .poll (.run r) → r.jobId ≠ jobId
  | .call st k => ∀ res, st.Misses jobId res → Unaware jobId (k res)

theorem unaware_done {jobId : String} {reply : Reply} (h : ∀ r, reply ≠ .poll (.run r)) :
    Unaware jobId (.done reply) := fun r hr => absurd hr (h r)

theorem grantSlot_unaware {jobId : String} {job : JobRow} (h : job.jobId ≠ jobId)
    (agentId : String) (slot : Option ℕ) : Unaware jobId (grantSlot job agentId slot) := by
  have hanswer : Unaware jobId (.done (.poll (.run (runResponse job agentId slot)))) := by
    rintro r ⟨⟩
    exact h
  simp only [grantSlot, await_bind, Prog.pure_eq]
  split_ifs
  · exact fun _ _ => hanswer
  · exact hanswer

/-- A poll reads its job first. -/
theorem agentPoll_unaware (jobId : String) (env : Env) (tie : ℕ) (body : AgentPollRequest) :
    Unaware jobId (agentPoll env tie body) := by
  simp only [agentPoll, claimAndGrant, await_bind, Prog.pure_eq]
  split_ifs
  · exact unaware_done (by simp)
  · exact unaware_done (by simp)
  intro job? hjob
  cases job? with
  | none => exact unaware_done (by simp [IDLE])
  | some job =>
    have hne : job.jobId ≠ jobId := hjob job rfl
    intro now _
    dsimp only
    split_ifs
    · exact unaware_done (by simp [IDLE])
    intro existing _
    cases existing with
    | some row =>
      dsimp only
      split_ifs
      · exact unaware_done (by simp [IDLE])
      · exact fun _ _ => grantSlot_unaware hne _ _
    | none =>
      intro claimed _
      cases claimed with
      | error _ => exact unaware_done (by simp)
      | ok _ =>
        intro slot _
        cases slot with
        | none => exact unaware_done (by simp)
        | some slot => exact grantSlot_unaware hne _ _

/-! ## After the stop -/

/-- The job is there and no longer active. -/
def Halted (jobId : String) (w : World) : Prop :=
  ∃ j ∈ w.db.jobs, j.jobId = jobId ∧ j.status.isActive = false

theorem Halted.evolves {jobId : String} {w w' : World} (h : Halted jobId w)
    (he : Evolves w w') : Halted jobId w' := by
  obtain ⟨j, hj, hid, hactive⟩ := h
  obtain ⟨j', hj', hs⟩ := he.jobs.mem hj
  refine ⟨j', hj', hs.jobId.trans hid, ?_⟩
  cases hstill : j'.status.isActive
  · rfl
  · rw [hs.active hstill] at hactive
    cases hactive

/-- Polls find active jobs only. -/
theorem Halted.misses {jobId : String} {env : Env} {w : World} (h : Halted jobId w)
    (hw : WorldInv env w) (st : Statement) : st.Misses jobId (st.exec w).1 := by
  cases st with
  | findActiveJob tie =>
    intro job hjob hid
    obtain ⟨hmem, hactive⟩ := Database.findActiveJob_mem (Option.mem_def.mp hjob)
    obtain ⟨j, hj, hjid, hhalted⟩ := h
    obtain rfl := hw.job_eq hmem hj (hid.trans hjid.symm)
    rw [hactive] at hhalted
    cases hhalted
  | _ => exact trivial

/-- An agent that has not been given the job and will not be by its poll. One that
was interrupted in its hold has given the job up. -/
def Agent.Clear (v : Plane) (jobId : String) (s : Agent) : Prop :=
  match s.phase with
  | .polling i => ∀ a p, v.threads[i]? = some ⟨a, some p⟩ → Unaware jobId p
  | .warming resp => resp.jobId ≠ jobId
  | .holding resp => s.interrupted = false → resp.jobId ≠ jobId
  | _ => True

def Agent.Drives (jobId : String) (s : Agent) : Prop :=
  ∃ resp watch, s.phase = .running resp watch ∧ resp.jobId = jobId

/-- No agent has the job, and no poll that is being served has read it. -/
def Fleet.Unassigned (f : Fleet) (jobId : String) : Prop :=
  ∀ agent, (f.agents agent).Clear f.plane jobId

section
variable {env : Env} {f f' : Fleet} {jobId : String}

/-- A poll in service stays unaware of the job while it does not read its row. -/
theorem Unaware.step {v v' : Plane} {a : Action Arrival ℕ}
    (hstep : (controlPlane env).step v a = some v') {i : ℕ}
    {u : Thread Statement Statement.Result Arrival Reply} (hi : v.threads[i]? = some u)
    (hmiss : ∀ st, a = .exec i → v.next? i = some st → st.Misses jobId (st.exec v.store).1)
    (h : ∀ p, u.rest = some p → Unaware jobId p) {b : Arrival} {q : Handler}
    (hi' : v'.threads[i]? = some ⟨b, some q⟩) : Unaware jobId q := by
  rcases (controlPlane env).step_thread hstep hi with ⟨hsame, -⟩ | ⟨st, k, ha, hk, -, hnext⟩ | hgone
  · obtain rfl : u = _ := Option.some.inj (hsame.symm.trans hi')
    exact h q rfl
  · rw [hi'] at hnext
    cases hnext
    refine h _ hk _ (hmiss st ha ?_)
    simp [Pool.next?, hi, Thread.next?, hk]
  · rw [hi'] at hgone
    cases hgone

/-- A poll that an agent waits for, after a step of the fleet. -/
theorem Fleet.Inv.unaware_moves (hf : f.Inv env) (h : f.Moves env f')
    (hhalted : Halted jobId f.plane.store) {agent : String} {i : ℕ}
    (hi : (f.agents agent).phase = .polling i)
    (hun : ∀ a p, f.plane.threads[i]? = some ⟨a, some p⟩ → Unaware jobId p) {b : Arrival}
    {q : Handler} (hi' : f'.plane.threads[i]? = some ⟨b, some q⟩) : Unaware jobId q := by
  rcases h.1 with hsame | ⟨a, ha⟩
  · rw [hsame] at hi'
    exact hun b q hi'
  · obtain ⟨u, body, hu, -⟩ := hf.awaited agent i hi
    refine Unaware.step ha hu (fun st _ _ => hhalted.misses hf.reachable.inv st)
      (fun p hp => hun u.request p ?_) hi'
    rw [hu, ← hp]

/-- A fresh poll has not read anything. -/
theorem handle_unaware {agent : String} {arrival : Arrival}
    (h : arrival.request.pollsFor agent = true) : Unaware jobId (handle env arrival) := by
  obtain ⟨request, uuid, tie⟩ := arrival
  obtain ⟨body, rfl⟩ := Request.exists_of_pollsFor h
  exact agentPoll_unaware jobId env tie body

theorem Fleet.Inv.clear_moves (hf : f.Inv env) (h : f.Moves env f')
    (hhalted : Halted jobId f.plane.store) {agent : String}
    (hclear : (f.agents agent).Clear f.plane jobId)
    (hdrives : ¬ (f.agents agent).Drives jobId) :
    (f'.agents agent).Clear f'.plane jobId ∧ ¬ (f'.agents agent).Drives jobId := by
  have hturn := h.2 agent
  have hpoll := @unaware_moves env f f' jobId hf h hhalted agent
  generalize hold : f.agents agent = s at hturn hpoll hclear hdrives
  generalize hnew : f'.agents agent = s' at hturn
  obtain ⟨phase, interrupted⟩ := s
  cases hturn with
  | stay =>
    refine ⟨?_, hdrives⟩
    cases phase with
    | polling i => exact fun a p hi => hpoll rfl hclear hi
    | _ => exact hclear
  | interrupt =>
    refine ⟨?_, hdrives⟩
    cases phase with
    | polling i => exact fun a p hi => hpoll rfl hclear hi
    | warming resp => exact hclear
    | holding resp => exact fun h => by cases h
    | _ => exact trivial
  | idle =>
    refine ⟨trivial, ?_⟩
    rintro ⟨resp, watch, ⟨⟩, -⟩
  | @poll arrival hpolls hthread =>
    refine ⟨fun a p hi => ?_, ?_⟩
    · rw [hthread] at hi
      cases hi
      exact handle_unaware hpolls
    · rintro ⟨resp, watch, ⟨⟩, -⟩
  | @given i resp hreply =>
    obtain ⟨a, ha⟩ := replyOf_eq hreply
    refine ⟨hclear a _ ha resp rfl, ?_⟩
    rintro ⟨resp, watch, ⟨⟩, -⟩
  | hold _ =>
    refine ⟨fun _ => hclear, ?_⟩
    rintro ⟨resp, watch, ⟨⟩, -⟩
  | late _ =>
    refine ⟨trivial, ?_⟩
    rintro ⟨resp, watch, ⟨⟩, hid⟩
    exact hclear hid
  | release _ =>
    refine ⟨trivial, ?_⟩
    rintro ⟨resp, watch, ⟨⟩, hid⟩
    exact hclear rfl hid
  | @watch resp watch =>
    refine ⟨trivial, ?_⟩
    rintro ⟨_, _, ⟨⟩, hid⟩
    exact hdrives ⟨resp, watch, rfl, hid⟩

end

/-! ## Runs -/

section
variable {env : Env} {clock now : ℤ} {acts acts' : List FleetAct} {f f' g : Fleet} {i : ℕ}
  {jobId : String} {j : JobRow}

/-- A run of the fleet from an idle one. -/
abbrev FleetRun (env : Env) (f : Fleet) (acts : List FleetAct) (g : Fleet) : Prop :=
  Run (Fleet.step env) (fun _ _ => True) f acts g

/-- What a response says of its job is what the job's row says. -/
theorem Fleet.Inv.startAt_eq (hf : f.Inv env) {k : ℕ} {body : AgentPollRequest}
    {resp : RunResponse} (h : Handed f.plane k body resp) (hj : j ∈ f.plane.store.db.jobs)
    (hid : j.jobId = resp.jobId) : resp.startAtEpochMs = j.startAt := by
  obtain ⟨job, slot, hs, rfl⟩ := hf.reachable.handed h
  obtain ⟨j', hj', hterms⟩ := hs.known
  have hsame : j' = j := by
    apply hf.reachable.inv.job_eq hj' hj
    rw [congrArg JobTerms.jobId hterms, hid]
    rfl
  rw [← hsame]
  exact (congrArg JobTerms.startAt hterms).symm

/-- Before the start of a job nobody drives it, up to now. -/
theorem not_drives_before (before : FleetRun env (idleFleet clock) acts g)
    (run : FleetRun env g acts' f) (hj : j ∈ f.plane.store.db.jobs) (hid : j.jobId = jobId)
    (hearly : f.clock < j.startAt) (agent : String) : ¬ (g.agents agent).Drives jobId := by
  rintro ⟨resp, watch, hphase, hresp⟩
  have hg := Fleet.inv before
  obtain ⟨k, body, hhanded⟩ := hg.given agent resp (by rw [hphase]; rfl)
  have hstarted := hg.started agent resp watch hphase
  have hlater : f.Inv env ∧ Handed f.plane k body resp ∧ g.clock ≤ f.clock := by
    refine run.invariant
      (I := fun u => u.Inv env ∧ Handed u.plane k body resp ∧ g.clock ≤ u.clock)
      ⟨hg, hhanded, le_rfl⟩ ?_
    rintro u act u' - hstep ⟨hu, hh, hc⟩
    have hmoves := Fleet.moves hstep
    exact ⟨hu.moves hmoves, hmoves.handed hh, hc.trans (hmoves.clock_le hu.reachable)⟩
  obtain ⟨hf, hh, hclock⟩ := hlater
  have hstart := hf.startAt_eq hh hj (hid.trans hresp.symm)
  omega

/-- The statement of an accepted stop halts its job. -/
theorem halted_of_requestStop {w : World} (hj : j ∈ w.db.jobs) (hid : j.jobId = jobId)
    (hopen : j.status.isTerminal = false) :
    Halted jobId ((Statement.requestStop now jobId).exec w).2 := by
  refine ⟨{ j with status := .stopping, stopAt := now }, ?_, hid, rfl⟩
  exact Tables.mem_updateWhere.mpr ⟨j, hj, by simp [hid, hopen]⟩

/-- The stop's own statement reads no job. -/
theorem Fleet.Inv.clear_stop (hf : f.Inv env)
    (hstop : f.plane.next? i = some (.requestStop now jobId))
    (hclear : f.Unassigned jobId) (accepted : f.step env (.plane (.exec i)) = some f') :
    f'.Unassigned jobId := by
  obtain ⟨plane, hplane, rfl⟩ := Option.map_eq_some_iff.mp accepted
  intro agent
  have hagent := hclear agent
  have hawaited := hf.awaited agent
  show (f.agents agent).Clear plane jobId
  generalize f.agents agent = s at hagent hawaited
  obtain ⟨phase, interrupted⟩ := s
  cases phase with
  | polling k =>
    obtain ⟨u, body, hu, -⟩ := hawaited k rfl
    intro a p hp
    refine Unaware.step hplane hu (fun st hk hnext => ?_) (fun q hq => hagent u.request q ?_) hp
    · have hsame : i = k := by simpa using hk
      subst hsame
      obtain rfl := Option.some.inj (hstop.symm.trans hnext)
      exact trivial
    · rw [hu, ← hq]
  | _ => exact hagent

theorem halted_of_stop (hstop : f.plane.next? i = some (.requestStop now jobId))
    (hj : j ∈ f.plane.store.db.jobs) (hid : j.jobId = jobId)
    (hopen : j.status.isTerminal = false) (accepted : f.step env (.plane (.exec i)) = some f') :
    Halted jobId f'.plane.store := by
  obtain ⟨plane, hplane, rfl⟩ := Option.map_eq_some_iff.mp accepted
  show Halted jobId plane.store
  rw [(controlPlane env).exec_store hplane hstop]
  exact halted_of_requestStop hj hid hopen

/-- A stop that is accepted more than one status period before the start of its
job, while no agent has the job and no poll in service has read it, keeps every
agent from ever driving it. -/
theorem stopped_never_drives (before : FleetRun env (idleFleet clock) acts f)
    (hstop : f.plane.next? i = some (.requestStop now jobId))
    (hj : j ∈ f.plane.store.db.jobs) (hid : j.jobId = jobId)
    (hopen : j.status.isTerminal = false) (hearly : f.clock + STATUS_POLL_MS < j.startAt)
    (hclear : f.Unassigned jobId) (accepted : f.step env (.plane (.exec i)) = some f') :
    (∀ g acts₁ acts₂, FleetRun env (idleFleet clock) acts₁ g → FleetRun env g acts₂ f →
      ∀ agent, ¬ (g.agents agent).Drives jobId) ∧
    (∀ g acts', FleetRun env f' acts' g → ∀ agent, ¬ (g.agents agent).Drives jobId) := by
  have hbefore : f.clock < j.startAt := by
    unfold STATUS_POLL_MS at hearly
    omega
  refine ⟨fun g acts₁ acts₂ h₁ h₂ => not_drives_before h₁ h₂ hj hid hbefore, ?_⟩
  intro g acts' after agent
  have hf := Fleet.inv before
  have hdrives : ¬ (f'.agents agent).Drives jobId := by
    obtain ⟨plane, -, rfl⟩ := Option.map_eq_some_iff.mp accepted
    exact not_drives_before before .start hj hid hbefore agent
  have hkept : g.Inv env ∧ Halted jobId g.plane.store ∧
      (g.agents agent).Clear g.plane jobId ∧ ¬ (g.agents agent).Drives jobId := by
    refine after.invariant (I := fun u => u.Inv env ∧ Halted jobId u.plane.store ∧
      (u.agents agent).Clear u.plane jobId ∧ ¬ (u.agents agent).Drives jobId)
      ⟨hf.moves (Fleet.moves accepted), halted_of_stop hstop hj hid hopen accepted,
        hf.clear_stop hstop hclear accepted agent, hdrives⟩ ?_
    rintro u act u' - hstep ⟨hu, hhalted, hc, hd⟩
    have hmoves := Fleet.moves hstep
    refine ⟨hu.moves hmoves, ?_, hu.clear_moves hmoves hhalted hc hd⟩
    rcases hmoves.1 with hsame | ⟨a, ha⟩
    · rwa [hsame]
    · exact hhalted.evolves (hu.reachable.evolves_step ha)
  exact hkept.2.2.2

/-- An agent that has the job when it is stopped can go on to drive it: nothing
that it does before its start depends on the job's status. -/
theorem exists_drives {agent : String} {resp : RunResponse}
    (h : (f.agents agent).phase = .warming resp ∨ f.agents agent = ⟨.holding resp, false⟩) :
    ∃ acts g, FleetRun env f acts g ∧ (g.agents agent).Drives resp.jobId := by
  let d := (resp.startAtEpochMs - f.clock).toNat
  let later : Fleet :=
    { f with plane := ⟨{ f.plane.store with clock := f.plane.store.clock + d }, f.plane.threads⟩ }
  have hwait : FleetRun env f [.plane (.drift d)] later := Run.start.next trivial rfl
  have hstart : resp.startAtEpochMs ≤ later.clock := by
    show resp.startAtEpochMs ≤ f.clock + d
    omega
  have hdrives : ((later.setPhase agent (drive later.clock resp)).agents agent).Drives
      resp.jobId :=
    ⟨resp, ⟨later.clock, none, false⟩, by simp [Fleet.setPhase, drive], rfl⟩
  rcases h with hwarming | hholding
  · have hstep : later.step env (.warmed agent) =
        some (later.setPhase agent (drive later.clock resp)) := by
      simp only [Fleet.step, show (later.agents agent).phase = .warming resp from hwarming]
      rw [if_neg (not_lt.mpr hstart)]
    exact ⟨_, _, hwait.next trivial hstep, hdrives⟩
  · have hstep : later.step env (.released agent) =
        some (later.setPhase agent (drive later.clock resp)) := by
      simp only [Fleet.step, show later.agents agent = ⟨.holding resp, false⟩ from hholding]
      rw [if_pos hstart]
    exact ⟨_, _, hwait.next trivial hstep, hdrives⟩

/-- The control plane does not move agents. -/
theorem agents_of_plane (run : FleetRun env f acts g)
    (h : ∀ act ∈ acts, ∃ a, act = .plane a) : g.agents = f.agents := by
  induction run with
  | start => rfl
  | @next _ _ _ last run _ moved ih =>
    obtain ⟨a, rfl⟩ := h last (by simp)
    obtain ⟨plane, -, rfl⟩ := Option.map_eq_some_iff.mp moved
    exact ih fun act hact => h act (List.mem_append_left _ hact)

end

/-- Thread 1 or 2 is about to execute an early stop of the sample job. -/
def stopsEarly (i : ℕ) (f : Fleet) : Bool :=
  f.plane.next? i = some (.requestStop 0 sampleUuid.text) ∧
    f.plane.store.db.jobs.any fun j => j.jobId = sampleUuid.text ∧ !j.status.isTerminal ∧
      f.clock + STATUS_POLL_MS < j.startAt

def drivesSample (agent : String) (f : Fleet) : Bool :=
  match (f.agents agent).phase with
  | .running resp _ => resp.jobId = sampleUuid.text
  | _ => false

theorem stopsEarly_job {i : ℕ} {f : Fleet} (h : stopsEarly i f = true) :
    f.plane.next? i = some (.requestStop 0 sampleUuid.text) ∧
      ∃ j ∈ f.plane.store.db.jobs, j.jobId = sampleUuid.text ∧ j.status.isTerminal = false ∧
        f.clock + STATUS_POLL_MS < j.startAt := by
  obtain ⟨hstop, hjob⟩ := of_decide_eq_true h
  obtain ⟨j, hj, hjob⟩ := List.any_eq_true.mp hjob
  obtain ⟨hid, hopen, hearly⟩ := of_decide_eq_true hjob
  exact ⟨hstop, j, hj, hid, by simpa using hopen, hearly⟩

/-- A job that starts in a minute is queued, and an operator stops it. -/
def queuedAndStopped : List FleetAct :=
  (.arrive (startOf 5 1 1 60) :: serve 3 0 ++ .arrive (stopOf sampleUuid.text) :: serve 1 1).map
    .plane

theorem stopped_never_drives_queued : ∃ acts f f' g,
    FleetRun bareEnv (idleFleet 0) acts f ∧ stopsEarly 1 f = true ∧
    f.step bareEnv (.plane (.exec 1)) = some f' ∧
    FleetRun bareEnv f' [.plane (.drift 60000)] g ∧
    ∀ agent, ¬ (g.agents agent).Drives sampleUuid.text := by
  obtain ⟨f, hrun, hf⟩ := exists_run_of_replay (Fleet.step bareEnv) (idleFleet 0) queuedAndStopped
    (fun f => stopsEarly 1 f && (f.step bareEnv (.plane (.exec 1))).any fun f' =>
      (f'.step bareEnv (.plane (.drift 60000))).isSome) (by decide +kernel)
  obtain ⟨hearly, hnext⟩ := (Bool.and_eq_true _ _).mp hf
  obtain ⟨f', hstep, hlater⟩ := (Option.any_eq_true _ _).mp hnext
  obtain ⟨g, hg⟩ := Option.isSome_iff_exists.mp hlater
  obtain ⟨hstop, j, hj, hid, hopen, hstart⟩ := stopsEarly_job hearly
  have hagents : f.agents = (idleFleet 0).agents := by
    apply agents_of_plane hrun
    intro act hact
    obtain ⟨a, -, rfl⟩ := List.mem_map.mp hact
    exact ⟨a, rfl⟩
  have hclear : f.Unassigned sampleUuid.text := by
    intro agent
    rw [hagents]
    exact trivial
  have hafter : FleetRun bareEnv f' [.plane (.drift 60000)] g := Run.start.next trivial hg
  exact ⟨_, f, f', g, hrun, hearly, hstep, hafter,
    (stopped_never_drives hrun hstop hj hid hopen hstart hclear hstep).2 g _ hafter⟩

/-- An agent has the job and holds when the operator stops it, a minute before
its start. -/
def heldAndStopped : List FleetAct :=
  (.arrive (startOf 5 1 1 60) :: serve 3 0).map .plane ++
    .poll "a" (pollOf "a") :: (serve 6 1).map .plane ++
    .answered "a" :: .warmed "a" ::
    (.arrive (stopOf sampleUuid.text) :: serve 1 2).map .plane

/-- The agent does not notice the stop and drives load from the start instant. -/
theorem stopped_drives : ¬ ∀ (env : Env) (clock now : ℤ) (acts acts' : List FleetAct)
    (f f' g : Fleet) (i : ℕ) (jobId : String) (j : JobRow),
    FleetRun env (idleFleet clock) acts f → f.plane.next? i = some (.requestStop now jobId) →
    j ∈ f.plane.store.db.jobs → j.jobId = jobId → j.status.isTerminal = false →
    f.clock + STATUS_POLL_MS < j.startAt → f.step env (.plane (.exec i)) = some f' →
    FleetRun env f' acts' g → ∀ agent, ¬ (g.agents agent).Drives jobId := by
  intro hclaim
  obtain ⟨f, hrun, hf⟩ := exists_run_of_replay (Fleet.step bareEnv) (idleFleet 0) heldAndStopped
    (fun f => stopsEarly 2 f && (f.step bareEnv (.plane (.exec 2))).any fun f' =>
      (replay (Fleet.step bareEnv) [.plane (.drift 60000), .released "a"] f').any
        (drivesSample "a")) (by decide +kernel)
  obtain ⟨hearly, hnext⟩ := (Bool.and_eq_true _ _).mp hf
  obtain ⟨f', hstep, hlater⟩ := (Option.any_eq_true _ _).mp hnext
  obtain ⟨g, hafter, hdrives⟩ := exists_run_of_replay _ _ _ _ hlater
  obtain ⟨hstop, j, hj, hid, hopen, hstart⟩ := stopsEarly_job hearly
  have hidle := hclaim bareEnv 0 0 _ _ f f' g 2 _ j hrun hstop hj hid hopen hstart hstep hafter "a"
  unfold drivesSample at hdrives
  split at hdrives
  · case h_1 resp watch hphase => exact hidle ⟨resp, watch, hphase, of_decide_eq_true hdrives⟩
  · cases hdrives

end R2Bench
