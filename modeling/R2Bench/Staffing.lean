import R2Bench.RunResponses
import R2Bench.SlotAllocation

/-!
# Agents that are turned away

`agentPoll` tells an agent without a row that all slots of the job are filled when
its claim left no row behind. The claim and the `SELECT` that finds nothing are two
statements, and neither reads the occupancy for the answer. The answer is true
nevertheless, and it stays true.
-/
namespace R2Bench
open Interleaving Tables

/-- Every slot of the job is held, and none by this agent. -/
structure TurnedAway (w : World) (j : JobTerms) (agentId : String) : Prop where
  full : (w.db.spawnsOf j.jobId).length = j.agents
  absent : ∀ r ∈ w.db.spawnsOf j.jobId, r.agentId ≠ agentId

/-- The rows of one job grow as the table does. -/
theorem Evolves.spawnsOf {w w' : World} (h : Evolves w w') (jobId : String) :
    Grows SpawnStep (w.db.spawnsOf jobId) (w'.db.spawnsOf jobId) :=
  h.spawns.filter fun hs => by rw [hs.jobId]

namespace WorldInv
variable {env : Env} {w w' : World} {j : JobTerms} {agentId : String}

theorem length_le_terms (h : WorldInv env w) (hj : ∃ row ∈ w.db.jobs, row.toJobTerms = j) :
    (w.db.spawnsOf j.jobId).length ≤ j.agents := by
  obtain ⟨row, hrow, rfl⟩ := hj
  exact h.length_le_agents hrow

/-- A full job takes no more rows, so the rows it has are the ones it had. -/
theorem turnedAway_evolves (h' : WorldInv env w') (hj : ∃ row ∈ w.db.jobs, row.toJobTerms = j)
    (h : TurnedAway w j agentId) (he : Evolves w w') : TurnedAway w' j agentId := by
  have hrows := he.spawnsOf j.jobId
  have hle := h'.length_le_terms (he.known hj)
  have hge := hrows.length_le
  have hfull := h.full
  refine ⟨by omega, fun r' hr' => ?_⟩
  obtain ⟨r, hr, hs⟩ := hrows.mem_back (by omega) hr'
  rw [hs.agentId]
  exact h.absent r hr

/-- A claim that left no row found the job full. -/
theorem turnedAway_of_claim {c : Claim} (h : WorldInv env w) (h' : WorldInv env w')
    (hj : ∃ row ∈ w'.db.jobs, row.toJobTerms = j) (hjob : c.jobId = j.jobId)
    (hagents : c.agents = j.agents) (hspawn : c.spawnId = spawnIdOf j.jobId agentId)
    (he : Evolves ((Statement.claimSlot c).exec w).2 w')
    (hnone : w'.db.spawn? (spawnIdOf j.jobId agentId) = none) : TurnedAway w' j agentId := by
  have hmissing : ∀ r ∈ w'.db.spawns, r.spawnId ≠ spawnIdOf j.jobId agentId := by
    simpa [Database.spawn?] using hnone
  have hbefore : ∀ r ∈ ((Statement.claimSlot c).exec w).2.db.spawns, r.spawnId ≠ c.spawnId := by
    intro r hr
    obtain ⟨r', hr', hs⟩ := he.spawns.mem hr
    rw [← hs.spawnId, hspawn]
    exact hmissing r' hr'
  have habsent : ∀ r ∈ w'.db.spawnsOf j.jobId, r.agentId ≠ agentId := by
    intro r hr hagent
    obtain ⟨hmem, hid⟩ := Database.mem_spawnsOf.mp hr
    apply hmissing r hmem
    rw [h'.registry.named _ (seat_mem hmem)]
    simp only [hid, hagent]
  have hle := h'.length_le_terms hj
  refine ⟨le_antisymm hle ?_, habsent⟩
  rcases w.db.claimSlot_cases c with ⟨hclaim, hno⟩ | ⟨-, htaken⟩ | ⟨hclaim, -⟩
  · simp only [Statement.exec, hclaim, World.attempt] at he hbefore
    have hocc : ¬ (w.db.spawnsOf c.jobId).length < c.agents := fun hlt => hno ⟨hlt, hbefore⟩
    have hgrow : (w.db.spawnsOf j.jobId).length ≤ (w'.db.spawnsOf j.jobId).length :=
      (he.spawnsOf j.jobId).length_le
    rw [hjob, hagents] at hocc
    omega
  · exact absurd htaken (h.not_slotTaken c)
  · -- the row that the claim added would have been found
    simp only [Statement.exec, hclaim, World.attempt] at hbefore
    exact absurd rfl (hbefore (Database.claimRow c (w.db.spawnsOf c.jobId).length) (by simp))

end WorldInv

/-- Why an idle answer gives a reason. -/
def IdleFor (body : AgentPollRequest) (message : String) (w : World) : Prop :=
  (body.agentId = "" ∧ message = "agentId is required") ∨
  ∃ j : JobTerms, (∃ row ∈ w.db.jobs, row.toJobTerms = j) ∧ TurnedAway w j body.agentId ∧
    message = s!"job {j.jobId} has all {j.agents} slots filled"

/-- `planeContract` for the other answer to a poll. -/
def staffingContract (env : Env) : Contract (controlPlane env) :=
  { planeContract env with
    Post := fun a r w =>
      match r, a.request with
      | .poll (.idle (some message)), .poll body => IdleFor body message w
      | _, _ => True }

theorem IdleFor.evolves {env : Env} {body : AgentPollRequest} {message : String} {w w' : World}
    (h : IdleFor body message w) (hi : WorldInv env w') (he : Evolves w w') :
    IdleFor body message w' := by
  obtain hempty | ⟨j, hj, haway, hmessage⟩ := h
  · exact .inl hempty
  · exact .inr ⟨j, he.known hj, hi.turnedAway_evolves hj haway he, hmessage⟩

section Handlers
variable {env : Env} {a : Arrival} {w : World} {body : AgentPollRequest}

theorem staffing_idle {message : String} (ha : a.request = .poll body)
    (h : ∀ w', WorldInv env w' → Evolves w w' → IdleFor body message w') :
    (staffingContract env).Holds a (.done (.poll (.idle (some message)))) w := by
  intro w' hi he
  simp only [staffingContract, ha]
  exact h w' hi he

theorem staffing_grantSlot {job : JobRow} {agentId : String} {slot : Option ℕ} :
    (staffingContract env).Holds a (grantSlot job agentId slot) w := by
  unfold grantSlot
  split_ifs
  · exact fun _ _ _ => ⟨trivial, fun _ _ _ => trivial⟩
  · exact fun _ _ _ => trivial

theorem staffing_claimAndGrant {job : JobRow} {now : ℤ} (ha : a.request = .poll body)
    (hknown : ∃ j ∈ w.db.jobs, j.toJobTerms = job.toJobTerms) :
    (staffingContract env).Holds a (claimAndGrant job body now) w := by
  simp only [claimAndGrant, await_bind, Prog.pure_eq]
  intro w₁ hi₁ he₁
  have hknown₁ := he₁.known hknown
  obtain ⟨j, hj, hterms⟩ := hknown₁
  refine ⟨⟨rfl, j, hj, congrArg JobTerms.jobId hterms, congrArg JobTerms.agents hterms⟩, ?_⟩
  have hclaim := Statement.exec_evolves (.claimSlot
    { spawnId := spawnIdOf job.jobId body.agentId, jobId := job.jobId, agentId := body.agentId,
      region := body.region.getD "unknown", now, agents := job.agents }) w₁
  dsimp only [controlPlane]
  split
  · exact fun _ _ _ => trivial
  · intro w₂ hi₂ he₂
    refine ⟨trivial, ?_⟩
    have hknown₂ := (hclaim.trans he₂).known ⟨j, hj, hterms⟩
    simp only [Statement.exec]
    cases hr : w₂.db.spawn? (spawnIdOf job.jobId body.agentId) with
    | none =>
      have haway : TurnedAway w₂ job.toJobTerms body.agentId :=
        hi₁.turnedAway_of_claim hi₂ hknown₂ rfl rfl rfl he₂ hr
      have hidle : IdleFor body s!"job {job.jobId} has all {job.agents} slots filled" w₂ :=
        .inr ⟨_, hknown₂, haway, rfl⟩
      exact staffing_idle ha fun w₃ hi₃ he₃ => hidle.evolves hi₃ he₃
    | some r => exact staffing_grantSlot

theorem staffing_agentPoll (ha : a.request = .poll body) :
    (staffingContract env).Holds a (agentPoll env a.tie body) w := by
  simp only [agentPoll, await_bind, Prog.pure_eq]
  split_ifs with htoken hagent
  · exact fun _ _ _ => trivial
  · exact staffing_idle ha fun _ _ _ => .inl ⟨hagent, rfl⟩
  intro w₁ hi₁ _
  refine ⟨trivial, ?_⟩
  simp only [Statement.exec, controlPlane]
  cases hjob : w₁.db.findActiveJob a.tie with
  | none => exact fun _ _ _ => trivial
  | some job =>
    obtain ⟨hmem, -⟩ := Database.findActiveJob_mem hjob
    intro w₂ _ he₂
    refine ⟨trivial, ?_⟩
    have hknown₂ := he₂.known ⟨job, hmem, rfl⟩
    dsimp only
    split_ifs
    · exact fun _ _ _ => trivial
    intro w₃ _ he₃
    refine ⟨trivial, ?_⟩
    have hknown₃ := he₃.known hknown₂
    simp only [Statement.exec]
    cases w₃.db.spawn? (spawnIdOf job.jobId body.agentId) with
    | none => exact staffing_claimAndGrant ha hknown₃
    | some r =>
      simp only [Option.map_some]
      split_ifs
      · exact fun _ _ _ => trivial
      · exact fun _ _ _ => ⟨trivial, staffing_grantSlot⟩

/-- Nothing is said about the replies to other requests. -/
theorem staffing_handle : (staffingContract env).Holds a (handle env a) w := by
  have hplane : (planeContract env).Wp (fun _ _ => True) (handle env a) w :=
    wp_handle.mono fun _ _ _ => trivial
  have hother : (∀ body, a.request ≠ .poll body) →
      (staffingContract env).Holds a (handle env a) w := by
    intro hno
    refine Contract.Wp.mono (fun r v _ => ?_) ((Contract.wp_withPost _).mpr hplane)
    simp only [staffingContract]
    split
    · exact absurd (by assumption) (hno _)
    · trivial
  cases hreq : a.request with
  | poll body =>
    unfold handle
    simp only [hreq]
    exact staffing_agentPoll hreq
  | _ => exact hother fun body h => by simp [hreq] at h

end Handlers

theorem staffingContract_valid (env : Env) : (staffingContract env).Valid :=
  { planeContract_valid env with handler := fun _ _ _ => staffing_handle }

theorem Reachable.staffed {env : Env} {w : Plane} (hw : Reachable env w) :
    (staffingContract env).Satisfied w := by
  obtain ⟨clock, hrun⟩ := hw
  exact (staffingContract_valid env).run hrun
    (Contract.satisfied_idle (WorldInv.idle env clock))

/-- Whoever is told that a job is staffed is told the truth, under any interleaving:
all slots of the job are held by others, in that state and for the rest of every run,
so that the agent never takes part in the job. -/
theorem turned_away_for_good {env : Env} {w : Plane} (hw : Reachable env w) {i : ℕ} {a : Arrival}
    {body : AgentPollRequest} {message : String} (ha : a.request = .poll body)
    (hagent : body.agentId ≠ "")
    (hi : w.threads[i]? = some ⟨a, some (.done (.poll (.idle (some message))))⟩) :
    ∃ j : JobTerms, message = s!"job {j.jobId} has all {j.agents} slots filled" ∧
      ∀ w', (controlPlane env).FreeRun w w' →
        (w'.store.db.spawnsOf j.jobId).map (fun r => r.slot) = (List.range j.agents).map some ∧
        (∀ r ∈ w'.store.db.spawnsOf j.jobId, r.agentId ≠ body.agentId) ∧
        ∀ i' body' resp, Handed w' i' body' resp → resp.jobId = j.jobId →
          body'.agentId ≠ body.agentId := by
  have hidle : IdleFor body message w.store := by
    have hpost := (staffingContract_valid env).post hw.staffed hi rfl
    simpa only [staffingContract, ha] using hpost
  obtain hempty | ⟨j, hj, haway, hmessage⟩ := hidle
  · exact absurd hempty.1 hagent
  refine ⟨j, hmessage, fun w' hrun => ?_⟩
  have hw' := hw.run hrun
  have haway' := hw'.inv.turnedAway_evolves hj haway (hw.evolves hrun)
  refine ⟨?_, haway'.absent, fun i' body' resp h hjob hsame => ?_⟩
  · obtain ⟨row, hrow, hterms⟩ := (hw.evolves hrun).known hj
    have hslots := hw'.inv.slots_eq hrow
    rwa [show row.jobId = j.jobId from congrArg JobTerms.jobId hterms, haway'.full] at hslots
  · obtain ⟨job, slot, hseated, rfl⟩ := hw'.handed h
    obtain ⟨r, hr, hown, hheld, -⟩ := hseated.row
    exact haway'.absent r (Database.mem_spawnsOf.mpr ⟨hr, hown.trans hjob⟩) (hheld.trans hsame)

/-- The reason in the idle answer that thread `i` has been given. -/
def idleMessage? (v : Plane) (i : ℕ) : Option String :=
  match v.threads[i]? with
  | some ⟨_, some (.done (.poll (.idle message)))⟩ => message
  | _ => none

theorem answered_of_idleMessage? {v : Plane} {i : ℕ} {message : String}
    (h : idleMessage? v i = some message) :
    ∃ a, v.threads[i]? = some ⟨a, some (.done (.poll (.idle (some message))))⟩ := by
  unfold idleMessage? at h
  split at h
  · next hi =>
    subst h
    exact ⟨_, hi⟩
  · cases h

/-- Two agents poll for a job with one slot, and both find no row of their own. -/
def oneSlot : List (Action Arrival ℕ) :=
  .arrive (startOf 5 1 1 0) :: serve 3 0 ++
    [.arrive (pollOf "a"), .arrive (pollOf "b")] ++ serve 3 1 ++ serve 3 2 ++ serve 3 1 ++ serve 2 2

theorem turned_away_for_good_oneSlot : ∃ (w : Plane) (j : JobTerms) (message : String),
    Reachable bareEnv w ∧ idleMessage? w 2 = some message ∧
    message = s!"job {j.jobId} has all {j.agents} slots filled" ∧
    (w.store.db.spawnsOf j.jobId).map (fun r => r.slot) = (List.range j.agents).map some := by
  obtain ⟨w, hrun, hw⟩ := (controlPlane bareEnv).exists_run_of_replay
    (w := idlePlane 0) (C := fun _ _ => True) (fun _ _ => true) (fun _ _ _ => trivial) oneSlot
    (fun w => (idleMessage? w 2).isSome ∧
      (w.threads[2]?.map fun u => u.request.request) = some (pollOf "b").request)
    (by decide +kernel)
  obtain ⟨hsome, hreq⟩ := of_decide_eq_true hw
  obtain ⟨message, hidle⟩ := Option.isSome_iff_exists.mp hsome
  obtain ⟨a, hi⟩ := answered_of_idleMessage? hidle
  have ha : a.request = .poll ⟨some "key", "b", none⟩ := by simpa [hi, pollOf] using hreq
  obtain ⟨j, hmessage, hstay⟩ := turned_away_for_good ⟨0, hrun⟩ ha (by decide) hi
  exact ⟨w, j, message, ⟨0, hrun⟩, hidle, hmessage, (hstay w Relation.ReflTransGen.refl).1⟩

end R2Bench
