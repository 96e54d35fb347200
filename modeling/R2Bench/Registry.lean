import R2Bench.Evolution

/-!
# The job and slot registry

The registry is what the database says once all updatable columns are erased:
job terms and spawn seats. Its invariant ties the seats of each job to a roster,
so duplicate agents, gaps between slots and overfull jobs are excluded by the
roster's own fields: members join one after another, and a member's place is its
position in the order of joining.
-/

/-! ## Rosters -/

/-- A duplicate-free list of at most `capacity` members, in order of joining. -/
structure Roster (α : Type*) (capacity : ℕ) where
  members : List α
  nodup : members.Nodup
  length_le : members.length ≤ capacity

namespace Roster
variable {α : Type*} {capacity : ℕ}

def empty (α : Type*) (capacity : ℕ) : Roster α capacity := ⟨[], List.nodup_nil, by simp⟩

variable [DecidableEq α]

/-- Join at the end; a present member or a full roster changes nothing. -/
def join (a : α) (r : Roster α capacity) : Roster α capacity :=
  if h : r.members.length < capacity ∧ a ∉ r.members then
    ⟨r.members ++ [a],
      List.nodup_append.mpr ⟨r.nodup, by simp, by
        intro x hx y hy; rintro rfl; exact h.2 (by simp_all)⟩,
      by simp; omega⟩
  else r

theorem join_members_of_room {a : α} {r : Roster α capacity}
    (hroom : r.members.length < capacity) (ha : a ∉ r.members) :
    (r.join a).members = r.members ++ [a] := by
  simp [join, hroom, ha]

end Roster

/-! ## The registry -/

namespace R2Bench
open Interleaving Tables

/-- The seats of one job are the places of a roster, in order of joining. -/
structure Occupies (seats : List SpawnSeat) (members : List String) : Prop where
  agents : seats.map SpawnSeat.agentId = members
  slots : seats.map SpawnSeat.slot = (List.range members.length).map some

def seatsOf (seats : List SpawnSeat) (jobId : String) : List SpawnSeat :=
  seats.filter fun s => s.jobId = jobId

/-- The invariant of the erased tables. -/
structure Registry (env : Env) (jobs : List JobTerms) (seats : List SpawnSeat) : Prop where
  jobIds : (jobs.map JobTerms.jobId).Nodup
  accepted : ∀ t ∈ jobs, ∃ (spec : JobSpec env) (uuid : Uuid), t = spec.terms uuid.text t.startAt
  spawnIds : (seats.map SpawnSeat.spawnId).Nodup
  named : ∀ s ∈ seats, s.spawnId = spawnIdOf s.jobId s.agentId
  owned : ∀ s ∈ seats, ∃ t ∈ jobs, t.jobId = s.jobId
  seated : ∀ t ∈ jobs, ∃ roster : Roster String t.agents,
    Occupies (seatsOf seats t.jobId) roster.members

namespace Occupies
variable {seats : List SpawnSeat} {members : List String}

theorem length_eq (h : Occupies seats members) : seats.length = members.length := by
  rw [← h.agents, List.length_map]

/-- The next slot is free. -/
theorem next_free (h : Occupies seats members) : ∀ s ∈ seats, s.slot ≠ some seats.length := by
  intro s hs he
  have hmem : some seats.length ∈ (List.range members.length).map some := by
    rw [← h.slots, ← he]
    exact List.mem_map_of_mem hs
  simp [h.length_eq] at hmem

/-- A seat at the next slot extends the roster by its agent. -/
theorem append (h : Occupies seats members) {s : SpawnSeat} (hs : s.slot = some seats.length) :
    Occupies (seats ++ [s]) (members ++ [s.agentId]) where
  agents := by simp [h.agents]
  slots := by simp [h.slots, hs, h.length_eq, List.range_succ]

end Occupies

namespace Registry
variable {env : Env} {jobs : List JobTerms} {seats : List SpawnSeat}

theorem empty (env : Env) : Registry env [] [] :=
  ⟨by simp, by simp, by simp, by simp, by simp, by simp⟩

theorem eq_of_jobId (h : Registry env jobs seats) {t t' : JobTerms} (ht : t ∈ jobs)
    (ht' : t' ∈ jobs) (he : t.jobId = t'.jobId) : t = t' :=
  List.inj_on_of_nodup_map h.jobIds ht ht' he

theorem jobId_length (h : Registry env jobs seats) {t : JobTerms} (ht : t ∈ jobs) :
    t.jobId.length = 36 := by
  obtain ⟨spec, uuid, he⟩ := h.accepted t ht
  rw [he]
  exact uuid.length_eq

/-- A seat found by the spawn id of a known job and an agent is that agent's
seat in that job: job ids have one length, so the joined id splits. -/
theorem seat_of_spawnId (h : Registry env jobs seats) {t : JobTerms} {s : SpawnSeat}
    {agentId : String} (ht : t ∈ jobs) (hs : s ∈ seats)
    (he : s.spawnId = spawnIdOf t.jobId agentId) : s.jobId = t.jobId ∧ s.agentId = agentId := by
  obtain ⟨t', ht', hown⟩ := h.owned s hs
  rw [h.named s hs] at he
  refine spawnIdOf_inj ?_ he
  rw [← hown, h.jobId_length ht', h.jobId_length ht]

/-- Inserting an accepted job under a new id: no seat belongs to it yet. -/
theorem insertJob (h : Registry env jobs seats) (spec : JobSpec env) (uuid : Uuid) (startAt : ℤ)
    (hnew : ∀ t ∈ jobs, t.jobId ≠ uuid.text) :
    Registry env (jobs ++ [spec.terms uuid.text startAt]) seats where
  jobIds := by
    rw [List.map_append, List.nodup_append]
    refine ⟨h.jobIds, by simp, ?_⟩
    intro x hx y hy heq
    subst heq
    obtain ⟨t, ht, rfl⟩ := List.mem_map.mp hx
    exact hnew t ht (by simpa [JobSpec.terms] using hy)
  accepted := by
    intro t ht
    rcases List.mem_append.mp ht with ht | ht
    · exact h.accepted t ht
    · obtain rfl := List.mem_singleton.mp ht
      exact ⟨spec, uuid, rfl⟩
  spawnIds := h.spawnIds
  named := h.named
  owned s hs := by
    obtain ⟨t, ht, he⟩ := h.owned s hs
    exact ⟨t, List.mem_append_left _ ht, he⟩
  seated := by
    intro t ht
    rcases List.mem_append.mp ht with ht | ht
    · exact h.seated t ht
    · obtain rfl := List.mem_singleton.mp ht
      have hnone : seatsOf seats (spec.terms uuid.text startAt).jobId = [] := by
        apply List.filter_eq_nil_iff.mpr
        intro s hs
        obtain ⟨t, ht, he⟩ := h.owned s hs
        simpa [← he, JobSpec.terms] using hnew t ht
      exact ⟨Roster.empty String _, by simp [hnone, Roster.empty], by simp [hnone, Roster.empty]⟩

/-- A claim that finds room and no row of its own is a `join` of the job's roster. -/
theorem claim (h : Registry env jobs seats) {t : JobTerms} {s : SpawnSeat} (ht : t ∈ jobs)
    (hjob : s.jobId = t.jobId) (hname : s.spawnId = spawnIdOf t.jobId s.agentId)
    (hslot : s.slot = some (seatsOf seats t.jobId).length)
    (hroom : (seatsOf seats t.jobId).length < t.agents)
    (hnew : ∀ s' ∈ seats, s'.spawnId ≠ s.spawnId) : Registry env jobs (seats ++ [s]) where
  jobIds := h.jobIds
  accepted := h.accepted
  spawnIds := by
    rw [List.map_append, List.nodup_append]
    refine ⟨h.spawnIds, by simp, ?_⟩
    intro x hx y hy heq
    subst heq
    obtain ⟨s', hs', rfl⟩ := List.mem_map.mp hx
    exact hnew s' hs' (by simpa using hy)
  named := by
    intro s' hs'
    rcases List.mem_append.mp hs' with hs' | hs'
    · exact h.named s' hs'
    · obtain rfl := List.mem_singleton.mp hs'
      rw [hname, hjob]
  owned := by
    intro s' hs'
    rcases List.mem_append.mp hs' with hs' | hs'
    · exact h.owned s' hs'
    · obtain rfl := List.mem_singleton.mp hs'
      exact ⟨t, ht, hjob.symm⟩
  seated := by
    intro t' ht'
    obtain ⟨roster, hocc⟩ := h.seated t' ht'
    by_cases he : t'.jobId = t.jobId
    · obtain rfl := h.eq_of_jobId ht' ht he
      have happ : seatsOf (seats ++ [s]) t'.jobId = seatsOf seats t'.jobId ++ [s] := by
        simp [seatsOf, hjob]
      have hout : s.agentId ∉ roster.members := by
        rw [← hocc.agents]
        intro hmem
        obtain ⟨s', hs', hagent⟩ := List.mem_map.mp hmem
        obtain ⟨hin, hjob'⟩ := List.mem_filter.mp hs'
        apply hnew s' hin
        rw [h.named s' hin, hname, hagent, of_decide_eq_true hjob']
      refine ⟨roster.join s.agentId, ?_⟩
      rw [happ, Roster.join_members_of_room (by rw [← hocc.length_eq]; exact hroom) hout]
      exact hocc.append hslot
    · refine ⟨roster, ?_⟩
      have hsame : seatsOf (seats ++ [s]) t'.jobId = seatsOf seats t'.jobId := by
        simp [seatsOf, hjob, Ne.symm he]
      rwa [hsame]

end Registry

/-- The invariant of the whole world: its registry, and the window of every job
that no stop has touched. -/
structure WorldInv (env : Env) (w : World) : Prop where
  registry : Registry env (w.db.jobs.map JobRow.toJobTerms) (w.db.spawns.map SpawnRow.toSpawnSeat)
  window : ∀ j ∈ w.db.jobs, j.status.isActive = true → j.stopAt = stopAtOf j.startAt j.duration

theorem Database.seatsOf_map (db : Database) (jobId : String) :
    seatsOf (db.spawns.map SpawnRow.toSpawnSeat) jobId =
      (db.spawnsOf jobId).map SpawnRow.toSpawnSeat := by
  simp only [seatsOf, Database.spawnsOf, List.filter_map]
  rfl

namespace WorldInv
variable {env : Env} {w : World}

theorem idle (env : Env) (clock : ℤ) : WorldInv env ⟨Database.empty, clock⟩ :=
  ⟨Registry.empty env, by simp [Database.empty]⟩

theorem terms_mem {j : JobRow} (hj : j ∈ w.db.jobs) :
    j.toJobTerms ∈ w.db.jobs.map JobRow.toJobTerms := List.mem_map_of_mem hj

theorem seat_mem {r : SpawnRow} (hr : r ∈ w.db.spawns) :
    r.toSpawnSeat ∈ w.db.spawns.map SpawnRow.toSpawnSeat := List.mem_map_of_mem hr

/-- The roster behind the spawn rows of a job. -/
theorem roster (h : WorldInv env w) {j : JobRow} (hj : j ∈ w.db.jobs) :
    ∃ roster : Roster String j.agents,
      Occupies ((w.db.spawnsOf j.jobId).map SpawnRow.toSpawnSeat) roster.members := by
  obtain ⟨roster, hocc⟩ := h.registry.seated _ (terms_mem hj)
  rw [Database.seatsOf_map] at hocc
  exact ⟨roster, hocc⟩

/-- `SPAWN_ID` is a key. -/
theorem spawn_eq (h : WorldInv env w) {r r' : SpawnRow} (hr : r ∈ w.db.spawns)
    (hr' : r' ∈ w.db.spawns) (he : r.spawnId = r'.spawnId) : r = r' := by
  have hnodup : (w.db.spawns.map fun r => r.spawnId).Nodup := by
    have hids := h.registry.spawnIds
    rwa [List.map_map] at hids
  exact List.inj_on_of_nodup_map hnodup hr hr' he

/-- `JOB_ID` is a key. -/
theorem job_eq (h : WorldInv env w) {j j' : JobRow} (hj : j ∈ w.db.jobs)
    (hj' : j' ∈ w.db.jobs) (he : j.jobId = j'.jobId) : j = j' := by
  have hnodup : (w.db.jobs.map fun j => j.jobId).Nodup := by
    have hids := h.registry.jobIds
    rwa [List.map_map] at hids
  exact List.inj_on_of_nodup_map hnodup hj hj' he

/-- The claiming `INSERT` never computes a slot that is taken. -/
theorem not_slotTaken (h : WorldInv env w) (c : Claim) : ¬ w.db.SlotTaken c := by
  rintro ⟨r, hr, hslot⟩
  obtain ⟨hmem, hjob⟩ := Database.mem_spawnsOf.mp hr
  obtain ⟨t, ht, hown⟩ := h.registry.owned _ (seat_mem hmem)
  obtain ⟨j, hj, rfl⟩ := List.mem_map.mp ht
  obtain ⟨roster, hocc⟩ := h.roster hj
  have hid : j.jobId = c.jobId := hown.trans hjob
  rw [hid] at hocc
  exact hocc.next_free _ (List.mem_map_of_mem hr) (by simpa using hslot)

end WorldInv

end R2Bench
