import R2Bench.PlaneContract

/-!
# Slot allocation under any interleaving

The capacity check, the slot number and the row are one `INSERT`; everything a
poll reads before it may be out of date. Still the slots of a job are always an
initial segment, held by different agents.
-/
namespace R2Bench
open Interleaving Tables

namespace WorldInv
variable {env : Env} {w : World} {j : JobRow}

theorem slots_eq (h : WorldInv env w) (hj : j ∈ w.db.jobs) :
    (w.db.spawnsOf j.jobId).map (fun r => r.slot) =
      (List.range (w.db.spawnsOf j.jobId).length).map some := by
  obtain ⟨roster, hocc⟩ := h.roster hj
  have hlen := hocc.length_eq
  rw [List.length_map] at hlen
  have hslots := hocc.slots
  rwa [List.map_map, ← hlen] at hslots

theorem length_le_agents (h : WorldInv env w) (hj : j ∈ w.db.jobs) :
    (w.db.spawnsOf j.jobId).length ≤ j.agents := by
  obtain ⟨roster, hocc⟩ := h.roster hj
  have hlen := hocc.length_eq
  rw [List.length_map] at hlen
  exact hlen.le.trans roster.length_le

theorem agents_nodup (h : WorldInv env w) (hj : j ∈ w.db.jobs) :
    ((w.db.spawnsOf j.jobId).map fun r => r.agentId).Nodup := by
  obtain ⟨roster, hocc⟩ := h.roster hj
  have hagents := hocc.agents
  rw [List.map_map] at hagents
  exact hagents ▸ roster.nodup

theorem claimSlot_ok (h : WorldInv env w) (c : Claim) :
    ((Statement.claimSlot c).exec w).1 = .ok () := by
  rcases w.db.claimSlot_cases c with ⟨he, -⟩ | ⟨-, hs⟩ | ⟨he, -⟩
  · simp only [Statement.exec, he, World.attempt]
  · exact absurd hs (h.not_slotTaken c)
  · simp only [Statement.exec, he, World.attempt]

end WorldInv

/-- In every reachable state the slots of a job are `0, 1, ..., n - 1`, `n` is at
most `AGENTS`, no agent has two rows, rows keep their id and slot for the rest of
any run, and no claiming `INSERT` trips the unique index. -/
theorem slot_allocation_exact {env : Env} {w : Plane} (hw : Reachable env w) {j : JobRow}
    (hj : j ∈ w.store.db.jobs) :
    (w.store.db.spawnsOf j.jobId).map (fun r => r.slot) =
      (List.range (w.store.db.spawnsOf j.jobId).length).map some ∧
    (w.store.db.spawnsOf j.jobId).length ≤ j.agents ∧
    ((w.store.db.spawnsOf j.jobId).map fun r => r.agentId).Nodup ∧
    (∀ w', (controlPlane env).FreeRun w w' → ∀ (i : ℕ) r, w.store.db.spawns[i]? = some r →
      ∃ r', w'.store.db.spawns[i]? = some r' ∧ r'.spawnId = r.spawnId ∧ r'.slot = r.slot) ∧
    ∀ c, ((Statement.claimSlot c).exec w.store).1 = .ok () := by
  refine ⟨hw.inv.slots_eq hj, hw.inv.length_le_agents hj, hw.inv.agents_nodup hj, ?_,
    hw.inv.claimSlot_ok⟩
  intro w' hrun i r hr
  obtain ⟨r', hr', hs⟩ := (hw.evolves hrun).spawns i r hr
  exact ⟨r', hr', hs.spawnId, hs.slot⟩

/-! ## A small deployment -/

/-- No operator secret and no worker cap. -/
def bareEnv : Env := ⟨"key", "", .nan⟩

def sampleUuid : Uuid := ⟨"3f0e6c1a-9b5d-4c27-8a14-d2e7b06f9c35", by decide⟩

def otherUuid : Uuid := ⟨"a81d4fae-7dec-41d0-b765-00a0c91e6bf6", by decide⟩

def startOf (targetRPS agents duration startDelaySeconds : ℚ) : Arrival :=
  ⟨.start "" ⟨.finite targetRPS, .finite agents, none, .finite duration,
    some (.finite startDelaySeconds), false⟩, sampleUuid, 0⟩

def pollOf (agentId : String) : Arrival := ⟨.poll ⟨some "key", agentId, none⟩, sampleUuid, 0⟩

/-- Let thread `i` execute `n` statements. -/
def serve (n i : ℕ) : List (Action Arrival ℕ) := List.replicate n (.exec i)

/-- Two agents poll at once: both find no row before either claims. -/
def twoPolls : List (Action Arrival ℕ) :=
  .arrive (startOf 5 2 1 0) :: serve 3 0 ++
    [.arrive (pollOf "a"), .arrive (pollOf "b")] ++ serve 3 1 ++ serve 3 2 ++ serve 3 1 ++ serve 3 2

theorem slot_allocation_exact_twoPolls : ∃ w j, Reachable bareEnv w ∧ j ∈ w.store.db.jobs ∧
    (w.store.db.spawnsOf j.jobId).length = 2 ∧
    (w.store.db.spawnsOf j.jobId).map (fun r => r.slot) = [some 0, some 1] ∧
    ∀ c, ((Statement.claimSlot c).exec w.store).1 = .ok () := by
  obtain ⟨w, hrun, hw⟩ := (controlPlane bareEnv).exists_run_of_replay
    (w := idlePlane 0) (C := fun _ _ => True) (fun _ _ => true) (fun _ _ _ => trivial) twoPolls
    (fun w => w.store.db.jobs.any fun j => (w.store.db.spawnsOf j.jobId).length = 2)
    (by decide +kernel)
  obtain ⟨j, hj, hlen⟩ := List.any_eq_true.mp hw
  have hlen := of_decide_eq_true hlen
  have hr : Reachable bareEnv w := ⟨0, hrun⟩
  obtain ⟨hslots, -, -, -, hok⟩ := slot_allocation_exact hr hj
  exact ⟨w, j, hr, hj, hlen, by rw [hslots, hlen]; rfl, hok⟩

end R2Bench
