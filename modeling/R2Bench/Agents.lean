import R2Bench.Contracts
import R2Bench.Rounding
import R2Bench.Shares
import R2Bench.Statements

/-!
# The agent registry

`agentPoll` hands out work and `rpsForSlot` splits the target. A handler is the
sequence of statements it awaits, so other handlers may run between any two.
-/
namespace R2Bench
open Interleaving

abbrev Handler := Prog Statement Statement.Result Reply

/-- `await` of one statement. -/
def await (st : Statement) : Prog Statement Statement.Result st.Result := Prog.perform st

@[simp] theorem await_bind {α : Type} (st : Statement)
    (f : st.Result → Prog Statement Statement.Result α) :
    @Bind.bind _ _ (no_index st.Result) _ (await st) f = .call st f := rfl

/-- The UTF-16 code units that `length` and `charCodeAt` see. -/
def charCodes (s : String) : List ℕ :=
  s.toList.flatMap fun c =>
    if c.toNat < 0x10000 then [c.toNat]
    else [0xD800 + (c.toNat - 0x10000) / 0x400, 0xDC00 + (c.toNat - 0x10000) % 0x400]

/-- The OR of the XORs of the code units, as both comparison loops build it. -/
def charDiff (expected presented : String) : ℕ :=
  ((charCodes expected).zip (charCodes presented)).foldl (fun diff c => diff ||| (c.1 ^^^ c.2)) 0

def verifyAgentToken (env : Env) (presented : Option String) : Bool :=
  match presented with
  | none => false
  | some presented =>
    if env.agentToken = "" ∨ presented = "" ∨
        (charCodes presented).length ≠ (charCodes env.agentToken).length then false
    else charDiff env.agentToken presented = 0

/-- Numbers carry 53 significant bits: the division and the sum are rounded. -/
def rpsForSlot (targetRPS agents slot : ℕ) : ℕ :=
  if agents ≤ 0 then 0
  else
    let base := ⌊Rounding.nearest 53 ((targetRPS : ℚ) / agents)⌋
    let remainder := targetRPS % agents
    ⌊Rounding.nearest 53 ((base + if slot < remainder then 1 else 0 : ℤ) : ℚ)⌋.toNat

/-- `JOB_ID` and agent id joined by a hyphen. -/
def spawnIdOf (jobId agentId : String) : String := jobId ++ "-" ++ agentId

def IDLE : Reply := .poll (.idle none)

/-- The answer to an agent that holds a slot. A `SLOT` of null would compare as
zero, as in the source. -/
def runResponse (job : JobRow) (agentId : String) (slot : Option ℕ) : RunResponse :=
  { jobId := job.jobId, spawnId := spawnIdOf job.jobId agentId,
    targetRPS := rpsForSlot job.rps job.agents (slot.getD 0),
    workers := job.workersPerAgent, startAtEpochMs := job.startAt,
    stopAtEpochMs := job.stopAt, unthrottled := job.unthrottled = 1 }

/-- The end of `agentPoll`: mark a queued job running, then answer. -/
def grantSlot (job : JobRow) (agentId : String) (slot : Option ℕ) : Handler := do
  if job.status = .queued then
    await (.markRunning job.jobId)
  return .poll (.run (runResponse job agentId slot))

/-- The branch of `agentPoll` for an agent without a row: claim, then read back. -/
def claimAndGrant (job : JobRow) (body : AgentPollRequest) (now : ℤ) : Handler := do
  let spawnId := spawnIdOf job.jobId body.agentId
  let claimed ← await (.claimSlot
    { spawnId, jobId := job.jobId, agentId := body.agentId,
      region := body.region.getD "unknown", now, agents := job.agents })
  match claimed with
  | .error _ => return .unavailable
  | .ok () =>
    let claimed ← await (.selectSlot spawnId)
    match claimed with
    | none =>
      return .poll (.idle (some s!"job {job.jobId} has all {job.agents} slots filled"))
    | some slot => grantSlot job body.agentId slot

def agentPoll (env : Env) (tie : ℕ) (body : AgentPollRequest) : Handler := do
  if !verifyAgentToken env body.token then
    return .unauthorized "invalid agent token"
  if body.agentId = "" then
    return .poll (.idle (some "agentId is required"))
  let job? ← await (.findActiveJob tie)
  match job? with
  | none => return IDLE
  | some job =>
    let now ← await .dateNow
    if now ≥ job.stopAt then
      return IDLE
    let spawnId := spawnIdOf job.jobId body.agentId
    let existing ← await (.selectSpawn spawnId)
    match existing with
    | some (slot, status) =>
      if status ≠ .running then
        return IDLE
      await (.touchSpawn now spawnId)
      grantSlot job body.agentId slot
    | none => claimAndGrant job body now

/-- Up to `2 ^ 53` the rounded arithmetic is exact, and a slot gets its share. -/
theorem rpsForSlot_eq_share {targetRPS agents slot : ℕ} (ha : 0 < agents)
    (ht : targetRPS ≤ 2 ^ 53) : rpsForSlot targetRPS agents slot =
      Shares.share targetRPS agents slot := by
  have hbase := Rounding.floor_nearest_div (p := 53) (by norm_num) ha ht
  have hle : Shares.share targetRPS agents slot ≤ 2 ^ 53 := by
    refine le_trans ?_ ht
    have hdiv := Nat.div_add_mod targetRPS agents
    have hmul : 1 * (targetRPS / agents) ≤ agents * (targetRPS / agents) :=
      Nat.mul_le_mul_right _ ha
    unfold Shares.share
    split_ifs <;> omega
  have hsum : ((((targetRPS / agents : ℕ) : ℤ) +
      if slot < targetRPS % agents then 1 else 0 : ℤ) : ℚ) =
      (Shares.share targetRPS agents slot : ℕ) := by
    unfold Shares.share
    split_ifs <;> push_cast <;> rfl
  rw [rpsForSlot, if_neg (by omega)]
  simp only [hbase]
  rw [hsum, Rounding.nearest_natCast (by norm_num) hle]
  simp

/-- Ids of one length joined to agent ids determine both parts. -/
theorem spawnIdOf_inj {jobId jobId' agentId agentId' : String}
    (hlen : jobId.length = jobId'.length)
    (h : spawnIdOf jobId agentId = spawnIdOf jobId' agentId') :
    jobId = jobId' ∧ agentId = agentId' := by
  have hl := congrArg String.toList h
  simp only [spawnIdOf, String.toList_append, List.append_assoc] at hl
  obtain ⟨h1, h2⟩ := List.append_inj hl hlen
  have h3 := (List.append_inj h2 rfl).2
  exact ⟨String.toList_injective h1, String.toList_injective h3⟩

example : rpsForSlot 80003 8 2 = 10001 := by decide +kernel

end R2Bench
