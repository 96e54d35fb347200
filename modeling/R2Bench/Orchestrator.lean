import R2Bench.Spawn

/-!
# Routing, starting and stopping jobs

`validate` is the prologue of `startJob`: what it accepts is a `JobSpec`, whose
fields carry the checks it passed. `startJob` computes START_AT and STOP_AT exactly; the
code's doubles round them, and overflow on a delay or duration near their maximum, where
D1 stores NULL and no agent is handed the job. `controlPlane` is the Worker as a system
of interleaved handlers.
-/
namespace R2Bench
open Interleaving

def MAX_AGENTS_PER_JOB : ℕ := 512

def DEFAULT_WORKERS_PER_AGENT : JsNumber := .finite 512

def DEFAULT_START_DELAY_SECONDS : JsNumber := .finite 30

/-- `positive_var` on an already converted variable. -/
def positiveVar : JsNumber → Option ℕ
  | .finite q => if 0 < q then some ⌊q⌋.toNat else none
  | _ => none

def maxWorkersPerAgent (env : Env) : Option ℕ := positiveVar env.maxWorkersPerAgent

/-- Operator authentication; skipped when no admin token is set. -/
def requireAdmin (env : Env) (presented : String) : Bool :=
  if env.adminToken = "" then true
  else if (charCodes presented).length ≠ (charCodes env.adminToken).length then false
  else charDiff env.adminToken presented = 0

/-- The numbers of a job that passed every check of `startJob`. -/
structure JobSpec (env : Env) where
  targetRPS : ℕ
  agents : ℕ
  workersPerAgent : ℕ
  duration : ℕ
  startDelaySeconds : ℕ
  unthrottled : Bool
  targetRPS_pos : 0 < targetRPS
  agents_pos : 0 < agents
  agents_le : agents ≤ MAX_AGENTS_PER_JOB
  workers_pos : 0 < workersPerAgent
  duration_pos : 0 < duration
  agents_le_target : unthrottled = false → agents ≤ targetRPS
  workers_le_cap : ∀ cap ∈ maxWorkersPerAgent env, workersPerAgent ≤ cap

/-- One turn of the loop over the four numbers that must be positive. -/
def checkPositive (name : String) (value : Option ℤ) : Except String {n : ℕ // 0 < n} :=
  match value with
  | some v =>
    if h : 0 < v then .ok ⟨v.toNat, by omega⟩
    else .error s!"{name} must be a positive number"
  | none => .error s!"{name} must be a positive number"

def checkStartDelay (value : Option ℤ) : Except String ℕ :=
  match value with
  | some v =>
    if v < 0 then .error "startDelaySeconds must be zero or greater" else .ok v.toNat
  | none => .error "startDelaySeconds must be zero or greater"

/-- The checks of `startJob` before its first statement, in their order. -/
def validate (env : Env) (req : JobStartRequest) : Except String (JobSpec env) := do
  let targetRPS ← checkPositive "targetRPS" req.targetRPS.floor?
  let agents ← checkPositive "agents" req.agents.floor?
  let workersPerAgent ← checkPositive "workersPerAgent"
    (req.workersPerAgent.getD DEFAULT_WORKERS_PER_AGENT).floor?
  let duration ← checkPositive "duration" req.duration.floor?
  let startDelaySeconds ← checkStartDelay
    (req.startDelaySeconds.getD DEFAULT_START_DELAY_SECONDS).floor?
  if hmax : MAX_AGENTS_PER_JOB < agents.1 then
    .error s!"agents must be at most {MAX_AGENTS_PER_JOB}"
  else if hfloor : req.unthrottled = false ∧ targetRPS.1 < agents.1 then
    .error ("targetRPS must be at least the number of agents " ++
      "so every agent gets at least 1 RPS")
  else if hcap : ∃ cap ∈ maxWorkersPerAgent env, cap < workersPerAgent.1 then
    .error (s!"workersPerAgent must be at most {(maxWorkersPerAgent env).getD 0}, " ++
      "the agents' MAX_WORKERS. Raising it means changing max_workers_per_agent " ++
      "in Terraform and rolling the fleet.")
  else
    .ok { targetRPS := targetRPS.1, agents := agents.1, workersPerAgent := workersPerAgent.1,
          duration := duration.1, startDelaySeconds, unthrottled := req.unthrottled,
          targetRPS_pos := targetRPS.2, agents_pos := agents.2, agents_le := not_lt.mp hmax,
          workers_pos := workersPerAgent.2, duration_pos := duration.2,
          agents_le_target := fun hu => not_lt.mp fun hlt => hfloor ⟨hu, hlt⟩,
          workers_le_cap := fun cap hc => not_lt.mp fun hlt => hcap ⟨cap, hc, hlt⟩ }

namespace JobSpec
variable {env : Env}

/-- The columns that `startJob` inserts. -/
def terms (spec : JobSpec env) (jobId : String) (startAt : ℤ) : JobTerms :=
  { jobId, rps := spec.targetRPS, concurrency := spec.agents, agents := spec.agents,
    workersPerAgent := spec.workersPerAgent, duration := spec.duration, startAt,
    unthrottled := if spec.unthrottled then 1 else 0 }

end JobSpec

/-- The end of a job's window: `duration` is in minutes. -/
def stopAtOf (startAt : ℤ) (duration : ℕ) : ℤ := startAt + duration * 60 * 1000

def startJob (env : Env) (uuid : Uuid) (tie : ℕ) (req : JobStartRequest) : Handler := do
  let invalid (message : String) : Reply := .start ⟨"error", message, req, none⟩
  match validate env req with
  | .error message => return invalid message
  | .ok spec =>
    let active ← await (.findUnfinishedJob tie)
    match active with
    | some jobId =>
      return invalid s!"job {jobId} is still active; stop it before starting another"
    | none =>
      let now ← await .dateNow
      let startAt := now + spec.startDelaySeconds * 1000
      let inserted ← await
        (.insertJob (spec.terms uuid.text startAt) (stopAtOf startAt spec.duration))
      match inserted with
      | .error _ => return .unavailable
      | .ok () =>
        return .start ⟨"success",
          s!"Job queued. Load starts in {spec.startDelaySeconds}s once agents check in.",
          req, some uuid.text⟩

def stopJob (body : WatchRequest) : Handler := do
  if body.jobId = "" then
    return .stop "unknown" "error" "No JobID provided"
  let now ← await .dateNow
  let changes ← await (.requestStop now body.jobId)
  return .stop body.jobId "STOPPING"
    (if changes ≠ 0 then "Stop requested; agents wind down within ~10s"
     else "Job was already finished or does not exist")

def verifyInternalRequest (env : Env) (data : SpawnStatusRequest) : Bool :=
  data.spawnId ≠ "" ∧ data.jobId ≠ "" ∧ verifyAgentToken env data.token

def getInternalJobStatus (body : SpawnStatusRequest) : Handler := do
  let status ← await (.selectStatus body.jobId)
  return .status ((status.map JobStatus.text).getD "unknown")

/-- The routed handlers, each behind its own authentication. -/
def handle (env : Env) (a : Arrival) : Handler :=
  let badAdmin : Handler := return .unauthorized "missing or invalid admin token"
  let badCallback : Handler := return .unauthorized "invalid agent callback token"
  match a.request with
  | .start presented req =>
    if requireAdmin env presented then startJob env a.uuid a.tie req else badAdmin
  | .poll body => agentPoll env a.tie body
  | .stop presented body => if requireAdmin env presented then stopJob body else badAdmin
  | .status body =>
    if verifyInternalRequest env body then getInternalJobStatus body else badCallback
  | .metrics report =>
    if verifyInternalRequest env report.toSpawnStatusRequest then
      recordBenchmarkMetrics a.uuid.text report
    else badCallback
  | .complete report =>
    if verifyInternalRequest env report.toSpawnStatusRequest then completeBenchmarkSpawn report
    else badCallback
  | .sweep => reapJobs

/-- The Worker: its handlers, D1's statements, and a clock that only advances. -/
def controlPlane (env : Env) : System Statement Statement.Result World Arrival Reply ℕ where
  exec := Statement.exec
  handler := handle env
  drift d w := { w with clock := w.clock + d }

theorem controlPlane_exec (env : Env) (st : Statement) (w : World) :
    (controlPlane env).exec st w = st.exec w := rfl

abbrev Plane := Pool Statement Statement.Result World Arrival Reply

/-- Empty tables, as the migrations leave them, and no request in service. -/
def idlePlane (clock : ℤ) : Plane := ⟨⟨Database.empty, clock⟩, []⟩

/-- Reached from empty tables by some interleaving of statements. -/
def Reachable (env : Env) (w : Plane) : Prop :=
  ∃ clock, (controlPlane env).FreeRun (idlePlane clock) w

theorem Reachable.run {env : Env} {w w' : Plane} (h : Reachable env w)
    (hr : (controlPlane env).FreeRun w w') : Reachable env w' := by
  obtain ⟨clock, h⟩ := h
  exact ⟨clock, h.trans hr⟩

theorem Reachable.step {env : Env} {w w' : Plane} {a : Action Arrival ℕ} (h : Reachable env w)
    (hs : (controlPlane env).step w a = some w') : Reachable env w' :=
  h.run (System.Run.single _ trivial hs)

end R2Bench
