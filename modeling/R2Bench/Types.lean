import R2Bench.Schema

/-!
# Requests, replies and the deployment

The wire types of the control plane. Optional JSON fields are options, and a
number field is what JavaScript's `ToNumber` makes of it (`NaN` when absent).
Arithmetic on instants is exact: milliseconds stay far below `2 ^ 53`.
-/
namespace R2Bench

/-- A JavaScript number: a finite value, an infinity, or `NaN`. -/
inductive JsNumber
  | finite (q : ℚ)
  | infinity (negative : Bool)
  | nan
  deriving DecidableEq, Repr

/-- `Math.floor`, when `Number.isFinite` accepts its result. -/
def JsNumber.floor? : JsNumber → Option ℤ
  | finite q => some ⌊q⌋
  | _ => none

/-- A value of `crypto.randomUUID`: 36 characters, which keeps the ids derived
from different ones apart. -/
structure Uuid where
  text : String
  length_eq : text.length = 36
  deriving DecidableEq, Repr

/-- Secrets and variables of the Worker; unset secrets are empty.
`maxWorkersPerAgent` is `Number(env.MAX_WORKERS_PER_AGENT)`. -/
structure Env where
  agentToken : String
  adminToken : String
  maxWorkersPerAgent : JsNumber
  deriving DecidableEq, Repr

structure JobStartRequest where
  targetRPS : JsNumber
  agents : JsNumber
  workersPerAgent : Option JsNumber
  duration : JsNumber
  startDelaySeconds : Option JsNumber
  /-- `req.unthrottled === true`. -/
  unthrottled : Bool
  deriving DecidableEq, Repr

structure JobStartResponse where
  status : String
  message : String
  jobRequest : JobStartRequest
  jobId : Option String
  deriving DecidableEq, Repr

/-- `agentId` is empty when the field is absent. -/
structure AgentPollRequest where
  token : Option String
  agentId : String
  region : Option String
  deriving DecidableEq, Repr

/-- The fields an agent is given with `action: "run"`. -/
structure RunResponse where
  jobId : String
  spawnId : String
  targetRPS : ℕ
  workers : ℕ
  startAtEpochMs : ℤ
  stopAtEpochMs : ℤ
  unthrottled : Bool
  deriving DecidableEq, Repr

inductive AgentPollResponse
  | idle (message : Option String)
  | run (r : RunResponse)
  deriving DecidableEq, Repr

structure WatchRequest where
  jobId : String
  deriving DecidableEq, Repr

structure SpawnStatusRequest where
  token : Option String
  spawnId : String
  jobId : String
  deriving DecidableEq, Repr

structure SpawnMetricsReport extends SpawnStatusRequest where
  tickNumber : ℤ
  latency : ℚ
  rps : ℚ
  errorM1Rate : Option ℚ
  count : ℕ
  avgLatency : ℚ
  actualRPS : ℚ
  totalCount : ℕ
  p50 : Option ℚ
  p95 : Option ℚ
  p99 : Option ℚ
  bytes : Option ℕ
  status4xx : Option ℕ
  status5xx : Option ℕ
  deriving DecidableEq, Repr

structure SpawnCompletionReport extends SpawnStatusRequest where
  error : Option String
  deriving DecidableEq, Repr

/-- A routed request. Operator requests carry the presented admin token: the
`x-admin-token` header, else the `token` query parameter, else nothing. -/
inductive Request
  | start (presented : String) (req : JobStartRequest)
  | poll (body : AgentPollRequest)
  | stop (presented : String) (body : WatchRequest)
  | status (body : SpawnStatusRequest)
  | metrics (report : SpawnMetricsReport)
  | complete (report : SpawnCompletionReport)
  | sweep
  deriving DecidableEq, Repr

/-- A request with what the platform decides for it: the value `randomUUID`
will return, and which row `LIMIT 1` keeps where the query leaves it open. -/
structure Arrival where
  request : Request
  uuid : Uuid
  tie : ℕ
  deriving DecidableEq, Repr

inductive Reply
  | start (r : JobStartResponse)
  | poll (r : AgentPollResponse)
  | stop (jobId status message : String)
  | status (status : String)
  | ok
  | swept (finalised staleSpawns abandoned : ℕ)
  /-- HTTP 401. -/
  | unauthorized (message : String)
  /-- HTTP 503: a statement failed and the handler threw. -/
  | unavailable
  deriving DecidableEq, Repr

end R2Bench
