import R2Bench.AgentReports
import R2Bench.ByteStrings
import R2Bench.Routes
import R2Bench.SlotAllocation

/-!
# The agent's client of the control plane

A method of `ControlClient` is one POST: the body that `json.Marshal` writes, the
Worker's answer, and what `json.Unmarshal` makes of it. The two ends are described
in two languages, so a call is a call of the Worker's handler only as far as both
read the same JSON. Texts are sequences of Unicode scalar values, and header values are
such as Go sends.
-/
namespace R2Bench
open Interleaving

/-- A call of a method of `ControlClient`, with its arguments. -/
inductive ControlCall
  | poll
  | reportMetrics (r : MetricsReport)
  | jobStatus (jobId spawnId : String)
  | reportComplete (jobId spawnId errMsg : String)
  deriving DecidableEq, Repr

/-- The base URL is an origin, so that the path of a request is the method's. -/
structure ControlClient where
  token : String
  agentID : String
  region : String
  /-- Both empty when the control plane is not behind Access. -/
  accessClientID : String
  accessClientSecret : String
  deriving DecidableEq, Repr

/-! ## Requests -/

/-- The double that a reader of JSON makes of a whole number. -/
def double (n : ℤ) : ℚ := n.sign * Rounding.nearest 53 n.natAbs

def Json.counter (n : UInt64) : Json := .num (double n.toNat)

/-- `token`, `spawnId` and `jobId`, with which every callback starts. -/
def callbackFields (token spawnId jobId : String) : List (String × Json) :=
  [("token", .str token), ("spawnId", .str spawnId), ("jobId", .str jobId)]

/-- What the Worker parses from the JSON of a report. -/
def MetricsReport.json (token : String) (r : MetricsReport) : Json :=
  .obj (callbackFields token r.spawnId r.jobId ++
    [("tickNumber", .num (double r.tickNumber)), ("latency", .num r.latency), ("rps", .num r.rps),
      ("errorM1Rate", .num r.errorM1Rate), ("count", .counter r.count),
      ("avgLatency", .num r.avgLatency), ("actualRPS", .num r.actualRPS),
      ("totalCount", .counter r.totalCount), ("p50", .num r.p50), ("p95", .num r.p95),
      ("p99", .num r.p99), ("bytes", .counter r.bytes), ("status4xx", .counter r.status4xx),
      ("status5xx", .counter r.status5xx)])

namespace ControlCall

def route : ControlCall → Route
  | poll => .poll
  | reportMetrics _ => .spawnMetrics
  | jobStatus _ _ => .spawnStatus
  | reportComplete _ _ _ => .spawnComplete

def path : ControlCall → String
  | poll => "/api/agent/poll"
  | reportMetrics _ => "/api/internal/spawn-metrics"
  | jobStatus _ _ => "/api/internal/spawn-status"
  | reportComplete _ _ _ => "/api/internal/spawn-complete"

end ControlCall

namespace ControlClient
variable (c : ControlClient)

/-- What the Worker parses from the body; an empty `error` is omitted. -/
def body : ControlCall → Json
  | .poll => .obj [("token", .str c.token), ("agentId", .str c.agentID), ("region", .str c.region)]
  | .reportMetrics r => r.json c.token
  | .jobStatus jobId spawnId => .obj (callbackFields c.token spawnId jobId)
  | .reportComplete jobId spawnId errMsg =>
    .obj (callbackFields c.token spawnId jobId ++
      if errMsg = "" then [] else [("error", .str errMsg)])

/-- The request that `post` sends. -/
def request (call : ControlCall) : HttpRequest :=
  { method := "POST"
    pathname := call.path
    headers := ("content-type", "application/json") ::
      if c.accessClientID = "" then []
      else [("cf-access-client-id", c.accessClientID),
        ("cf-access-client-secret", c.accessClientSecret)]
    query := []
    body := some (c.body call) }

/-- The request of the control plane that a call stands for. -/
def handled : ControlCall → Request
  | .poll => .poll ⟨some c.token, c.agentID, some c.region⟩
  | .reportMetrics r => .metrics (r.body c.token)
  | .jobStatus jobId spawnId => .status ⟨some c.token, spawnId, jobId⟩
  | .reportComplete jobId spawnId errMsg =>
    .complete ⟨⟨some c.token, spawnId, jobId⟩, if errMsg = "" then none else some errMsg⟩

end ControlClient

/-- The counters are in the range in which doubles are exact. -/
structure MetricsReport.Exact (r : MetricsReport) : Prop where
  tick : r.tickNumber.natAbs ≤ 2 ^ 53
  count : r.count.toNat ≤ 2 ^ 53
  totalCount : r.totalCount.toNat ≤ 2 ^ 53
  bytes : r.bytes.toNat ≤ 2 ^ 53
  status4xx : r.status4xx.toNat ≤ 2 ^ 53
  status5xx : r.status5xx.toNat ≤ 2 ^ 53

def ControlCall.Exact : ControlCall → Prop
  | reportMetrics r => r.Exact
  | _ => True

theorem double_of_le {n : ℤ} (h : n.natAbs ≤ 2 ^ 53) : double n = n := by
  rw [double, Rounding.nearest_natCast (by norm_num) h, Nat.cast_natAbs]
  exact_mod_cast Int.sign_mul_abs n

namespace Coercions
variable (co : Coercions)

@[simp] theorem key_str (s : String) : co.key (some (.str s)) = some s := rfl

@[simp] theorem text?_str (s : String) : co.text? (some (.str s)) = some (some s) := rfl

@[simp] theorem rat_num (q : ℚ) : co.rat (some (.num q)) = some q := rfl

@[simp] theorem optional_num {α : Type} (f : Option Json → Option α) (q : ℚ) :
    optional f (some (.num q)) = (f (some (.num q))).map some := rfl

theorem int_double {n : ℤ} (h : n.natAbs ≤ 2 ^ 53) :
    co.int (some (.num (double n))) = some n := by
  simp [int, double_of_le h]

@[simp] theorem optional_counter {α : Type} (f : Option Json → Option α) (n : UInt64) :
    optional f (some (.counter n)) = (f (some (.counter n))).map some := rfl

theorem nat_counter {n : UInt64} (h : n.toNat ≤ 2 ^ 53) :
    co.nat (some (.counter n)) = some n.toNat := by
  have hint : co.int (some (.counter n)) = some (n.toNat : ℤ) := co.int_double (by simpa using h)
  simp [nat, hint]

end Coercions

/-- The routes are told apart by method and path. -/
theorem HttpRequest.route?_of {r : HttpRequest} {t : Route} (hm : r.method = t.method)
    (hp : r.pathname = t.pathname) : r.route? = some t := by
  simp only [route?, hm, hp]
  cases t <;> decide +kernel

namespace ControlClient
variable (c : ControlClient) (co : Coercions)

theorem route?_request (call : ControlCall) : (c.request call).route? = some call.route := by
  apply HttpRequest.route?_of <;> cases call <;> rfl

theorem request?_request {call : ControlCall} (h : call.Exact) :
    (c.request call).request? co = some (c.handled call) := by
  unfold HttpRequest.request?
  rw [c.route?_request]
  cases call with
  | poll => rfl
  | jobStatus jobId spawnId => rfl
  | reportComplete jobId spawnId errMsg =>
    by_cases he : errMsg = ""
    · subst he
      rfl
    · simp [ControlCall.route, request, body, callbackFields, he, handled,
        Coercions.completionReport, Coercions.statusRequest, Json.field?, Json.token?]
  | reportMetrics r =>
    simp [ControlCall.route, request, body, MetricsReport.json, callbackFields, handled,
      MetricsReport.body, Coercions.metricsReport, Coercions.statusRequest, Json.field?,
      Json.token?, co.int_double h.tick, co.nat_counter h.count, co.nat_counter h.totalCount,
      co.nat_counter h.bytes, co.nat_counter h.status4xx, co.nat_counter h.status5xx]

end ControlClient

/-- A call arrives as the call of a handler: what the Worker routes, authenticates and
decodes is the request that the client had in mind, so that the two run alike among
any other handlers. -/
theorem call_reaches_handler (env : Deployment) (c : ControlClient) (co : Coercions) (uuid : Uuid)
    (tie : ℕ) {call : ControlCall} (h : call.Exact) :
    orchestratorRoute env co uuid tie (c.request call) =
      replied (handle env.toEnv ⟨c.handled call, uuid, tie⟩) :=
  orchestratorRoute_handle uuid tie (c.request?_request co h)

/-- Every other type is refused. -/
def strictCoercions : Coercions :=
  { text := fun _ => none, text_ne := nofun, number := fun _ => .nan,
    column := fun _ => none }

def sampleReport : MetricsReport :=
  { spawnId := "s", jobId := "j", tickNumber := -1, latency := 3 / 2, rps := 20, errorM1Rate := 0,
    count := 200, avgLatency := 3 / 2, actualRPS := 20, totalCount := 200, p50 := 1, p95 := 2,
    p99 := 3, bytes := 4096, status4xx := 0, status5xx := 1 }

theorem call_reaches_handler_report :
    orchestratorRoute ⟨bareEnv, .nan⟩ strictCoercions sampleUuid 0
        ((⟨"key", "a", "weur", "", ""⟩ : ControlClient).request (.reportMetrics sampleReport)) =
      replied (handle bareEnv
        ⟨.metrics (sampleReport.body "key"), sampleUuid, 0⟩) :=
  have hexact : (ControlCall.reportMetrics sampleReport).Exact :=
    ⟨by decide, by decide, by decide, by decide, by decide, by decide⟩
  call_reaches_handler ⟨bareEnv, .nan⟩ ⟨"key", "a", "weur", "", ""⟩ strictCoercions sampleUuid 0
    hexact

/-! ## Answers -/

/-- What `post` reads of a response; a redirect is not followed. `json` is the value
that the first megabyte of the body is the text of, if it is one. -/
structure RawResponse where
  statusCode : ℕ
  location : String
  data : Bytes
  json : Option Json

def truncate (s : Bytes) (n : ℕ) : Bytes := if s.length ≤ n then s else s.take n ++ ascii "..."

/-- What the errors of `post` are formatted from. -/
inductive ClientError
  | transport
  | redirected (path : String) (statusCode : ℕ) (location hint : String)
  | status (path : String) (statusCode : ℕ) (data : Bytes)
  | decode
  deriving DecidableEq, Repr

/-- A text field of a Go struct: absent and null leave the zero value. -/
def goString : Option Json → Option String
  | none | some .null => some ""
  | some (.str s) => some s
  | _ => none

/-- An `int` field, of 64 bits: the literal has to be a whole number in range. -/
def goInt : Option Json → Option ℤ
  | none | some .null => some 0
  | some (.num q) => if q.den = 1 ∧ -2 ^ 63 ≤ q.num ∧ q.num < 2 ^ 63 then some q.num else none
  | _ => none

def goBool : Option Json → Option Bool
  | none | some .null => some false
  | some (.bool b) => some b
  | _ => none

structure PollResponse where
  action : String
  jobId : String
  spawnId : String
  targetRPS : ℤ
  workers : ℤ
  startAtEpochMs : ℤ
  stopAtEpochMs : ℤ
  unthrottled : Bool
  message : String
  deriving DecidableEq, Repr

/-- A struct is filled from an object, and null leaves it zero. -/
def unmarshal {α : Type} (read : Json → Option α) (json : Option Json) : Option α :=
  match json with
  | some (.obj fields) => read (.obj fields)
  | some .null => read (.obj [])
  | _ => none

def PollResponse.read (j : Json) : Option PollResponse := do
  return { action := ← goString (j.field? "action")
           jobId := ← goString (j.field? "jobId")
           spawnId := ← goString (j.field? "spawnId")
           targetRPS := ← goInt (j.field? "targetRPS")
           workers := ← goInt (j.field? "workers")
           startAtEpochMs := ← goInt (j.field? "startAtEpochMs")
           stopAtEpochMs := ← goInt (j.field? "stopAtEpochMs")
           unthrottled := ← goBool (j.field? "unthrottled")
           message := ← goString (j.field? "message") }

/-- What `main` goes on to execute. -/
def PollResponse.assignment? (p : PollResponse) : Option Assignment :=
  if p.action = "run" then
    some { jobId := p.jobId, spawnId := p.spawnId, targetRPS := p.targetRPS,
           workers := p.workers, stopAt := p.stopAtEpochMs, unthrottled := p.unthrottled }
  else none

/-- What the methods return. -/
inductive Returned
  | poll (p : PollResponse)
  | status (s : String)
  | done
  deriving DecidableEq, Repr

namespace ControlClient
variable (c : ControlClient)

def hint : String :=
  if c.accessClientID ≠ "" then
    "an Access service token was sent but rejected; check that a Service Auth policy on this " ++
      "application includes it"
  else "exempt this hostname or set CF_ACCESS_CLIENT_ID and CF_ACCESS_CLIENT_SECRET"

/-- `post` once the request is sent; `out` decodes the body, or ignores it. -/
def post {α : Type} (path : String) (out : Option Json → Option α) :
    Option RawResponse → Except ClientError α
  | none => .error .transport
  | some resp =>
    if resp.statusCode ≥ 300 ∧ resp.statusCode < 400 then
      .error (.redirected path resp.statusCode resp.location c.hint)
    else if resp.statusCode < 200 ∨ resp.statusCode ≥ 300 then
      .error (.status path resp.statusCode (truncate resp.data 200))
    else
      match out resp.json with
      | none => .error .decode
      | some a => .ok a

/-- What a method makes of the answer; there is none when the transport failed. -/
def returned (call : ControlCall) (answer : Option RawResponse) : Except ClientError Returned :=
  match call with
  | .poll => (c.post call.path (unmarshal PollResponse.read) answer).map .poll
  | .jobStatus _ _ =>
    (c.post call.path (unmarshal fun j => goString (j.field? "status")) answer).map .status
  | .reportMetrics _ | .reportComplete _ _ _ =>
    (c.post call.path (fun _ => some ()) answer).map fun _ => .done

end ControlClient

end R2Bench
