import R2Bench.Tokens
import R2Bench.Watch

/-!
# The routes of the Worker

`orchestratorRoute` from the HTTP request to the HTTP response. Every arm does its
own authentication: operator arms before they read the body, agent arms after.
Texts are sequences of Unicode scalar values.
-/
namespace R2Bench
open Interleaving

/-! ## Requests -/

/-- The value that `request.json()` returns. Of a repeated key the last counts. -/
inductive Json
  | null
  | bool (b : Bool)
  | num (q : ℚ)
  | str (s : String)
  | arr (elems : List Json)
  | obj (fields : List (String × Json))

/-- A property read; reading one of `null` throws. -/
def Json.field? (name : String) : Json → Option Json
  | obj fields => (fields.reverse.find? fun f => f.1 = name).map Prod.snd
  | _ => none

/-- `body?.token`. Tokens are texts or absent. -/
def Json.token? (j : Json) : Option String :=
  match j.field? "token" with
  | some (str s) => some s
  | _ => none

/-- JavaScript's truth value of a field. -/
def truthy : Option Json → Bool
  | none | some .null | some (.bool false) => false
  | some (.num q) => q ≠ 0
  | some (.str s) => s ≠ ""
  | some _ => true

structure HttpRequest where
  method : String
  pathname : String
  /-- Header names in lower case, as the platform compares them. -/
  headers : List (String × String)
  /-- The parameters of `url.searchParams`, in order. -/
  query : List (String × String)
  /-- The parsed body; none when it is not JSON and `request.json()` throws. -/
  body : Option Json

namespace HttpRequest
variable (r : HttpRequest)

/-- `request.headers.get`: repeated headers are joined. -/
def header? (name : String) : Option String :=
  match r.headers.filter fun h => h.1 = name with
  | [] => none
  | hs => some (", ".intercalate (hs.map Prod.snd))

/-- `url.searchParams.get`: the first value. -/
def param? (name : String) : Option String :=
  (r.query.find? fun p => p.1 = name).map Prod.snd

/-- The token that `require_admin` compares. -/
def presented : String := ((r.header? "x-admin-token").orElse fun _ => r.param? "token").getD ""

end HttpRequest

/-! ## Bodies -/

/-- What JavaScript and D1 make of a value that does not have its field's type;
none when D1 refuses to bind it and the statement throws. -/
structure Coercions where
  text : Json → Option String
  text_ne : ∀ j, text j ≠ some ""
  number : Json → JsNumber
  column : Json → Option ℚ

namespace Coercions
variable (c : Coercions)

/-- A text that is checked for falsity before it is used: empty when falsy. -/
def key (j : Option Json) : Option String :=
  match j with
  | some (.str s) => some s
  | some j => if truthy (some j) then c.text j else some ""
  | none => some ""

/-- A text with a default for `null` and `undefined`. -/
def text? : Option Json → Option (Option String)
  | none | some .null => some none
  | some (.str s) => some (some s)
  | some j => (c.text j).map some

/-- `ToNumber`; `undefined` is not a number. -/
def toNumber : Option Json → JsNumber
  | none => .nan
  | some (.num q) => .finite q
  | some j => c.number j

def toNumber? : Option Json → Option JsNumber
  | none | some .null => none
  | some j => some (c.toNumber (some j))

/-- A bound number; `undefined` is refused. -/
def rat : Option Json → Option ℚ
  | none => none
  | some (.num q) => some q
  | some j => c.column j

/-- A bound counter or tick, which agents send as whole numbers. The Worker would also store
a fraction or a negative number, which `int` and `nat` refuse. -/
def int (j : Option Json) : Option ℤ :=
  (c.rat j).bind fun q => if q.den = 1 then some q.num else none

def nat (j : Option Json) : Option ℕ :=
  (c.int j).bind fun n => if 0 ≤ n then some n.toNat else none

/-- A field with a default for `null` and `undefined`. -/
def optional {α : Type} (f : Option Json → Option α) : Option Json → Option (Option α)
  | none | some .null => some none
  | some j => (f (some j)).map some

def startRequest (j : Json) : JobStartRequest :=
  { targetRPS := c.toNumber (j.field? "targetRPS")
    agents := c.toNumber (j.field? "agents")
    workersPerAgent := c.toNumber? (j.field? "workersPerAgent")
    duration := c.toNumber (j.field? "duration")
    startDelaySeconds := c.toNumber? (j.field? "startDelaySeconds")
    unthrottled := match j.field? "unthrottled" with
      | some (.bool true) => true
      | _ => false }

def watchRequest (j : Json) : Option WatchRequest := do
  return { jobId := ← c.key (j.field? "jobId") }

def pollRequest (j : Json) : Option AgentPollRequest := do
  return { token := j.token?, agentId := ← c.key (j.field? "agentId"),
           region := ← c.text? (j.field? "region") }

def statusRequest (j : Json) : Option SpawnStatusRequest := do
  return { token := j.token?, spawnId := ← c.key (j.field? "spawnId"),
           jobId := ← c.key (j.field? "jobId") }

def metricsReport (j : Json) : Option SpawnMetricsReport := do
  let ids ← c.statusRequest j
  return { ids with
           tickNumber := ← c.int (j.field? "tickNumber")
           latency := ← c.rat (j.field? "latency")
           rps := ← c.rat (j.field? "rps")
           errorM1Rate := ← optional c.rat (j.field? "errorM1Rate")
           count := ← c.nat (j.field? "count")
           avgLatency := ← c.rat (j.field? "avgLatency")
           actualRPS := ← c.rat (j.field? "actualRPS")
           totalCount := ← c.nat (j.field? "totalCount")
           p50 := ← optional c.rat (j.field? "p50")
           p95 := ← optional c.rat (j.field? "p95")
           p99 := ← optional c.rat (j.field? "p99")
           bytes := ← optional c.nat (j.field? "bytes")
           status4xx := ← optional c.nat (j.field? "status4xx")
           status5xx := ← optional c.nat (j.field? "status5xx") }

/-- Of `error` only the truth value is read. -/
def completionReport (j : Json) : Option SpawnCompletionReport := do
  let ids ← c.statusRequest j
  return { ids with error := match j.field? "error" with
             | some (.str s) => some s
             | error => if truthy error then some "error" else none }

end Coercions

/-! ## Responses -/

structure JobSummary where
  jobId : String
  status : String
  rps : ℕ
  concurrency : ℕ
  duration : ℕ
  createdAt : ℤ
  deriving DecidableEq, Repr

structure WatchResponse where
  jobId : String
  status : String
  message : Option String
  createdAt : Option ℤ
  rps : Option ℕ
  runningContainers : Option ℕ
  metrics : List SpawnMetric
  deriving DecidableEq, Repr

inductive ResponseBody
  | reply (r : Reply)
  | jobs (jobs : List JobSummary)
  | config (provisionedAgents maxWorkersPerAgent : Option ℕ)
  | watch (r : WatchResponse)
  | failedToStart (r : JobStartResponse)
  | notFound
  deriving DecidableEq, Repr

/-- An asset is whatever the `ASSETS` binding answers for the path. -/
inductive HttpResponse
  | json (status : ℕ) (body : ResponseBody)
  | asset (path : String)
  deriving DecidableEq, Repr

/-- The status that the `catch` blocks give to what was thrown, else 200. -/
def respond (r : Reply) : HttpResponse :=
  match r with
  | .unauthorized _ => .json 401 (.reply r)
  | .unavailable => .json 503 (.reply r)
  | _ => .json 200 (.reply r)

/-- The environment with the variable that only `deployment_config` reads. -/
structure Deployment extends Env where
  deploymentAgents : JsNumber

/-! ## Statements that only read -/

inductive WebStatement
  | core (st : Statement)
  | listJobs
  | selectJob (jobId : String)
  | selectMinutes (jobId : String)

@[reducible] def WebStatement.Result : WebStatement → Type
  | .core st => st.Result
  | .listJobs => List JobRow
  | .selectJob _ => Option JobRow
  | .selectMinutes _ => List MinuteRow

/-- The last 200 jobs, latest first. -/
def Database.latestJobs (db : Database) : List JobRow :=
  (db.jobs.mergeSort fun a b => b.createdAt ≤ a.createdAt).take 200

def WebStatement.exec : (st : WebStatement) → World → st.Result × World
  | .core st, w => st.exec w
  | .listJobs, w => (w.db.latestJobs, w)
  | .selectJob jobId, w => (w.db.job? jobId, w)
  | .selectMinutes jobId, w => (w.db.watchMinutes jobId, w)

abbrev WebHandler := Prog WebStatement WebStatement.Result

/-- A handler of the control plane among the routes. -/
def lift {α : Type} : Prog Statement Statement.Result α → WebHandler α
  | .done a => .done a
  | .call st k => .call (.core st) fun r => lift (k r)

/-! ## Routes -/

inductive Route
  | index
  | jobs
  | config
  | poll
  | spawnStatus
  | spawnMetrics
  | spawnComplete
  | start
  | watch
  | stop
  | startPage
  deriving DecidableEq, Repr

namespace Route

def method : Route → String
  | index | jobs | config => "GET"
  | _ => "POST"

def pathname : Route → String
  | index => "/"
  | jobs => "/api/v1/jobs"
  | config => "/api/v1/config"
  | poll => "/api/agent/poll"
  | spawnStatus => "/api/internal/spawn-status"
  | spawnMetrics => "/api/internal/spawn-metrics"
  | spawnComplete => "/api/internal/spawn-complete"
  | start => "/api/v1/start"
  | watch => "/api/v1/watch"
  | stop => "/api/v1/stop"
  | startPage => "/start"

/-- The arms behind the shared agent token. -/
def isAgent : Route → Bool
  | poll | spawnStatus | spawnMetrics | spawnComplete => true
  | _ => false

/-- The arms behind `require_admin`. -/
def isOperator : Route → Bool
  | jobs | config | start | watch | stop | startPage => true
  | _ => false

def all : List Route :=
  [index, jobs, config, poll, spawnStatus, spawnMetrics, spawnComplete, start, watch, stop,
    startPage]

end Route

def HttpRequest.route? (r : HttpRequest) : Option Route :=
  Route.all.find? fun t => t.method = r.method ∧ t.pathname = r.pathname

/-- A thrown `UnauthorizedError`. -/
def unauthorized (message : String) : WebHandler HttpResponse :=
  .done (respond (.unauthorized message))

/-- Any other error. -/
def unavailable : WebHandler HttpResponse := .done (respond .unavailable)

/-- Go on with a value, or throw without one. -/
def orThrow {α : Type} (a : Option α) (h : α → WebHandler HttpResponse) : WebHandler HttpResponse :=
  match a with
  | none => unavailable
  | some a => h a

def summary (job : JobRow) : JobSummary :=
  { jobId := job.jobId, status := job.status.text, rps := job.rps, concurrency := job.agents,
    duration := job.duration, createdAt := job.createdAt }

def listJobs : WebHandler HttpResponse :=
  .call .listJobs fun (jobs : List JobRow) => .done (.json 200 (.jobs (jobs.map summary)))

def watchJob (body : WatchRequest) : WebHandler HttpResponse :=
  let answer (r : WatchResponse) : WebHandler HttpResponse := .done (.json 200 (.watch r))
  if body.jobId = "" then
    answer ⟨"unknown", "unknown", some "No JobID provided", none, none, none, []⟩
  else
    .call (.selectJob body.jobId) fun (job : Option JobRow) =>
      match job with
      | none =>
        answer ⟨body.jobId, "unknown", some "Job ID doesn't exist", none, none, none, []⟩
      | some job =>
        .call (.core (.countRunning body.jobId)) fun (running : ℕ) =>
          .call (.selectMinutes body.jobId) fun (rows : List MinuteRow) =>
            answer ⟨body.jobId, job.status.text, none, some job.createdAt, some job.rps,
              some running, rows.map MinuteRow.metric⟩

/-- The body of an operator request; reading a property of `null` throws. -/
def HttpRequest.operatorBody? (r : HttpRequest) : Option Json :=
  match r.body with
  | none | some .null => none
  | some j => some j

/-- An arm after `require_admin`. -/
def behindAdmin (env : Deployment) (r : HttpRequest) (h : WebHandler HttpResponse) :
    WebHandler HttpResponse :=
  if requireAdmin env.toEnv r.presented then h else unauthorized "missing or invalid admin token"

/-- A callback after `verify_internal_request`. -/
def behindCallback (env : Deployment) (j : Json) (h : WebHandler HttpResponse) :
    WebHandler HttpResponse :=
  if truthy (j.field? "spawnId") ∧ truthy (j.field? "jobId") ∧
      verifyAgentToken env.toEnv j.token? then h
  else unauthorized "invalid agent callback token"

/-- The reply of a handler as JSON. -/
def replied (h : Handler) : WebHandler HttpResponse := lift h >>= fun reply => .done (respond reply)

/-- The form's answer: the watch page of the new job, or what was wrong. -/
def startPage (reply : Reply) : HttpResponse :=
  match reply with
  | .start r =>
    match r.jobId with
    | some jobId => .asset s!"/watch.html?jobId={jobId}"
    | none => .json 400 (.failedToStart r)
  | _ => respond reply

section
variable (env : Deployment) (c : Coercions) (uuid : Uuid) (tie : ℕ) (r : HttpRequest)

def dispatch : Route → WebHandler HttpResponse
  | .index => .done (.asset "/index.html")
  | .jobs => behindAdmin env r listJobs
  | .config => behindAdmin env r (.done (.json 200
      (.config (positiveVar env.deploymentAgents) (maxWorkersPerAgent env.toEnv))))
  | .poll => orThrow r.body fun j =>
    if verifyAgentToken env.toEnv j.token? then
      orThrow (c.pollRequest j) fun body => replied (agentPoll env.toEnv tie body)
    else unauthorized "invalid agent token"
  | .spawnStatus => orThrow r.body fun j => behindCallback env j
    (orThrow (c.statusRequest j) fun body => replied (getInternalJobStatus body))
  | .spawnMetrics => orThrow r.body fun j => behindCallback env j
    (orThrow (c.metricsReport j) fun report => replied (recordBenchmarkMetrics uuid.text report))
  | .spawnComplete => orThrow r.body fun j => behindCallback env j
    (orThrow (c.completionReport j) fun report => replied (completeBenchmarkSpawn report))
  | .start => behindAdmin env r (orThrow r.operatorBody? fun j =>
    replied (startJob env.toEnv uuid tie (c.startRequest j)))
  | .watch => behindAdmin env r (orThrow r.operatorBody? fun j =>
    orThrow (c.watchRequest j) watchJob)
  | .stop => behindAdmin env r (orThrow r.operatorBody? fun j =>
    orThrow (c.watchRequest j) fun body => replied (stopJob body))
  | .startPage => behindAdmin env r (orThrow r.operatorBody? fun j =>
    lift (startJob env.toEnv uuid tie (c.startRequest j)) >>= fun reply => .done (startPage reply))

def orchestratorRoute : WebHandler HttpResponse :=
  match r.route? with
  | none => .done (.json 404 .notFound)
  | some t => dispatch env c uuid tie r t

end

/-! ## Authentication -/

namespace HttpRequest
variable (env : Env) (r : HttpRequest)

/-- The body carries the agent token, and there is one. -/
def HasAgentToken : Prop :=
  env.agentToken ≠ "" ∧ ∃ j, r.body = some j ∧ j.token? = some env.agentToken

/-- The admin token is presented, or there is none. -/
def HasAdminToken : Prop := env.adminToken = "" ∨ r.presented = env.adminToken

/-- The request hit an arm whose token it has. -/
def Authenticated : Prop :=
  ∃ t, r.route? = some t ∧
    ((t.isAgent = true ∧ r.HasAgentToken env) ∨ (t.isOperator = true ∧ r.HasAdminToken env))

/-- The request hit an arm whose token it does not have. An agent arm looks for the
token in the body, which has to be JSON. -/
def Rejected : Prop :=
  ∃ t, r.route? = some t ∧
    ((t.isAgent = true ∧ r.body ≠ none ∧ ¬ r.HasAgentToken env) ∨
      (t.isOperator = true ∧ ¬ r.HasAdminToken env))

end HttpRequest

section
variable {env : Deployment} {r : HttpRequest} (c : Coercions) (uuid : Uuid) (tie : ℕ)

theorem behindAdmin_of_not (h : ¬ r.HasAdminToken env.toEnv) (p : WebHandler HttpResponse) :
    behindAdmin env r p = unauthorized "missing or invalid admin token" :=
  if_neg fun ha => h ((requireAdmin_iff _ _).mp ha)

theorem not_verifyAgentToken {j : Json} (hj : r.body = some j)
    (h : ¬ r.HasAgentToken env.toEnv) : ¬ verifyAgentToken env.toEnv j.token? = true := by
  intro hv
  obtain ⟨hne, htoken⟩ := (verifyAgentToken_iff _ _).mp hv
  exact h ⟨hne, j, hj, htoken⟩

theorem behindCallback_of_not {j : Json} (hj : r.body = some j)
    (h : ¬ r.HasAgentToken env.toEnv) (p : WebHandler HttpResponse) :
    behindCallback env j p = unauthorized "invalid agent callback token" :=
  if_neg fun hc => not_verifyAgentToken hj h hc.2.2

/-- An operator arm without the token, whatever stands behind it. -/
theorem dispatch_operator {t : Route} (ht : t.isOperator = true)
    (h : ¬ r.HasAdminToken env.toEnv) :
    dispatch env c uuid tie r t = unauthorized "missing or invalid admin token" := by
  cases t <;> first | exact behindAdmin_of_not h _ | cases ht

/-- An agent arm without the token. -/
theorem dispatch_agent {t : Route} {j : Json} (ht : t.isAgent = true) (hj : r.body = some j)
    (h : ¬ r.HasAgentToken env.toEnv) :
    ∃ message, dispatch env c uuid tie r t = unauthorized message := by
  cases t <;> simp only [Route.isAgent, Bool.false_eq_true] at ht
  case poll =>
    refine ⟨"invalid agent token", ?_⟩
    simp only [dispatch, hj, orThrow]
    exact if_neg (not_verifyAgentToken hj h)
  all_goals
    refine ⟨"invalid agent callback token", ?_⟩
    simp only [dispatch, hj, orThrow]
    exact behindCallback_of_not hj h _

theorem dispatch_agent_none {t : Route} (ht : t.isAgent = true) (hj : r.body = none) :
    dispatch env c uuid tie r t = unavailable := by
  cases t <;> simp only [Route.isAgent, Bool.false_eq_true] at ht <;>
    simp only [dispatch, hj, orThrow]

/-- Who is rejected gets a 401, and no statement is awaited. -/
theorem orchestratorRoute_rejected (h : r.Rejected env.toEnv) :
    ∃ message, orchestratorRoute env c uuid tie r = unauthorized message := by
  obtain ⟨t, ht, ⟨hagent, hbody, hno⟩ | ⟨hoperator, hno⟩⟩ := h
  · obtain ⟨j, hj⟩ := Option.ne_none_iff_exists'.mp hbody
    simp only [orchestratorRoute, ht]
    exact dispatch_agent c uuid tie hagent hj hno
  · simp only [orchestratorRoute, ht]
    exact ⟨_, dispatch_operator c uuid tie hoperator hno⟩

/-- Without authentication no statement is awaited, under any interleaving. -/
theorem orchestratorRoute_unauthenticated (h : ¬ r.Authenticated env.toEnv) :
    ∃ response, orchestratorRoute env c uuid tie r = .done response := by
  cases ht : r.route? with
  | none => exact ⟨.json 404 .notFound, by simp only [orchestratorRoute, ht]⟩
  | some t =>
    by_cases hrejected : r.Rejected env.toEnv
    · obtain ⟨message, hmessage⟩ := orchestratorRoute_rejected c uuid tie hrejected
      exact ⟨_, hmessage⟩
    · simp only [orchestratorRoute, ht]
      by_cases hagent : t.isAgent = true
      · have hbody : r.body = none := by
          by_contra hbody
          exact hrejected ⟨t, ht, .inl ⟨hagent, hbody, fun htoken =>
            h ⟨t, ht, .inl ⟨hagent, htoken⟩⟩⟩⟩
        exact ⟨_, dispatch_agent_none c uuid tie hagent hbody⟩
      · by_cases hoperator : t.isOperator = true
        · exact absurd ⟨t, ht, .inr ⟨hoperator, fun htoken =>
            h ⟨t, ht, .inr ⟨hoperator, htoken⟩⟩⟩⟩ hrejected
        · -- what is left is the index page
          cases t <;> simp only [Route.isAgent, Route.isOperator, not_true] at hagent hoperator
          exact ⟨_, rfl⟩

end

/-! ## The control plane behind the routes -/

theorem Coercions.key_ne_iff {c : Coercions} {j : Option Json} {s : String}
    (h : c.key j = some s) : s ≠ "" ↔ truthy j = true := by
  unfold Coercions.key at h
  split at h
  · next s' =>
    obtain rfl := Option.some.inj h
    simp [truthy]
  · next j' _ =>
    split_ifs at h with ht
    · exact iff_of_true (fun he => c.text_ne j' (he ▸ h)) ht
    · exact iff_of_false (fun he => he (Option.some.inj h).symm) ht
  · obtain rfl := Option.some.inj h
    simp [truthy]

/-- The request of the control plane that an HTTP request is decoded to. -/
def HttpRequest.request? (c : Coercions) (r : HttpRequest) : Option Request :=
  match r.route? with
  | some .poll => (r.body.bind c.pollRequest).map .poll
  | some .spawnStatus => (r.body.bind c.statusRequest).map .status
  | some .spawnMetrics => (r.body.bind c.metricsReport).map .metrics
  | some .spawnComplete => (r.body.bind c.completionReport).map .complete
  | some .start => r.operatorBody?.map fun j => .start r.presented (c.startRequest j)
  | some .stop => (r.operatorBody?.bind c.watchRequest).map fun body => .stop r.presented body
  | _ => none

section
variable {env : Deployment} {r : HttpRequest} {c : Coercions}

theorem behindAdmin_replied (h : Handler) :
    behindAdmin env r (replied h) = replied (if requireAdmin env.toEnv r.presented then h
      else .done (.unauthorized "missing or invalid admin token")) := by
  unfold behindAdmin
  split <;> rfl

/-- What the ids of a callback are decoded to. -/
theorem statusRequest_eq {j : Json} {ids : SpawnStatusRequest} (h : c.statusRequest j = some ids) :
    ids.token = j.token? ∧ c.key (j.field? "spawnId") = some ids.spawnId ∧
      c.key (j.field? "jobId") = some ids.jobId := by
  obtain ⟨spawnId, hspawn, hrest⟩ := Option.bind_eq_some_iff.mp h
  obtain ⟨jobId, hjob, hids⟩ := Option.bind_eq_some_iff.mp hrest
  obtain rfl := Option.some.inj hids
  exact ⟨rfl, hspawn, hjob⟩

/-- The check on the JSON body is the check on the decoded one. -/
theorem behindCallback_replied {j : Json} {ids : SpawnStatusRequest}
    (hids : c.statusRequest j = some ids) (h : Handler) :
    behindCallback env j (replied h) = replied (if verifyInternalRequest env.toEnv ids then h
      else .done (.unauthorized "invalid agent callback token")) := by
  obtain ⟨htoken, hspawn, hjob⟩ := statusRequest_eq hids
  have hiff : verifyInternalRequest env.toEnv ids = true ↔
      truthy (j.field? "spawnId") ∧ truthy (j.field? "jobId") ∧
        verifyAgentToken env.toEnv j.token? := by
    rw [verifyInternalRequest, decide_eq_true_eq, Coercions.key_ne_iff hspawn,
      Coercions.key_ne_iff hjob, htoken]
  unfold behindCallback
  split
  · next hc => rw [if_pos (hiff.mpr hc)]
  · next hc =>
    rw [if_neg fun hv => hc (hiff.mp hv)]
    rfl

theorem metricsReport_ids {j : Json} {report : SpawnMetricsReport}
    (h : c.metricsReport j = some report) :
    c.statusRequest j = some report.toSpawnStatusRequest := by
  obtain ⟨ids, hids, hrest⟩ := Option.bind_eq_some_iff.mp h
  -- one bind for each field of the report
  iterate 14 obtain ⟨_, -, hrest⟩ := Option.bind_eq_some_iff.mp hrest
  obtain rfl := Option.some.inj hrest
  exact hids

theorem completionReport_ids {j : Json} {report : SpawnCompletionReport}
    (h : c.completionReport j = some report) :
    c.statusRequest j = some report.toSpawnStatusRequest := by
  obtain ⟨ids, hids, hrest⟩ := Option.bind_eq_some_iff.mp h
  obtain rfl := Option.some.inj hrest
  exact hids

theorem pollRequest_token {j : Json} {body : AgentPollRequest} (h : c.pollRequest j = some body) :
    body.token = j.token? := by
  obtain ⟨_, -, hrest⟩ := Option.bind_eq_some_iff.mp h
  obtain ⟨_, -, hbody⟩ := Option.bind_eq_some_iff.mp hrest
  obtain rfl := Option.some.inj hbody
  rfl

/-- A decoded request is answered as the control plane answers it. -/
theorem orchestratorRoute_handle (uuid : Uuid) (tie : ℕ) {req : Request}
    (h : r.request? c = some req) :
    orchestratorRoute env c uuid tie r = replied (handle env.toEnv ⟨req, uuid, tie⟩) := by
  unfold HttpRequest.request? at h
  cases ht : r.route? with
  | none => simp [ht] at h
  | some t =>
    simp only [orchestratorRoute, ht]
    rw [ht] at h
    cases t <;> simp only [reduceCtorEq, Option.map_eq_some_iff, Option.bind_eq_some_iff] at h
    case poll =>
      obtain ⟨body, ⟨j, hj, hbody⟩, rfl⟩ := h
      simp only [dispatch, hj, orThrow, hbody, handle]
      split
      · rfl
      · next hno =>
        rw [agentPoll, pollRequest_token hbody]
        simp only [Bool.not_eq_true] at hno
        rw [hno]
        rfl
    case spawnStatus =>
      obtain ⟨ids, ⟨j, hj, hids⟩, rfl⟩ := h
      simp only [dispatch, hj, orThrow, hids, behindCallback_replied hids]
      rfl
    case spawnMetrics =>
      obtain ⟨report, ⟨j, hj, hreport⟩, rfl⟩ := h
      simp only [dispatch, hj, orThrow, hreport,
        behindCallback_replied (metricsReport_ids hreport)]
      rfl
    case spawnComplete =>
      obtain ⟨report, ⟨j, hj, hreport⟩, rfl⟩ := h
      simp only [dispatch, hj, orThrow, hreport,
        behindCallback_replied (completionReport_ids hreport)]
      rfl
    case start =>
      obtain ⟨j, hj, rfl⟩ := h
      simp only [dispatch, hj, orThrow, behindAdmin_replied]
      rfl
    case stop =>
      obtain ⟨body, ⟨j, hj, hbody⟩, rfl⟩ := h
      simp only [dispatch, hj, orThrow, hbody, behindAdmin_replied]
      rfl

end

/-- A request that changes the database hit an agent arm with the agent token or
an operator arm with the admin token; who is rejected for a token gets a 401, and
the database stays as it was. -/
theorem no_unauthenticated_change (env : Deployment) (c : Coercions) (uuid : Uuid) (tie : ℕ)
    (r : HttpRequest) (w : World) :
    (((orchestratorRoute env c uuid tie r).run WebStatement.exec w).2.db ≠ w.db →
      r.Authenticated env.toEnv) ∧
    (r.Rejected env.toEnv →
      (∃ body, ((orchestratorRoute env c uuid tie r).run WebStatement.exec w).1 =
        .json 401 body) ∧
      ((orchestratorRoute env c uuid tie r).run WebStatement.exec w).2.db = w.db) := by
  constructor
  · intro hchange
    by_contra hno
    obtain ⟨response, hresponse⟩ := orchestratorRoute_unauthenticated c uuid tie hno
    rw [hresponse] at hchange
    exact hchange rfl
  · intro hrejected
    obtain ⟨message, hmessage⟩ := orchestratorRoute_rejected c uuid tie hrejected
    rw [hmessage]
    exact ⟨⟨_, rfl⟩, rfl⟩

end R2Bench
