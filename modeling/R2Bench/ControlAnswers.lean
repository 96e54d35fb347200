import R2Bench.ControlClient
import R2Bench.RunResponses

/-!
# What the agent makes of an answer

Every arm of the Worker that agents call answers with the JSON that the client
decodes there, in whatever order requests are served.
-/
namespace R2Bench
open Interleaving

def AgentPollResponse.json : AgentPollResponse → Json
  | .idle none => .obj [("action", .str "idle")]
  | .idle (some message) => .obj [("action", .str "idle"), ("message", .str message)]
  | .run r => .obj [("action", .str "run"), ("jobId", .str r.jobId), ("spawnId", .str r.spawnId),
      ("targetRPS", .num r.targetRPS), ("workers", .num r.workers),
      ("startAtEpochMs", .num r.startAtEpochMs), ("stopAtEpochMs", .num r.stopAtEpochMs),
      ("unthrottled", .bool r.unthrottled)]

/-- The JSON that the agent arms answer with. -/
def Reply.agentJson? : Reply → Option Json
  | .poll r => some r.json
  | .status s => some (.obj [("status", .str s)])
  | .ok => some (.obj [("status", .str "ok")])
  | .unauthorized message => some (.obj [("status", .str "error"), ("message", .str message)])
  | _ => none

/-- The answer as it arrives, where `text` writes JSON and `page` is any other body. -/
def HttpResponse.raw (text : Json → Bytes) (page : Bytes) : HttpResponse → RawResponse
  | .json status (.reply r) =>
    match r.agentJson? with
    | some j => ⟨status, "", text j, some j⟩
    | none => ⟨status, "", page, none⟩
  | .json status _ => ⟨status, "", page, none⟩
  | .asset _ => ⟨200, "", page, none⟩

/-- A reply with an error status. -/
def Reply.Failed : Reply → Prop
  | .unauthorized _ | .unavailable => True
  | _ => False

/-- What the agent arms reply to a request. -/
def Request.Answers : Request → Reply → Prop
  | .poll _, r => r.Failed ∨ ∃ answer, r = .poll answer
  | .status _, r => r.Failed ∨ ∃ s, r = .status s
  | .metrics _, r | .complete _, r => r.Failed ∨ r = .ok
  | .start _ _, _ | .stop _ _, _ | .sweep, _ => True

theorem Reply.Failed.answers {r : Reply} (h : r.Failed) (req : Request) : req.Answers r := by
  cases req <;> first | exact .inl h | trivial

/-- Nothing is relied on: the kind of a reply does not depend on the store. -/
def answersContract (env : Env) : Contract (controlPlane env) where
  Inv _ := True
  Rely _ _ := True
  Pre _ _ := True
  Post a r _ := a.request.Answers r

section Handlers
variable {env : Env} {a : Arrival} {w : World}

theorem answers_done {r : Reply} (h : a.request.Answers r) :
    (answersContract env).Holds a (.done r) w := fun _ _ _ => h

theorem answers_call {st : Statement} {k : st.Result → Handler}
    (h : ∀ r v, (answersContract env).Holds a (k r) v) :
    (answersContract env).Holds a (.call st k) w := fun _ _ _ => ⟨trivial, h _ _⟩

theorem answers_unauthorized {message : String} :
    (answersContract env).Holds a (.done (.unauthorized message)) w :=
  answers_done (Reply.Failed.answers (r := .unauthorized message) trivial _)

theorem answers_unavailable : (answersContract env).Holds a (.done .unavailable) w :=
  answers_done (Reply.Failed.answers (r := .unavailable) trivial _)

theorem answers_grantSlot {job : JobRow} {agentId : String} {slot : Option ℕ}
    (h : ∀ answer, a.request.Answers (.poll answer)) :
    (answersContract env).Holds a (grantSlot job agentId slot) w := by
  unfold grantSlot
  split_ifs
  · exact answers_call fun _ _ => answers_done (h _)
  · exact answers_done (h _)

theorem answers_claimAndGrant {job : JobRow} {body : AgentPollRequest} {now : ℤ}
    (h : ∀ answer, a.request.Answers (.poll answer)) :
    (answersContract env).Holds a (claimAndGrant job body now) w := by
  simp only [claimAndGrant, await_bind, Prog.pure_eq]
  refine answers_call fun claimed _ => ?_
  cases claimed with
  | error e => exact answers_unavailable
  | ok _ =>
    refine answers_call fun (slot : Option (Option ℕ)) _ => ?_
    cases slot with
    | none => exact answers_done (h _)
    | some slot => exact answers_grantSlot h

theorem answers_agentPoll {body : AgentPollRequest} {tie : ℕ}
    (h : ∀ answer, a.request.Answers (.poll answer)) :
    (answersContract env).Holds a (agentPoll env tie body) w := by
  simp only [agentPoll, await_bind, Prog.pure_eq]
  split_ifs
  · exact answers_unauthorized
  · exact answers_done (h _)
  refine answers_call fun (job : Option JobRow) _ => ?_
  cases job with
  | none => exact answers_done (h _)
  | some job =>
    refine answers_call fun (now : ℤ) _ => ?_
    split_ifs
    · exact answers_done (h _)
    refine answers_call fun (existing : Option (Option ℕ × SpawnStatus)) _ => ?_
    cases existing with
    | none => exact answers_claimAndGrant h
    | some row =>
      dsimp only
      split_ifs
      · exact answers_done (h _)
      · exact answers_call fun _ _ => answers_grantSlot h

theorem answers_recordBenchmarkMetrics {metricId : String} {report : SpawnMetricsReport}
    (h : a.request.Answers .ok) :
    (answersContract env).Holds a (recordBenchmarkMetrics metricId report) w := by
  simp only [recordBenchmarkMetrics, await_bind, Prog.pure_eq]
  refine answers_call fun now _ => answers_call fun stored _ => ?_
  cases stored with
  | error e => exact answers_unavailable
  | ok _ => exact answers_done h

theorem answers_completeBenchmarkSpawn {report : SpawnCompletionReport}
    (h : a.request.Answers .ok) :
    (answersContract env).Holds a (completeBenchmarkSpawn report) w := by
  simp only [completeBenchmarkSpawn, await_bind, Prog.pure_eq]
  split_ifs
  · exact answers_call fun _ _ => answers_done h
  · refine answers_call fun _ _ => answers_call fun _ _ => answers_call fun (active : ℕ) _ => ?_
    split_ifs
    · exact answers_done h
    · exact answers_call fun _ _ => answers_done h

/-- Operators and the schedule are answered outside of this client. -/
theorem answers_any (h : ∀ r, a.request.Answers r) (p : Handler) :
    (answersContract env).Holds a p w :=
  Contract.wp_of_uses (T := fun _ => True) (fun _ _ _ => trivial) (fun r _ => h r)
    (Prog.everywhere_of_forall (fun _ _ => trivial) p) w

theorem answers_handle : (answersContract env).Holds a (handle env a) w := by
  unfold handle
  cases ha : a.request with
  | start presented req => exact answers_any (fun _ => by rw [ha]; trivial) _
  | stop presented req => exact answers_any (fun _ => by rw [ha]; trivial) _
  | sweep => exact answers_any (fun _ => by rw [ha]; trivial) _
  | poll body => exact answers_agentPoll fun answer => by rw [ha]; exact .inr ⟨_, rfl⟩
  | status body =>
    dsimp only
    split_ifs
    · exact answers_call fun _ _ => answers_done (by rw [ha]; exact .inr ⟨_, rfl⟩)
    · exact answers_unauthorized
  | metrics report =>
    dsimp only
    split_ifs
    · exact answers_recordBenchmarkMetrics (by rw [ha]; exact .inr rfl)
    · exact answers_unauthorized
  | complete report =>
    dsimp only
    split_ifs
    · exact answers_completeBenchmarkSpawn (by rw [ha]; exact .inr rfl)
    · exact answers_unauthorized

end Handlers

theorem answersContract_valid (env : Env) : (answersContract env).Valid where
  refl _ := trivial
  trans _ _ := trivial
  exec _ _ _ _ := ⟨trivial, trivial⟩
  drift _ _ _ := ⟨trivial, trivial⟩
  handler _ _ _ := answers_handle

/-- Replies are of the kind that their request asks for. -/
theorem Reachable.answers {env : Env} {w : Plane} (hw : Reachable env w) {i : ℕ} {a : Arrival}
    {r : Reply} (hi : w.threads[i]? = some ⟨a, some (.done r)⟩) : a.request.Answers r := by
  obtain ⟨clock, hrun⟩ := hw
  have hsat := (answersContract_valid env).run hrun (Contract.satisfied_idle trivial)
  exact (answersContract_valid env).post hsat hi rfl

/-! ## Decoding -/

/-- The numbers are in the range in which JavaScript writes out every digit. -/
structure RunResponse.Exact (r : RunResponse) : Prop where
  targetRPS : r.targetRPS ≤ 2 ^ 53
  workers : r.workers ≤ 2 ^ 53
  startAt : r.startAtEpochMs.natAbs ≤ 2 ^ 53
  stopAt : r.stopAtEpochMs.natAbs ≤ 2 ^ 53

def Reply.Exact : Reply → Prop
  | .poll (.run r) => r.Exact
  | _ => True

/-- The answer to a poll as `PollResponse` has it. -/
def AgentPollResponse.response : AgentPollResponse → PollResponse
  | .idle message => ⟨"idle", "", "", 0, 0, 0, 0, false, message.getD ""⟩
  | .run r => ⟨"run", r.jobId, r.spawnId, r.targetRPS, r.workers, r.startAtEpochMs,
      r.stopAtEpochMs, r.unthrottled, ""⟩

/-- What a method returns for a reply of the handler; `data` is the text of the body. -/
def ControlCall.result (call : ControlCall) (data : Bytes) : Reply → Except ClientError Returned
  | .poll r => .ok (.poll r.response)
  | .status s => .ok (.status s)
  | .ok => .ok .done
  | .unauthorized _ => .error (.status call.path 401 (truncate data 200))
  | .unavailable => .error (.status call.path 503 (truncate data 200))
  | _ => .error .decode

@[simp] theorem unmarshal_obj {α : Type} (read : Json → Option α)
    (fields : List (String × Json)) :
    unmarshal read (some (.obj fields)) = read (.obj fields) := by simp only [unmarshal]

@[simp] theorem goString_none : goString none = some "" := rfl

@[simp] theorem goString_str (s : String) : goString (some (.str s)) = some s := rfl

@[simp] theorem goBool_none : goBool none = some false := rfl

@[simp] theorem goBool_bool (b : Bool) : goBool (some (.bool b)) = some b := rfl

@[simp] theorem goInt_none : goInt none = some 0 := rfl

theorem goInt_num {n : ℤ} (h : n.natAbs ≤ 2 ^ 53) : goInt (some (.num n)) = some n := by
  simp [goInt]
  omega

theorem goInt_natCast {n : ℕ} (h : n ≤ 2 ^ 53) : goInt (some (.num n)) = some (n : ℤ) := by
  have hn := goInt_num (n := n) (by simpa using h)
  rwa [Int.cast_natCast] at hn

theorem read_json {r : AgentPollResponse} (h : (Reply.poll r).Exact) :
    unmarshal PollResponse.read (some r.json) = some r.response := by
  cases r with
  | idle message =>
    cases message <;>
      simp [AgentPollResponse.json, AgentPollResponse.response, PollResponse.read, Json.field?]
  | run r =>
    have hrps := goInt_natCast h.targetRPS
    have hworkers := goInt_natCast h.workers
    simp [AgentPollResponse.json, AgentPollResponse.response, PollResponse.read, Json.field?,
      hrps, hworkers, goInt_num h.startAt, goInt_num h.stopAt]

/-- Only a run response is executed, and as given. -/
theorem assignment?_of_result {call : ControlCall} {data : Bytes} {r : Reply} {p : PollResponse}
    (h : call.result data r = .ok (.poll p)) (given : Assignment) :
    p.assignment? = some given ↔ ∃ resp, r = .poll (.run resp) ∧ resp.assignment = given := by
  cases r with
  | poll answer =>
    obtain rfl : answer.response = p := by simpa [ControlCall.result] using h
    cases answer with
    | idle message => simp [AgentPollResponse.response, PollResponse.assignment?]
    | run resp =>
      simp [AgentPollResponse.response, PollResponse.assignment?, RunResponse.assignment]
  | _ => simp [ControlCall.result] at h

namespace ControlClient
variable (c : ControlClient) {α : Type} (path : String) (out : Option Json → Option α)
  (location : String) (data : Bytes) (json : Option Json)

/-- Status 200 reaches the decoder. -/
theorem post_ok {a : α} (h : out json = some a) :
    c.post path out (some ⟨200, location, data, json⟩) = .ok a := by
  simp [post, h]

/-- The decoder is not asked about an error status. -/
theorem post_failed {statusCode : ℕ} (h : 400 ≤ statusCode) :
    c.post path out (some ⟨statusCode, location, data, json⟩) =
      .error (.status path statusCode (truncate data 200)) := by
  simp only [post]
  rw [if_neg (by omega), if_pos (by omega)]

variable {r : Reply} (call : ControlCall) (text : Json → Bytes) (page : Bytes)

/-- Every method passes an error status on. -/
theorem returned_failed (h : r.Failed) :
    c.returned call (some ((respond r).raw text page)) =
      call.result ((respond r).raw text page).data r := by
  cases r with
  | unauthorized message =>
    cases call <;> simp [returned, respond, HttpResponse.raw, Reply.agentJson?, post_failed,
      Except.map, ControlCall.result]
  | unavailable =>
    cases call <;> simp [returned, respond, HttpResponse.raw, Reply.agentJson?, post_failed,
      Except.map, ControlCall.result]
  | _ => cases h

theorem returned_poll {answer : AgentPollResponse} (h : (Reply.poll answer).Exact) :
    c.returned .poll (some ((respond (.poll answer)).raw text page)) =
      .ok (.poll answer.response) := by
  simp [returned, respond, HttpResponse.raw, Reply.agentJson?, Except.map,
    c.post_ok _ _ _ _ _ (read_json h)]

theorem returned_status (s jobId spawnId : String) :
    c.returned (.jobStatus jobId spawnId) (some ((respond (.status s)).raw text page)) =
      .ok (.status s) := by
  have hread : unmarshal (fun j => goString (j.field? "status"))
      (some (.obj [("status", .str s)])) = some s := by simp [Json.field?]
  simp [returned, respond, HttpResponse.raw, Reply.agentJson?, Except.map,
    c.post_ok _ _ _ _ _ hread]

end ControlClient

/-- Whatever the interleaving in which the Worker served it, a call that was answered
returns what the handler replied: the acknowledgement, the status, and the assignment
exactly when a poll was given one, else an error that names path and status. -/
theorem call_returns_reply {env : Env} {w : Plane} (hw : Reachable env w) (c : ControlClient)
    (call : ControlCall) {i : ℕ} {a : Arrival} {r : Reply} (ha : a.request = c.handled call)
    (hi : w.threads[i]? = some ⟨a, some (.done r)⟩) (hr : r.Exact) (text : Json → Bytes)
    (page : Bytes) :
    c.returned call (some ((respond r).raw text page)) =
      call.result ((respond r).raw text page).data r ∧
    ∀ p, c.returned call (some ((respond r).raw text page)) = .ok (.poll p) →
      ∀ given, p.assignment? = some given ↔
        ∃ resp, r = .poll (.run resp) ∧ resp.assignment = given := by
  have hreturned : c.returned call (some ((respond r).raw text page)) =
      call.result ((respond r).raw text page).data r := by
    have hanswers := hw.answers hi
    rw [ha] at hanswers
    cases call with
    | poll =>
      obtain hfailed | ⟨answer, rfl⟩ := hanswers
      · exact c.returned_failed .poll text page hfailed
      · exact c.returned_poll text page hr
    | jobStatus jobId spawnId =>
      obtain hfailed | ⟨s, rfl⟩ := hanswers
      · exact c.returned_failed _ text page hfailed
      · exact c.returned_status text page s jobId spawnId
    | reportMetrics report =>
      obtain hfailed | rfl := hanswers
      · exact c.returned_failed _ text page hfailed
      · rfl
    | reportComplete jobId spawnId errMsg =>
      obtain hfailed | rfl := hanswers
      · exact c.returned_failed _ text page hfailed
      · rfl
  refine ⟨hreturned, fun p hp given => ?_⟩
  rw [hreturned] at hp
  exact assignment?_of_result hp given

def sampleClient : ControlClient := ⟨"key", "a", "weur", "", ""⟩

/-- A job is queued and the sample agent polls. -/
def clientPoll : List (Action Arrival ℕ) :=
  .arrive (startOf 400 2 1 0) :: serve 3 0 ++
    .arrive ⟨sampleClient.handled .poll, sampleUuid, 0⟩ :: serve 6 1

def clientShare : RunResponse :=
  { jobId := sampleUuid.text, spawnId := spawnIdOf sampleUuid.text "a", targetRPS := 200,
    workers := 512, startAtEpochMs := 0, stopAtEpochMs := 60000, unthrottled := false }

theorem call_returns_reply_clientPoll : ∃ w a, Reachable bareEnv w ∧
    w.threads[1]? = some ⟨a, some (.done (.poll (.run clientShare)))⟩ ∧
    a.request = sampleClient.handled .poll ∧
    sampleClient.returned .poll
      (some ((respond (.poll (.run clientShare))).raw (fun _ => []) [])) =
        .ok (.poll (AgentPollResponse.run clientShare).response) := by
  obtain ⟨w, hrun, hw⟩ := (controlPlane bareEnv).exists_run_of_replay
    (w := idlePlane 0) (C := fun _ _ => True) (fun _ _ => true) (fun _ _ _ => trivial) clientPoll
    (fun w => runResponse? w 1 = some clientShare ∧
      (w.threads[1]?.map fun u => u.request.request) = some (sampleClient.handled .poll))
    (by decide +kernel)
  obtain ⟨hresp, hreq⟩ := of_decide_eq_true hw
  obtain ⟨a, hi⟩ := answered_of_runResponse? hresp
  have ha : a.request = sampleClient.handled .poll := by simpa [hi] using hreq
  have hexact : (Reply.poll (.run clientShare)).Exact :=
    ⟨by decide, by decide, by decide, by decide⟩
  exact ⟨w, a, ⟨0, hrun⟩, hi, ha,
    (call_returns_reply ⟨0, hrun⟩ sampleClient .poll ha hi hexact _ _).1⟩

end R2Bench
