import R2Bench.RunResponses
import R2Bench.Machines

/-!
# A fleet of agents at the control plane

Each agent polls, warms up, holds until the shared start, drives load, and asks
for the job's status while it does. Time is the control plane's clock. Requests
are served by its interleaved handlers; an agent can be interrupted at any time.
-/
namespace R2Bench
open Interleaving Machines

/-- `watchStatus`: when its ticker last fired, the request being served, and
whether it has cancelled the run. -/
structure StatusWatch where
  tick : ℤ
  asked : Option ℕ
  cancelled : Bool

inductive AgentPhase
  | idle
  | polling (thread : ℕ)
  | warming (resp : RunResponse)
  | holding (resp : RunResponse)
  /-- In `Runner.Run`, with the status watch beside it. -/
  | running (resp : RunResponse) (watch : StatusWatch)

/-- An interrupted agent that is idle has shut down. -/
structure Agent where
  phase : AgentPhase
  interrupted : Bool

/-- The response that an agent executes. -/
def AgentPhase.resp? : AgentPhase → Option RunResponse
  | .warming resp | .holding resp | .running resp _ => some resp
  | _ => none

structure Fleet where
  plane : Plane
  agents : String → Agent

inductive FleetAct
  | plane (a : Action Arrival ℕ)
  | poll (agent : String) (arrival : Arrival)
  | answered (agent : String)
  | pollFailed (agent : String)
  | warmed (agent : String)
  | released (agent : String)
  | ask (agent : String) (arrival : Arrival)
  | told (agent : String)
  | finished (agent : String)
  | interrupt (agent : String)

/-- The period of `watchStatus`. -/
def STATUS_POLL_MS : ℤ := 10000

/-- The statuses that cancel a run. -/
def endsLoad (status : String) : Bool :=
  status ∈ ["STOPPING", "STOPPED", "FAILED", "COMPLETED"]

def Request.pollsFor (agent : String) : Request → Bool
  | .poll body => body.agentId = agent
  | _ => false

def Request.asksFor (resp : RunResponse) : Request → Bool
  | .status body => body.jobId = resp.jobId ∧ body.spawnId = resp.spawnId
  | _ => false

/-- What thread `i` has come to: nothing yet, a failure, or a reply. -/
def replyOf (v : Plane) (i : ℕ) : Option (Option Reply) :=
  match v.threads[i]? with
  | some ⟨_, none⟩ => some none
  | some ⟨_, some (.done reply)⟩ => some (some reply)
  | _ => none

/-- The beginning of `execute`: an expired assignment is only reported. -/
def execute (clock : ℤ) (resp : RunResponse) : AgentPhase :=
  if resp.stopAtEpochMs ≤ clock then .idle else .warming resp

/-- Load and the status watch begin together. -/
def drive (clock : ℤ) (resp : RunResponse) : AgentPhase :=
  .running resp ⟨clock, none, false⟩

namespace Fleet

def clock (f : Fleet) : ℤ := f.plane.store.clock

def setPhase (f : Fleet) (agent : String) (phase : AgentPhase) : Fleet :=
  { f with agents := Function.update f.agents agent ⟨phase, (f.agents agent).interrupted⟩ }

/-- A request of an agent reaches the control plane. -/
def send (env : Env) (f : Fleet) (agent : String) (arrival : Arrival)
    (phase : ℕ → AgentPhase) : Option Fleet :=
  ((controlPlane env).step f.plane (.arrive arrival)).map fun plane =>
    { f.setPhase agent (phase f.plane.threads.length) with plane }

def step (env : Env) (f : Fleet) : FleetAct → Option Fleet
  | .plane a => ((controlPlane env).step f.plane a).map fun plane => { f with plane }
  | .poll agent arrival =>
    match f.agents agent with
    | ⟨.idle, false⟩ =>
      if arrival.request.pollsFor agent then f.send env agent arrival .polling else none
    | _ => none
  | .answered agent =>
    match f.agents agent with
    | ⟨.polling i, false⟩ =>
      match replyOf f.plane i with
      | some (some (.poll (.run resp))) => some (f.setPhase agent (execute f.clock resp))
      | some _ => some (f.setPhase agent .idle)
      | none => none
    | _ => none
  | .pollFailed agent =>
    match (f.agents agent).phase with
    | .polling _ => some (f.setPhase agent .idle)
    | _ => none
  | .warmed agent =>
    match (f.agents agent).phase with
    | .warming resp =>
      some (f.setPhase agent
        (if f.clock < resp.startAtEpochMs then .holding resp else drive f.clock resp))
    | _ => none
  | .released agent =>
    match f.agents agent with
    | ⟨.holding _, true⟩ => some (f.setPhase agent .idle)
    | ⟨.holding resp, false⟩ =>
      if resp.startAtEpochMs ≤ f.clock then some (f.setPhase agent (drive f.clock resp))
      else none
    | _ => none
  | .ask agent arrival =>
    match (f.agents agent).phase with
    | .running resp ⟨tick, none, false⟩ =>
      if tick + STATUS_POLL_MS ≤ f.clock ∧ arrival.request.asksFor resp then
        f.send env agent arrival fun i => .running resp ⟨f.clock, some i, false⟩
      else none
    | _ => none
  | .told agent =>
    match (f.agents agent).phase with
    | .running resp ⟨tick, some i, cancelled⟩ =>
      match replyOf f.plane i with
      | some (some (.status status)) =>
        some (f.setPhase agent (.running resp ⟨tick, none, cancelled || endsLoad status⟩))
      | some _ => some (f.setPhase agent (.running resp ⟨tick, none, cancelled⟩))
      | none => none
    | _ => none
  | .finished agent =>
    match f.agents agent with
    | ⟨.running resp watch, interrupted⟩ =>
      if watch.cancelled ∨ interrupted ∨ resp.stopAtEpochMs ≤ f.clock then
        some (f.setPhase agent .idle)
      else none
    | _ => none
  | .interrupt agent =>
    some { f with agents := Function.update f.agents agent ⟨(f.agents agent).phase, true⟩ }

end Fleet

/-- Nothing has been asked of an empty control plane. -/
def idleFleet (clock : ℤ) : Fleet := ⟨idlePlane clock, fun _ => ⟨.idle, false⟩⟩

end R2Bench
