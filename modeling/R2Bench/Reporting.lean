import R2Bench.Machines
import R2Bench.MetricRows
import R2Bench.RunResponses

/-!
# An agent that reports, dies and comes back

The processes that run one spawn, one after another, beside the control plane. A
report is taken from the counters of the process and reaches the control plane at
any later time, or never; nobody waits for it there. A process that dies takes its
counters with it, and the next poll hands out the same spawn.
-/
namespace R2Bench
open Interleaving Machines

/-- A process past its start: the counters and the variables of `reportLoop`. -/
structure Process where
  assignment : Assignment
  start : ℤ
  metrics : Metrics
  loop : ReportLoop

namespace Process

/-- Load begins on fresh counters. -/
def begin (resp : RunResponse) (start : ℤ) : Process :=
  ⟨resp.assignment, start, newMetrics, ⟨newMetrics.snapshot, start, 0⟩⟩

def observe (p : Process) (o : Observation) : Process := { p with metrics := p.metrics.observe o }

/-- The report of a tick. -/
def report (p : Process) (now : ℤ) : MetricsReport :=
  let cur := p.metrics.snapshot
  buildReport p.assignment cur (cur.sub p.loop.prev) (seconds (now - p.start))
    (seconds (now - p.loop.prevAt)) p.loop.tick

def ticked (p : Process) (now : ℤ) : Process :=
  { p with loop := ⟨p.metrics.snapshot, now, p.loop.tick + 1⟩ }

/-- The report of the final flush. -/
def flush (p : Process) (finish : ℤ) : MetricsReport :=
  let final := p.metrics.snapshot
  let elapsed := seconds (finish - p.start)
  buildReport p.assignment final final elapsed elapsed (-1)

end Process

/-- A report that was taken: how many requests had been counted under the spawn id
by then, and the thread that serves it, once it has arrived. -/
structure Taken where
  body : SpawnMetricsReport
  counted : ℕ
  thread : Option ℕ

/-- The control plane, the process if there is one, the reports in the order in which
they were taken, and how many requests have been counted under the spawn id. -/
structure Reporting where
  plane : Plane
  process : Option Process
  taken : List Taken
  counted : ℕ

inductive ReportingAct
  | plane (a : Action Arrival ℕ)
  | begin (thread : ℕ) (start : ℤ)
  | observe (o : Observation)
  | tick (now : ℤ)
  | flush (finish : ℤ)
  | crash
  | deliver (k : ℕ) (uuid : Uuid)

/-- A metrics request for the spawn. -/
def Request.reportsFor (spawnId : String) : Request → Bool
  | .metrics report => report.spawnId = spawnId
  | _ => false

/-- The observation counts a request. -/
def Observation.counts : Observation → Bool
  | .success .. => true
  | _ => false

namespace Reporting

def take (f : Reporting) (token : String) (r : MetricsReport) (process : Option Process) :
    Reporting :=
  { f with process, taken := f.taken ++ [⟨r.body token, f.counted, none⟩] }

/-- One step. All metrics requests for the spawn are reports that were taken; a
process begins with a response that a poll was answered with. -/
def step (env : Env) (token spawnId : String) (f : Reporting) : ReportingAct → Option Reporting
  | .plane a =>
    match a with
    | .arrive t =>
      if t.request.reportsFor spawnId then none
      else ((controlPlane env).step f.plane a).map fun plane => { f with plane }
    | _ => ((controlPlane env).step f.plane a).map fun plane => { f with plane }
  | .begin i start =>
    match f.process, runResponse? f.plane i with
    | none, some resp =>
      if resp.spawnId = spawnId then some { f with process := some (.begin resp start) } else none
    | _, _ => none
  | .observe o =>
    f.process.map fun p =>
      { f with process := some (p.observe o), counted := f.counted + if o.counts then 1 else 0 }
  | .tick now => f.process.map fun p => f.take token (p.report now) (some (p.ticked now))
  | .flush finish => f.process.map fun p => f.take token (p.flush finish) none
  | .crash => f.process.map fun _ => { f with process := none }
  | .deliver k uuid =>
    match f.taken[k]? with
    | some ⟨body, counted, none⟩ =>
      ((controlPlane env).step f.plane (.arrive ⟨.metrics body, uuid, 0⟩)).map fun plane =>
        { f with plane, taken := f.taken.set k ⟨body, counted, some f.plane.threads.length⟩ }
    | _ => none

/-- What a step is when it is enabled. -/
inductive Moved (env : Env) (token spawnId : String) (f : Reporting) :
    ReportingAct → Reporting → Prop
  | plane {a : Action Arrival ℕ} {plane : Plane}
      (foreign : ∀ t, a = .arrive t → t.request.reportsFor spawnId = false)
      (moved : (controlPlane env).step f.plane a = some plane) :
      Moved env token spawnId f (.plane a) { f with plane := plane }
  | begin {i : ℕ} {start : ℤ} {resp : RunResponse} (idle : f.process = none)
      (response : runResponse? f.plane i = some resp) (own : resp.spawnId = spawnId) :
      Moved env token spawnId f (.begin i start) { f with process := some (.begin resp start) }
  | observe {o : Observation} {p : Process} (busy : f.process = some p) :
      Moved env token spawnId f (.observe o)
        { f with
          process := some (p.observe o)
          counted := f.counted + if o.counts then 1 else 0 }
  | tick {now : ℤ} {p : Process} (busy : f.process = some p) :
      Moved env token spawnId f (.tick now) (f.take token (p.report now) (some (p.ticked now)))
  | flush {finish : ℤ} {p : Process} (busy : f.process = some p) :
      Moved env token spawnId f (.flush finish) (f.take token (p.flush finish) none)
  | crash {p : Process} (busy : f.process = some p) :
      Moved env token spawnId f .crash { f with process := none }
  | deliver {k : ℕ} {uuid : Uuid} {body : SpawnMetricsReport} {counted : ℕ} {plane : Plane}
      (waiting : f.taken[k]? = some ⟨body, counted, none⟩)
      (moved : (controlPlane env).step f.plane (.arrive ⟨.metrics body, uuid, 0⟩) = some plane) :
      Moved env token spawnId f (.deliver k uuid)
        { f with
          plane := plane
          taken := f.taken.set k ⟨body, counted, some f.plane.threads.length⟩ }

theorem moved_of_step {env : Env} {token spawnId : String} {f f' : Reporting} {act : ReportingAct}
    (h : f.step env token spawnId act = some f') : f.Moved env token spawnId act f' := by
  cases act with
  | plane a =>
    simp only [step] at h
    split at h
    · case h_1 t =>
      split_ifs at h with hforeign
      obtain ⟨plane, hplane, rfl⟩ := Option.map_eq_some_iff.mp h
      apply Moved.plane _ hplane
      intro t' ht'
      obtain rfl := Action.arrive.inj ht'
      simpa using hforeign
    · case h_2 hother =>
      obtain ⟨plane, hplane, rfl⟩ := Option.map_eq_some_iff.mp h
      exact .plane (fun t ht => absurd ht (hother t)) hplane
  | begin i start =>
    simp only [step] at h
    split at h
    · case h_1 resp hnone hresp =>
      split_ifs at h with hid
      cases h
      exact .begin hnone hresp hid
    · cases h
  | observe o =>
    obtain ⟨p, hp, rfl⟩ := Option.map_eq_some_iff.mp h
    exact .observe hp
  | tick now =>
    obtain ⟨p, hp, rfl⟩ := Option.map_eq_some_iff.mp h
    exact .tick hp
  | flush finish =>
    obtain ⟨p, hp, rfl⟩ := Option.map_eq_some_iff.mp h
    exact .flush hp
  | crash =>
    obtain ⟨p, hp, rfl⟩ := Option.map_eq_some_iff.mp h
    exact .crash hp
  | deliver k uuid =>
    simp only [step] at h
    split at h
    · case h_1 body counted hk =>
      obtain ⟨plane, hplane, rfl⟩ := Option.map_eq_some_iff.mp h
      exact .deliver hk hplane
    · cases h

/-- Nobody has polled yet. -/
def idle (clock : ℤ) : Reporting := ⟨idlePlane clock, none, [], 0⟩

end Reporting

end R2Bench
