import R2Bench.ControlClient
import R2Bench.Fleet
import R2Bench.Pacer
import R2Bench.Tickers

/-!
# A timed run

`execute` from the start of load to its end: the workers of `Runner.Run` and the pacer
that feeds them, with the report loop and the status watch beside them and the
terminal reports after them. An action is one step of one goroutine, of a timer, or
of the world outside; they interleave freely. An observation and a snapshot are one
step each, where `metrics.go` makes them of one atomic operation after another; what a
counter shows then is in `TornSnapshots`. Instants are nanoseconds.
-/
namespace R2Bench
open Machines Tickers

/-- What the trace hooks of one `fetch` have stored, in microseconds. A request made
with a context that is done already is `late`: the client refuses to send it. -/
structure Fetch where
  start : ℤ
  late : Bool
  wroteAt : ℤ
  wireMicros : ℤ
  deriving DecidableEq, Repr

structure FetchResult where
  bytes : Int64
  wireMicros : UInt64
  status : ℤ
  deriving DecidableEq, Repr

/-- Where a goroutine of `worker` is in its loop. -/
inductive Worker
  /-- At the select. -/
  | ready
  /-- Through the select; the request has not begun. -/
  | drawn
  /-- In `fetch`. -/
  | fetching (f : Fetch)
  /-- `fetch` has returned a result. -/
  | answered (elapsed : UInt64) (n : FetchResult)
  /-- Between `ObserveWire` and `ObserveSuccess`. -/
  | counting (elapsed : UInt64) (n : FetchResult)
  /-- `fetch` has returned an error. -/
  | failed (elapsed : UInt64) (timeout : Bool)
  /-- The context was not done: the error is about to be observed. -/
  | erring (elapsed : UInt64) (timeout : Bool)
  | returned
  deriving DecidableEq, Repr

inductive WorkerAct
  | request
  | gotConn (reused : Bool)
  | wroteRequest
  | gotFirstResponseByte
  | succeed (bytes : Int64) (status : ℤ)
  | fail (timeout : Bool)
  /-- The check of `ctx.Err` after an error. -/
  | judge
  | observe
  deriving DecidableEq, Repr

/-- `UnixMicro`. -/
def unixMicro (now : ℤ) : ℤ := now / 1000

/-- `uint64(time.Since(start).Microseconds())`. -/
def microsSince (start now : ℤ) : UInt64 := UInt64.ofNat ((now - start) / 1000).toNat

/-- What is noted of a timed run. -/
inductive LoadEvent
  /-- A worker takes a token, or passes the select without one. -/
  | begun
  | agent (e : AgentEvent)
  /-- A worker returns with an error that it does not observe. -/
  | abandoned
  deriving DecidableEq, Repr

namespace Worker

def step (now : ℤ) (done : Bool) : Worker → WorkerAct → Option Worker
  | drawn, .request => some (fetching ⟨now, done, 0, 0⟩)
  | fetching f, .gotConn _ => some (fetching f)
  | fetching f, .wroteRequest => some (fetching { f with wroteAt := unixMicro now })
  | fetching f, .gotFirstResponseByte =>
    some (fetching
      (if f.wroteAt ≠ 0 then { f with wireMicros := unixMicro now - f.wroteAt } else f))
  | fetching f, .succeed bytes status =>
    if f.late then none
    else some (answered (microsSince f.start now) ⟨bytes, UInt64.ofNat f.wireMicros.toNat, status⟩)
  | fetching f, .fail timeout => some (failed (microsSince f.start now) timeout)
  | failed elapsed timeout, .judge => some (if done then returned else erring elapsed timeout)
  | answered elapsed n, .observe => some (if n.wireMicros > 0 then counting elapsed n else ready)
  | counting _ _, .observe => some ready
  | erring _ _, .observe => some ready
  | _, _ => none

/-- What a step of a worker observes. -/
def observation : Worker → WorkerAct → Option Observation
  | fetching _, .gotConn reused => some (.conn reused)
  | answered elapsed n, .observe =>
    some (if n.wireMicros > 0 then .wire n.wireMicros else .success elapsed n.bytes n.status)
  | counting elapsed n, .observe => some (.success elapsed n.bytes n.status)
  | erring elapsed timeout, .observe => some (.error elapsed timeout)
  | _, _ => none

def event (done : Bool) (w : Worker) (a : WorkerAct) : Option LoadEvent :=
  if a = .judge ∧ done then some .abandoned
  else (w.observation a).map fun o => .agent (.observe o)

/-- Between the select and its return to it. -/
def busy : Worker → Bool
  | ready | returned => false
  | _ => true

/-- Everything one step of a worker can do, with what is noted of it. -/
inductive Moved (now : ℤ) (done : Bool) : Worker → WorkerAct → Option LoadEvent → Worker → Prop
  | request : Moved now done drawn .request none (fetching ⟨now, done, 0, 0⟩)
  | gotConn (f : Fetch) (reused : Bool) : Moved now done (fetching f) (.gotConn reused)
      (some (.agent (.observe (.conn reused)))) (fetching f)
  | hook {f f' : Fetch} {a : WorkerAct} (hook : a = .wroteRequest ∨ a = .gotFirstResponseByte)
      (start : f'.start = f.start) (late : f'.late = f.late) :
      Moved now done (fetching f) a none (fetching f')
  | succeed {f : Fetch} (bytes : Int64) (status : ℤ) (sent : f.late = false) :
      Moved now done (fetching f) (.succeed bytes status) none
        (answered (microsSince f.start now) ⟨bytes, UInt64.ofNat f.wireMicros.toNat, status⟩)
  | fail (f : Fetch) (timeout : Bool) : Moved now done (fetching f) (.fail timeout) none
      (failed (microsSince f.start now) timeout)
  | abandon (elapsed : UInt64) (timeout : Bool) (ended : done = true) :
      Moved now done (failed elapsed timeout) .judge (some .abandoned) returned
  | judge (elapsed : UInt64) (timeout : Bool) (running : done = false) :
      Moved now done (failed elapsed timeout) .judge none (erring elapsed timeout)
  | wire (elapsed : UInt64) (n : FetchResult) : Moved now done (answered elapsed n) .observe
      (some (.agent (.observe (.wire n.wireMicros)))) (counting elapsed n)
  | success {w : Worker} {elapsed : UInt64} {n : FetchResult}
      (got : w = answered elapsed n ∨ w = counting elapsed n) :
      Moved now done w .observe
        (some (.agent (.observe (.success elapsed n.bytes n.status)))) ready
  | error (elapsed : UInt64) (timeout : Bool) : Moved now done (erring elapsed timeout) .observe
      (some (.agent (.observe (.error elapsed timeout)))) ready

theorem moved {now : ℤ} {done : Bool} {w w' : Worker} {a : WorkerAct}
    (h : w.step now done a = some w') : Moved now done w a (w.event done a) w' := by
  cases w with
  | ready => cases a <;> cases h
  | returned => cases a <;> cases h
  | drawn =>
    cases a with
    | request =>
      cases h
      exact .request
    | _ => cases h
  | fetching f =>
    cases a with
    | gotConn reused =>
      cases h
      exact .gotConn f reused
    | wroteRequest =>
      cases h
      exact .hook (.inl rfl) rfl rfl
    | gotFirstResponseByte =>
      cases h
      refine .hook (.inr rfl) ?_ ?_ <;> split_ifs <;> rfl
    | succeed bytes status =>
      simp only [step] at h
      split_ifs at h with hlate
      cases h
      exact .succeed bytes status (by simpa using hlate)
    | fail timeout =>
      cases h
      exact .fail f timeout
    | _ => cases h
  | answered elapsed n =>
    cases a with
    | observe =>
      cases h
      by_cases hwire : n.wireMicros > 0
      · simpa [event, observation, hwire] using Moved.wire elapsed n
      · simpa [event, observation, hwire] using Moved.success (.inl rfl)
    | _ => cases h
  | counting elapsed n =>
    cases a with
    | observe =>
      cases h
      exact .success (.inr rfl)
    | _ => cases h
  | failed elapsed timeout =>
    cases a with
    | judge =>
      cases h
      cases done with
      | true => exact .abandon elapsed timeout rfl
      | false => exact .judge elapsed timeout rfl
    | _ => cases h
  | erring elapsed timeout =>
    cases a with
    | observe =>
      cases h
      exact .error elapsed timeout
    | _ => cases h

theorem Moved.ne_returned {now : ℤ} {done : Bool} {w w' : Worker} {a : WorkerAct}
    {e : Option LoadEvent} (h : Moved now done w a e w') : w ≠ returned := by
  cases h with
  | success got => rcases got with rfl | rfl <;> simp
  | _ => simp

end Worker

/-! ## The goroutines of `execute` -/

/-- What `execute` has in hand when load starts. A `WaitGroup` panics on a negative count
and a ticker on an interval that is not positive. -/
structure Load where
  assignment : Assignment
  maxWorkers : ℤ
  metricsInterval : ℤ
  start : ℤ
  maxWorkers_nonneg : 0 ≤ maxWorkers
  interval_pos : 0 < metricsInterval

namespace Load

def plan (load : Load) : RunPlan := Runner.run load.maxWorkers load.assignment

/-- The rate of the pacer, if one is started. -/
def rps (load : Load) : Option ℕ := load.plan.tokens.map Int.toNat

end Load

/-- `tickInterval` of `startPacer`. -/
def tickInterval : ℤ := 5000000

/-- The period of `watchStatus`. -/
def statusInterval : ℤ := STATUS_POLL_MS * 1000000

/-- A goroutine that calls the control plane at every tick of its timer. -/
inductive CallPhase
  | waiting
  | calling
  | returned
  deriving DecidableEq, Repr

structure Reporter where
  loop : ReportLoop
  ticker : Ticker
  phase : CallPhase

structure Watcher where
  ticker : Ticker
  phase : CallPhase

/-- Where `execute` itself is. -/
inductive Stage
  /-- In `Runner.Run`. -/
  | loading
  /-- In `wg.Wait`. -/
  | joining
  | flushing
  | completing
  | finished
  deriving DecidableEq, Repr

/-- `calls` are the calls of the control client so far. The pacer and its ticker rest
where no pacer is started. -/
structure LoadRun where
  clock : ℤ
  interrupted : Bool
  cancelled : Bool
  /-- The deadline's timer has fired. -/
  expired : Bool
  pacer : Pacer
  paceTicker : Ticker
  workers : List Worker
  metrics : Metrics
  reporter : Reporter
  watcher : Watcher
  stage : Stage
  calls : List ControlCall

inductive LoadAct
  | wait (d : ℕ)
  | interrupt
  | expire
  | paceTimer
  | reportTimer
  | statusTimer
  | pacerTick
  | pacerSend
  | pacerDone
  | take (i : ℕ)
  | leave (i : ℕ)
  | worker (i : ℕ) (a : WorkerAct)
  /-- The report loop sends a report, which the control plane will store or not. -/
  | tick (stored : Bool)
  | reported
  | stopReporting
  | ask
  /-- The answer of `JobStatus`, or its error. -/
  | told (status : Option String)
  | stopWatching
  | runReturned
  | join
  | flushed
  | completed
  deriving DecidableEq, Repr

namespace LoadRun

def start (load : Load) : LoadRun :=
  { clock := load.start
    interrupted := false
    cancelled := false
    expired := false
    pacer := Pacer.start
    paceTicker := .new tickInterval load.start
    workers := List.replicate load.plan.workers.toNat .ready
    metrics := newMetrics
    reporter :=
      ⟨⟨newMetrics.snapshot, load.start, 0⟩, .new load.metricsInterval load.start, .waiting⟩
    watcher := ⟨.new statusInterval load.start, .waiting⟩
    stage := .loading
    calls := [] }

/-- The context that `execute` cancels. -/
def runDone (v : LoadRun) : Bool := v.interrupted || v.cancelled

/-- The context of the workers, which also has the deadline. -/
def loadDone (v : LoadRun) : Bool := v.runDone || v.expired

/-- A worker gets through the select: with a token where there is a pacer, by the
default case where there is none. -/
def throughSelect (load : Load) (v : LoadRun) : Option Pacer :=
  match load.rps with
  | some rps => v.pacer.step rps .receive
  | none => if v.loadDone then none else some v.pacer

/-- The select may end a worker: the context is done, or the channel is closed and empty. -/
def mayLeave (load : Load) (v : LoadRun) : Bool :=
  v.loadDone || (load.rps.isSome && v.pacer.closed && v.pacer.queued = 0)

/-- The next interval report, of a tick at `now`. -/
def report (load : Load) (v : LoadRun) (now : ℤ) : MetricsReport :=
  let cur := v.metrics.snapshot
  let loop := v.reporter.loop
  buildReport load.assignment cur (cur.sub loop.prev) (seconds (now - load.start))
    (seconds (now - loop.prevAt)) loop.tick

/-- The final flush. -/
def flush (load : Load) (v : LoadRun) : MetricsReport :=
  let final := v.metrics.snapshot
  let elapsed := seconds (v.clock - load.start)
  buildReport load.assignment final final elapsed elapsed (-1)

def step (load : Load) (v : LoadRun) : LoadAct → Option LoadRun
  | .wait d => some { v with clock := v.clock + d }
  | .interrupt => some { v with interrupted := true }
  | .expire =>
    if load.assignment.stopAt * 1000000 ≤ v.clock then some { v with expired := true } else none
  | .paceTimer =>
    (v.paceTicker.fire tickInterval v.clock).map fun ticker => { v with paceTicker := ticker }
  | .reportTimer =>
    (v.reporter.ticker.fire load.metricsInterval v.clock).map fun ticker =>
      { v with reporter := { v.reporter with ticker } }
  | .statusTimer =>
    (v.watcher.ticker.fire statusInterval v.clock).map fun ticker =>
      { v with watcher := { v.watcher with ticker } }
  | .pacerTick =>
    load.rps.bind fun rps => v.paceTicker.receive.bind fun ticker =>
      (v.pacer.step rps .tick).map fun pacer => { v with pacer, paceTicker := ticker }
  | .pacerSend =>
    load.rps.bind fun rps => (v.pacer.step rps .send).map fun pacer => { v with pacer }
  | .pacerDone =>
    load.rps.bind fun rps =>
      if v.loadDone then (v.pacer.step rps .done).map fun pacer => { v with pacer } else none
  | .take i =>
    if v.workers[i]? = some .ready then
      (v.throughSelect load).map fun pacer =>
        { v with pacer, workers := v.workers.set i .drawn }
    else none
  | .leave i =>
    if v.workers[i]? = some .ready ∧ v.mayLeave load then
      some { v with workers := v.workers.set i .returned }
    else none
  | .worker i a =>
    v.workers[i]?.bind fun w => (w.step v.clock v.loadDone a).map fun w' =>
      { v with
        workers := v.workers.set i w'
        metrics := (w.observation a).elim v.metrics v.metrics.observe }
  | .tick _ =>
    if v.reporter.phase = .waiting then
      v.reporter.ticker.pending.map fun now =>
        { v with
          reporter :=
            { loop := ⟨v.metrics.snapshot, now, v.reporter.loop.tick + 1⟩
              ticker := { v.reporter.ticker with pending := none }
              phase := .calling }
          calls := v.calls ++ [.reportMetrics (v.report load now)] }
    else none
  | .reported =>
    if v.reporter.phase = .calling then
      some { v with reporter := { v.reporter with phase := .waiting } }
    else none
  | .stopReporting =>
    if v.reporter.phase = .waiting ∧ v.runDone then
      some { v with reporter := { v.reporter with phase := .returned } }
    else none
  | .ask =>
    if v.watcher.phase = .waiting then
      v.watcher.ticker.receive.map fun ticker =>
        { v with
          watcher := ⟨ticker, .calling⟩
          calls := v.calls ++ [.jobStatus load.assignment.jobId load.assignment.spawnId] }
    else none
  | .told status =>
    if v.watcher.phase = .calling then
      if status.any endsLoad then
        some { v with cancelled := true, watcher := { v.watcher with phase := .returned } }
      else some { v with watcher := { v.watcher with phase := .waiting } }
    else none
  | .stopWatching =>
    if v.watcher.phase = .waiting ∧ v.runDone then
      some { v with watcher := { v.watcher with phase := .returned } }
    else none
  | .runReturned =>
    if v.stage = .loading ∧ ∀ w ∈ v.workers, w = .returned then
      some { v with cancelled := true, stage := .joining }
    else none
  | .join =>
    if v.stage = .joining ∧ v.reporter.phase = .returned ∧ v.watcher.phase = .returned then
      some { v with stage := .flushing, calls := v.calls ++ [.reportMetrics (v.flush load)] }
    else none
  | .flushed =>
    if v.stage = .flushing then
      some { v with
        stage := .completing
        calls := v.calls ++
          [.reportComplete load.assignment.jobId load.assignment.spawnId ""] }
    else none
  | .completed => if v.stage = .completing then some { v with stage := .finished } else none

/-- What is noted of a step. -/
def event (v : LoadRun) : LoadAct → Option LoadEvent
  | .take _ => some .begun
  | .worker i a => v.workers[i]?.bind fun w => w.event v.loadDone a
  | .tick stored => v.reporter.ticker.pending.map fun now => .agent (.tick now stored)
  | _ => none

/-- The counters after what is noted of a step. -/
def counted (m : Metrics) : Option LoadEvent → Metrics
  | some (.agent (.observe o)) => m.observe o
  | _ => m

theorem counted_event (m : Metrics) (done : Bool) (w : Worker) (a : WorkerAct) :
    counted m (w.event done a) = (w.observation a).elim m m.observe := by
  unfold Worker.event
  split_ifs with hjudge
  · obtain ⟨rfl, -⟩ := hjudge
    cases w <;> rfl
  · cases w.observation a <;> rfl

/-- Everything one step can do, with what is noted of it. -/
inductive Moved (load : Load) (v : LoadRun) : LoadAct → Option LoadEvent → LoadRun → Prop
  | wait (d : ℕ) : Moved load v (.wait d) none { v with clock := v.clock + d }
  | interrupt : Moved load v .interrupt none { v with interrupted := true }
  | expire (due : load.assignment.stopAt * 1000000 ≤ v.clock) :
      Moved load v .expire none { v with expired := true }
  | paceTimer {ticker : Ticker} (fired : v.paceTicker.fire tickInterval v.clock = some ticker) :
      Moved load v .paceTimer none { v with paceTicker := ticker }
  | reportTimer {ticker : Ticker}
      (fired : v.reporter.ticker.fire load.metricsInterval v.clock = some ticker) :
      Moved load v .reportTimer none { v with reporter := { v.reporter with ticker } }
  | statusTimer {ticker : Ticker}
      (fired : v.watcher.ticker.fire statusInterval v.clock = some ticker) :
      Moved load v .statusTimer none { v with watcher := { v.watcher with ticker } }
  | pacerTick {rps : ℕ} {ticker : Ticker} {pacer : Pacer} (throttled : load.rps = some rps)
      (received : v.paceTicker.receive = some ticker)
      (ticked : v.pacer.step rps .tick = some pacer) :
      Moved load v .pacerTick none { v with pacer, paceTicker := ticker }
  | pacerSend {rps : ℕ} {pacer : Pacer} (throttled : load.rps = some rps)
      (sent : v.pacer.step rps .send = some pacer) :
      Moved load v .pacerSend none { v with pacer }
  | pacerDone {rps : ℕ} {pacer : Pacer} (throttled : load.rps = some rps)
      (ended : v.loadDone = true) (closed : v.pacer.step rps .done = some pacer) :
      Moved load v .pacerDone none { v with pacer }
  | take {i : ℕ} {pacer : Pacer} (ready : v.workers[i]? = some .ready)
      (through : v.throughSelect load = some pacer) :
      Moved load v (.take i) (some .begun) { v with pacer, workers := v.workers.set i .drawn }
  | leave {i : ℕ} (ready : v.workers[i]? = some .ready) (may : v.mayLeave load = true) :
      Moved load v (.leave i) none { v with workers := v.workers.set i .returned }
  | worker {i : ℕ} {a : WorkerAct} {w w' : Worker} {e : Option LoadEvent}
      (there : v.workers[i]? = some w) (moved : w.Moved v.clock v.loadDone a e w') :
      Moved load v (.worker i a) e
        { v with workers := v.workers.set i w', metrics := counted v.metrics e }
  | tick {now : ℤ} (stored : Bool) (waiting : v.reporter.phase = .waiting)
      (pending : v.reporter.ticker.pending = some now) :
      Moved load v (.tick stored) (some (.agent (.tick now stored)))
        { v with
          reporter :=
            { loop := ⟨v.metrics.snapshot, now, v.reporter.loop.tick + 1⟩
              ticker := { v.reporter.ticker with pending := none }
              phase := .calling }
          calls := v.calls ++ [.reportMetrics (v.report load now)] }
  | reported (calling : v.reporter.phase = .calling) :
      Moved load v .reported none { v with reporter := { v.reporter with phase := .waiting } }
  | stopReporting (waiting : v.reporter.phase = .waiting) (ended : v.runDone = true) :
      Moved load v .stopReporting none
        { v with reporter := { v.reporter with phase := .returned } }
  | ask {ticker : Ticker} (waiting : v.watcher.phase = .waiting)
      (received : v.watcher.ticker.receive = some ticker) :
      Moved load v .ask none
        { v with
          watcher := ⟨ticker, .calling⟩
          calls := v.calls ++ [.jobStatus load.assignment.jobId load.assignment.spawnId] }
  | stopped {status : Option String} (calling : v.watcher.phase = .calling)
      (ends : status.any endsLoad = true) :
      Moved load v (.told status) none
        { v with cancelled := true, watcher := { v.watcher with phase := .returned } }
  | goOn {status : Option String} (calling : v.watcher.phase = .calling)
      (goes : status.any endsLoad = false) :
      Moved load v (.told status) none { v with watcher := { v.watcher with phase := .waiting } }
  | stopWatching (waiting : v.watcher.phase = .waiting) (ended : v.runDone = true) :
      Moved load v .stopWatching none
        { v with watcher := { v.watcher with phase := .returned } }
  | runReturned (loading : v.stage = .loading) (returned : ∀ w ∈ v.workers, w = .returned) :
      Moved load v .runReturned none { v with cancelled := true, stage := .joining }
  | join (joining : v.stage = .joining) (reporter : v.reporter.phase = .returned)
      (watcher : v.watcher.phase = .returned) :
      Moved load v .join none
        { v with stage := .flushing, calls := v.calls ++ [.reportMetrics (v.flush load)] }
  | flushed (flushing : v.stage = .flushing) :
      Moved load v .flushed none
        { v with
          stage := .completing
          calls := v.calls ++
            [.reportComplete load.assignment.jobId load.assignment.spawnId ""] }
  | completed (completing : v.stage = .completing) :
      Moved load v .completed none { v with stage := .finished }

theorem moved {load : Load} {v v' : LoadRun} {a : LoadAct} (h : v.step load a = some v') :
    Moved load v a (v.event a) v' := by
  cases a with
  | wait d =>
    cases h
    exact .wait d
  | interrupt =>
    cases h
    exact .interrupt
  | expire =>
    simp only [step] at h
    split_ifs at h with hdue
    cases h
    exact .expire hdue
  | paceTimer =>
    obtain ⟨ticker, hfired, rfl⟩ := Option.map_eq_some_iff.mp h
    exact .paceTimer hfired
  | reportTimer =>
    obtain ⟨ticker, hfired, rfl⟩ := Option.map_eq_some_iff.mp h
    exact .reportTimer hfired
  | statusTimer =>
    obtain ⟨ticker, hfired, rfl⟩ := Option.map_eq_some_iff.mp h
    exact .statusTimer hfired
  | pacerTick =>
    obtain ⟨rps, hrps, h⟩ := Option.bind_eq_some_iff.mp h
    obtain ⟨ticker, hreceived, h⟩ := Option.bind_eq_some_iff.mp h
    obtain ⟨pacer, hticked, rfl⟩ := Option.map_eq_some_iff.mp h
    exact .pacerTick hrps hreceived hticked
  | pacerSend =>
    obtain ⟨rps, hrps, h⟩ := Option.bind_eq_some_iff.mp h
    obtain ⟨pacer, hsent, rfl⟩ := Option.map_eq_some_iff.mp h
    exact .pacerSend hrps hsent
  | pacerDone =>
    obtain ⟨rps, hrps, h⟩ := Option.bind_eq_some_iff.mp h
    split_ifs at h with hdone
    obtain ⟨pacer, hclosed, rfl⟩ := Option.map_eq_some_iff.mp h
    exact .pacerDone hrps hdone hclosed
  | take i =>
    simp only [step] at h
    split_ifs at h with hready
    obtain ⟨pacer, hthrough, rfl⟩ := Option.map_eq_some_iff.mp h
    exact .take hready hthrough
  | leave i =>
    simp only [step] at h
    split_ifs at h with hready
    cases h
    exact .leave hready.1 hready.2
  | worker i a =>
    obtain ⟨w, hw, h⟩ := Option.bind_eq_some_iff.mp h
    obtain ⟨w', hstep, rfl⟩ := Option.map_eq_some_iff.mp h
    have hmoved : Moved load v _ _ _ := .worker hw (Worker.moved hstep)
    rw [counted_event] at hmoved
    simpa [event, hw] using hmoved
  | tick stored =>
    simp only [step] at h
    split_ifs at h with hwaiting
    obtain ⟨now, hnow, rfl⟩ := Option.map_eq_some_iff.mp h
    have hmoved : Moved load v _ _ _ := .tick stored hwaiting hnow
    simpa [event, hnow] using hmoved
  | reported =>
    simp only [step] at h
    split_ifs at h with hcalling
    cases h
    exact .reported hcalling
  | stopReporting =>
    simp only [step] at h
    split_ifs at h with hstop
    cases h
    exact .stopReporting hstop.1 hstop.2
  | ask =>
    simp only [step] at h
    split_ifs at h with hwaiting
    obtain ⟨ticker, hreceived, rfl⟩ := Option.map_eq_some_iff.mp h
    exact .ask hwaiting hreceived
  | told status =>
    simp only [step] at h
    split_ifs at h with hcalling hends
    · cases h
      exact .stopped hcalling hends
    · cases h
      exact .goOn hcalling (by simpa using hends)
  | stopWatching =>
    simp only [step] at h
    split_ifs at h with hstop
    cases h
    exact .stopWatching hstop.1 hstop.2
  | runReturned =>
    simp only [step] at h
    split_ifs at h with hreturned
    cases h
    exact .runReturned hreturned.1 hreturned.2
  | join =>
    simp only [step] at h
    split_ifs at h with hjoin
    cases h
    exact .join hjoin.1 hjoin.2.1 hjoin.2.2
  | flushed =>
    simp only [step] at h
    split_ifs at h with hflushing
    cases h
    exact .flushed hflushing
  | completed =>
    simp only [step] at h
    split_ifs at h with hcompleting
    cases h
    exact .completed hcompleting

/-- A timed run from the start of load. -/
def Reached (load : Load) (acts : List LoadAct) (v : LoadRun) : Prop :=
  Run (step load) (fun _ _ => True) (start load) acts v

/-- What was noted along a run from `w`. -/
def noted (load : Load) (w : LoadRun) (acts : List LoadAct) : List LoadEvent :=
  log (step load) event acts w

end LoadRun

end R2Bench
