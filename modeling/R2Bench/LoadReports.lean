import R2Bench.LoadRun

/-!
# The calls of a timed run

Whatever the goroutines of `execute` do, what they send is what `AgentRun` says of the
sequence of their observations and ticks: the interval reports with status requests
between them, then the final flush, then the completion, each once.
-/
namespace R2Bench
open Machines Tickers

def LoadEvent.agent? : LoadEvent → Option AgentEvent
  | .agent e => some e
  | _ => none

def agentEvents (events : List LoadEvent) : List AgentEvent := events.filterMap LoadEvent.agent?

def ControlCall.report? : ControlCall → Option MetricsReport
  | .reportMetrics r => some r
  | _ => none

/-! ## The report loop, one event after another -/

/-- The variables of `reportLoop` after a sequence of events. -/
def ReportLoop.after : Metrics → ReportLoop → List AgentEvent → ReportLoop
  | _, l, [] => l
  | m, l, .observe o :: events => after (m.observe o) l events
  | m, l, .tick now _ :: events => after m ⟨m.snapshot, now, l.tick + 1⟩ events

section
variable (a : Assignment) (start : ℤ) (m : Metrics) (l : ReportLoop) (events : List AgentEvent)

theorem reportLoop_observe (o : Observation) :
    reportLoop a start m l (events ++ [.observe o]) = reportLoop a start m l events := by
  induction events generalizing m l with
  | nil => rfl
  | cons e events ih =>
    cases e with
    | observe o' => exact ih _ _
    | tick now stored => exact congrArg (List.cons _) (ih _ _)

theorem reportLoop_tick (now : ℤ) (stored : Bool) :
    reportLoop a start m l (events ++ [.tick now stored]) =
      reportLoop a start m l events ++
        reportLoop a start (m.observeAll (observations events)) (l.after m events)
          [.tick now stored] := by
  induction events generalizing m l with
  | nil => rfl
  | cons e events ih =>
    cases e with
    | observe o => exact ih _ _
    | tick now' stored' => exact congrArg (List.cons _) (ih _ _)

theorem after_observe (o : Observation) :
    l.after m (events ++ [.observe o]) = l.after m events := by
  induction events generalizing m l with
  | nil => rfl
  | cons e events ih => cases e <;> exact ih _ _

theorem after_tick (now : ℤ) (stored : Bool) :
    l.after m (events ++ [.tick now stored]) =
      ⟨(m.observeAll (observations events)).snapshot, now, (l.after m events).tick + 1⟩ := by
  induction events generalizing m l with
  | nil => rfl
  | cons e events ih => cases e <;> exact ih _ _

end

theorem observations_append (events events' : List AgentEvent) :
    observations (events ++ events') = observations events ++ observations events' :=
  List.filterMap_append

theorem observeAll_append (m : Metrics) (b b' : List Observation) :
    m.observeAll (b ++ b') = (m.observeAll b).observeAll b' := List.foldl_append

/-! ## Stages -/

namespace LoadRun

/-- What the stage of `execute` says about the goroutines it waits for. -/
structure Staged (v : LoadRun) : Prop where
  stopped : v.stage ≠ .loading → v.runDone = true ∧ ∀ w ∈ v.workers, w = .returned
  joined : v.stage ≠ .loading → v.stage ≠ .joining →
    v.reporter.phase = .returned ∧ v.watcher.phase = .returned

section
variable {load : Load} {v v' : LoadRun} {a : LoadAct} {e : Option LoadEvent} {acts : List LoadAct}

theorem start_staged (load : Load) : (start load).Staged :=
  ⟨fun h => absurd rfl h, fun h => absurd rfl h⟩

/-- A worker that can move has not returned, so load is still on. -/
theorem Staged.loading {i : ℕ} {w : Worker} (hv : v.Staged) (there : v.workers[i]? = some w)
    (hw : w ≠ .returned) : v.stage = .loading := by
  by_contra hstage
  exact hw ((hv.stopped hstage).2 w (List.mem_of_getElem? there))

/-- A report loop or status watch that has not returned is waited for. -/
theorem Staged.open (hv : v.Staged)
    (h : v.reporter.phase ≠ .returned ∨ v.watcher.phase ≠ .returned) :
    v.stage = .loading ∨ v.stage = .joining := by
  by_contra hclosed
  have hjoined := hv.joined (fun hs => hclosed (.inl hs)) (fun hs => hclosed (.inr hs))
  exact h.elim (fun hr => hr hjoined.1) fun hw => hw hjoined.2

theorem Staged.moved (hv : v.Staged) (h : Moved load v a e v') : v'.Staged := by
  cases h with
  | interrupt => exact ⟨fun hs => ⟨rfl, (hv.stopped hs).2⟩, hv.joined⟩
  | take ready _ =>
    have hloading := hv.loading ready (by simp)
    exact ⟨fun hs => absurd hloading hs, fun hs => absurd hloading hs⟩
  | leave ready _ =>
    have hloading := hv.loading ready (by simp)
    exact ⟨fun hs => absurd hloading hs, fun hs => absurd hloading hs⟩
  | worker there moved =>
    have hloading := hv.loading there moved.ne_returned
    exact ⟨fun hs => absurd hloading hs, fun hs => absurd hloading hs⟩
  | tick stored waiting _ =>
    have hopen := hv.open (.inl (by simp [waiting]))
    exact ⟨hv.stopped, fun hs hs' => (hopen.elim hs hs').elim⟩
  | reported calling =>
    have hopen := hv.open (.inl (by simp [calling]))
    exact ⟨hv.stopped, fun hs hs' => (hopen.elim hs hs').elim⟩
  | stopReporting _ _ => exact ⟨hv.stopped, fun hs hs' => ⟨rfl, (hv.joined hs hs').2⟩⟩
  | ask waiting _ =>
    have hopen := hv.open (.inr (by simp [waiting]))
    exact ⟨hv.stopped, fun hs hs' => (hopen.elim hs hs').elim⟩
  | stopped _ _ =>
    refine ⟨fun hs => ⟨?_, (hv.stopped hs).2⟩, fun hs hs' => ⟨(hv.joined hs hs').1, rfl⟩⟩
    simp [runDone]
  | goOn calling _ =>
    have hopen := hv.open (.inr (by simp [calling]))
    exact ⟨hv.stopped, fun hs hs' => (hopen.elim hs hs').elim⟩
  | stopWatching _ _ => exact ⟨hv.stopped, fun hs hs' => ⟨(hv.joined hs hs').1, rfl⟩⟩
  | runReturned _ returned =>
    exact ⟨fun _ => ⟨by simp [runDone], returned⟩, fun _ hs => absurd rfl hs⟩
  | join joining reporter watcher =>
    exact ⟨fun _ => hv.stopped (by simp [joining]), fun _ _ => ⟨reporter, watcher⟩⟩
  | flushed flushing =>
    exact ⟨fun _ => hv.stopped (by simp [flushing]),
      fun _ _ => hv.joined (by simp [flushing]) (by simp [flushing])⟩
  | completed completing =>
    exact ⟨fun _ => hv.stopped (by simp [completing]),
      fun _ _ => hv.joined (by simp [completing]) (by simp [completing])⟩
  | _ => exact ⟨hv.stopped, hv.joined⟩

theorem Reached.staged (h : Reached load acts v) : v.Staged :=
  h.invariant (start_staged load) fun _ _ _ _ hstep hu => hu.moved (LoadRun.moved hstep)

end

/-! ## Calls -/

/-- A timed run as its reports see it, from what is noted of it. -/
def agentRun (load : Load) (events : List LoadEvent) (finish : ℤ) : AgentRun :=
  ⟨load.assignment, load.start, agentEvents events, finish⟩

/-- What `execute` sends once its goroutines have returned. -/
def terminalCalls (run : AgentRun) : Stage → List ControlCall
  | .loading | .joining => []
  | .flushing => [.reportMetrics run.flush]
  | .completing | .finished =>
    [.reportMetrics run.flush,
      .reportComplete run.assignment.jobId run.assignment.spawnId ""]

/-- The interval reports in order, with status requests between them, and the terminal
calls after them. -/
def CallsOf (run : AgentRun) (stage : Stage) (calls : List ControlCall) : Prop :=
  ∃ before, calls = before ++ terminalCalls run stage ∧
    before.filterMap ControlCall.report? = run.intervalReports.map Prod.fst ∧
    ∀ c ∈ before, (∃ r, c = .reportMetrics r) ∨
      c = .jobStatus run.assignment.jobId run.assignment.spawnId

/-- The state of a timed run is that of the sequence of its observations and ticks. -/
structure Told (load : Load) (v : LoadRun) (events : List LoadEvent) : Prop where
  staged : v.Staged
  metrics : v.metrics = newMetrics.observeAll (observations (agentEvents events))
  loop : v.reporter.loop =
    ReportLoop.after newMetrics ⟨newMetrics.snapshot, load.start, 0⟩ (agentEvents events)
  begun : load.start ≤ v.clock
  calls : ∃ finish, load.start ≤ finish ∧ finish ≤ v.clock ∧
    CallsOf (agentRun load events finish) v.stage v.calls

section
variable {load : Load} {v v' : LoadRun} {a : LoadAct} {e : Option LoadEvent}
  {events : List LoadEvent} {acts : List LoadAct}

theorem start_told (load : Load) : Told load (start load) [] where
  staged := start_staged load
  metrics := rfl
  loop := rfl
  begun := le_rfl
  calls := ⟨load.start, le_rfl, le_rfl, [], rfl, rfl, by simp⟩

theorem agentEvents_append (events events' : List LoadEvent) :
    agentEvents (events ++ events') = agentEvents events ++ agentEvents events' :=
  List.filterMap_append

/-- What a worker notes is an observation, or nothing for the reports. -/
theorem counted_worker {now : ℤ} {done : Bool} {w w' : Worker} {b : WorkerAct}
    (h : w.Moved now done b e w') (m : Metrics) :
    (agentEvents e.toList = [] ∧ counted m e = m) ∨
      ∃ o, agentEvents e.toList = [.observe o] ∧ counted m e = m.observe o := by
  cases h <;> first | exact .inl ⟨rfl, rfl⟩ | exact .inr ⟨_, rfl, rfl⟩

/-- A step that reports do not show. -/
theorem Told.same (h : Told load v events) (staged : v'.Staged) (metrics : v'.metrics = v.metrics)
    (loop : v'.reporter.loop = v.reporter.loop) (clock : v'.clock = v.clock)
    (stage : v'.stage = v.stage) (calls : v'.calls = v.calls) {more : List LoadEvent}
    (hmore : agentEvents more = []) : Told load v' (events ++ more) := by
  have hevents : agentEvents (events ++ more) = agentEvents events := by
    rw [agentEvents_append, hmore, List.append_nil]
  refine ⟨staged, ?_, ?_, ?_, ?_⟩
  · rw [metrics, hevents]
    exact h.metrics
  · rw [loop, hevents]
    exact h.loop
  · rw [clock]
    exact h.begun
  · rw [clock, stage, calls]
    simpa only [agentRun, hevents] using h.calls

/-- While the goroutines are there nothing terminal has been sent. -/
theorem callsOf_open_iff {run : AgentRun} {stage : Stage} {calls : List ControlCall}
    (hopen : stage = .loading ∨ stage = .joining) : CallsOf run stage calls ↔
      calls.filterMap ControlCall.report? = run.intervalReports.map Prod.fst ∧
      ∀ c ∈ calls, (∃ r, c = .reportMetrics r) ∨
        c = .jobStatus run.assignment.jobId run.assignment.spawnId := by
  have hnone : terminalCalls run stage = [] := by rcases hopen with rfl | rfl <;> rfl
  unfold CallsOf
  rw [hnone]
  constructor
  · rintro ⟨before, rfl, hreports, hkinds⟩
    rw [List.append_nil]
    exact ⟨hreports, hkinds⟩
  · intro h
    exact ⟨calls, (List.append_nil calls).symm, h⟩

theorem Told.moved (h : Told load v events) (hm : Moved load v a e v') :
    Told load v' (events ++ e.toList) := by
  have hstaged := h.staged.moved hm
  obtain ⟨finish, hstart, hfinish, hcalls⟩ := h.calls
  cases hm with
  | wait d =>
    rw [Option.toList_none, List.append_nil]
    have hlater : v.clock ≤ v.clock + d := by omega
    exact ⟨hstaged, h.metrics, h.loop, h.begun.trans hlater, finish, hstart, hfinish.trans hlater,
      hcalls⟩
  | worker there moved =>
    have hloading := h.staged.loading there moved.ne_returned
    rcases counted_worker moved v.metrics with ⟨hnone, hsame⟩ | ⟨o, hone, hmore⟩
    · exact h.same hstaged hsame rfl rfl rfl rfl hnone
    · obtain ⟨hreports, hkinds⟩ := (callsOf_open_iff (.inl hloading)).mp hcalls
      refine ⟨hstaged, ?_, ?_, h.begun, finish, hstart, hfinish,
        (callsOf_open_iff (.inl hloading)).mpr ⟨?_, hkinds⟩⟩
      · rw [agentEvents_append, hone, observations_append, observeAll_append, ← h.metrics]
        exact hmore
      · rw [agentEvents_append, hone, after_observe]
        exact h.loop
      · simpa only [AgentRun.intervalReports, agentRun, agentEvents_append, hone,
          reportLoop_observe] using hreports
  | @tick now stored waiting pending =>
    have hopen := h.staged.open (.inl (by simp [waiting]))
    obtain ⟨hreports, hkinds⟩ := (callsOf_open_iff hopen).mp hcalls
    have hevents : agentEvents (events ++ [.agent (.tick now stored)]) =
        agentEvents events ++ [.tick now stored] := agentEvents_append _ _
    refine ⟨hstaged, ?_, ?_, h.begun, finish, hstart, hfinish,
      (callsOf_open_iff hopen).mpr ⟨?_, ?_⟩⟩
    · rw [Option.toList_some, hevents, observations_append]
      exact h.metrics.trans (congrArg newMetrics.observeAll (List.append_nil _).symm)
    · rw [Option.toList_some, hevents, after_tick, ← h.metrics, ← h.loop]
    · rw [List.filterMap_append, hreports]
      simp only [AgentRun.intervalReports, agentRun, Option.toList_some, hevents, reportLoop_tick,
        List.map_append, ← h.metrics, ← h.loop]
      rfl
    · intro c hc
      rcases List.mem_append.mp hc with hc | hc
      · exact hkinds c hc
      · exact .inl ⟨_, List.mem_singleton.mp hc⟩
  | ask waiting _ =>
    rw [Option.toList_none, List.append_nil]
    have hopen := h.staged.open (.inr (by simp [waiting]))
    obtain ⟨hreports, hkinds⟩ := (callsOf_open_iff hopen).mp hcalls
    refine ⟨hstaged, h.metrics, h.loop, h.begun, finish, hstart, hfinish,
      (callsOf_open_iff hopen).mpr ⟨?_, ?_⟩⟩
    · rw [List.filterMap_append, hreports]
      exact List.append_nil _
    · intro c hc
      rcases List.mem_append.mp hc with hc | hc
      · exact hkinds c hc
      · exact .inr (List.mem_singleton.mp hc)
  | runReturned loading _ =>
    rw [Option.toList_none, List.append_nil]
    rw [loading] at hcalls
    exact ⟨hstaged, h.metrics, h.loop, h.begun, finish, hstart, hfinish, hcalls⟩
  | join joining _ _ =>
    rw [Option.toList_none, List.append_nil]
    obtain ⟨hreports, hkinds⟩ := (callsOf_open_iff (.inr joining)).mp hcalls
    refine ⟨hstaged, h.metrics, h.loop, h.begun, v.clock, h.begun, le_rfl, v.calls, ?_, hreports,
      hkinds⟩
    simp only [terminalCalls, flush, AgentRun.flush, AgentRun.final, agentRun, h.metrics]
  | flushed flushing =>
    rw [Option.toList_none, List.append_nil]
    obtain ⟨before, hbefore, hreports, hkinds⟩ := hcalls
    refine ⟨hstaged, h.metrics, h.loop, h.begun, finish, hstart, hfinish, before, ?_, hreports,
      hkinds⟩
    simp only [hbefore, flushing, terminalCalls, List.append_assoc]
    rfl
  | completed completing =>
    rw [Option.toList_none, List.append_nil]
    rw [completing] at hcalls
    exact ⟨hstaged, h.metrics, h.loop, h.begun, finish, hstart, hfinish, hcalls⟩
  | take _ _ => exact h.same hstaged rfl rfl rfl rfl rfl rfl
  | _ => exact h.same hstaged rfl rfl rfl rfl rfl rfl

theorem Reached.told (h : Reached load acts v) :
    Told load v (noted load (start load) acts) :=
  h.invariant_log event (start_told load) fun _ _ _ _ _ hstep hu => hu.moved (LoadRun.moved hstep)

/-- Whatever the goroutines do, the calls so far are those of one sequence of observations and
ticks, up to the stage that `execute` has come to; and nothing is observed after the flush. -/
theorem execute_calls (h : Reached load acts v) : ∃ run : AgentRun,
    run.assignment = load.assignment ∧ run.start = load.start ∧
    run.events = agentEvents (noted load (start load) acts) ∧
    run.start ≤ run.finish ∧ run.finish ≤ v.clock ∧
    CallsOf run v.stage v.calls ∧ run.final = v.metrics.snapshot ∧
    (v.stage ≠ .loading → ∀ w ∈ v.workers, w = .returned) := by
  have htold := h.told
  obtain ⟨finish, hstart, hfinish, hcalls⟩ := htold.calls
  refine ⟨agentRun load _ finish, rfl, rfl, rfl, hstart, hfinish, hcalls, ?_,
    fun hs => (htold.staged.stopped hs).2⟩
  simp only [AgentRun.final, agentRun, htold.metrics]

end

/-- One worker at 200 requests a second, for a minute, reporting every ten seconds. -/
def sampleLoad : Load :=
  { assignment := ⟨"j", "s", 200, 1, 60000, false⟩
    maxWorkers := 4
    metricsInterval := 10000000000
    start := 0
    maxWorkers_nonneg := by omega
    interval_pos := by omega }

/-- One request, one interval report, and a stop that the status watch is told of. -/
def stoppedRun : List LoadAct :=
  [.wait 5000000, .paceTimer, .pacerTick, .pacerSend, .take 0, .worker 0 .request,
    .worker 0 (.gotConn true), .worker 0 .wroteRequest, .wait 2000000,
    .worker 0 .gotFirstResponseByte, .worker 0 (.succeed 100 200), .worker 0 .observe,
    .worker 0 .observe, .wait 10000000000, .reportTimer, .tick true, .statusTimer, .ask,
    .told (some "STOPPING"), .reported, .leave 0, .stopReporting, .runReturned, .join, .flushed,
    .completed]

theorem stoppedRun_reached : ∃ v, Reached sampleLoad stoppedRun v ∧ v.stage = .finished ∧
    v.calls.length = 4 ∧ v.clock = 10007000000 := by
  have hreplay : (replay (step sampleLoad) stoppedRun (start sampleLoad)).any
      (fun v => v.stage = .finished ∧ v.calls.length = 4 ∧ v.clock = 10007000000) = true := by
    decide +kernel
  obtain ⟨v, run, hv⟩ := exists_run_of_replay _ _ _ _ hreplay
  exact ⟨v, run, of_decide_eq_true hv⟩

theorem execute_calls_stoppedRun : ∃ v, Reached sampleLoad stoppedRun v ∧ v.calls.length = 4 ∧
    ∃ run : AgentRun, run.start = 0 ∧ CallsOf run .finished v.calls := by
  obtain ⟨v, run, hstage, hlength, -⟩ := stoppedRun_reached
  obtain ⟨agentRun, -, hstart, -, -, -, hcalls, -⟩ := execute_calls run
  rw [hstage] at hcalls
  exact ⟨v, run, hlength, agentRun, hstart, hcalls⟩

end LoadRun

end R2Bench
