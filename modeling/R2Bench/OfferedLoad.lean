import R2Bench.LoadReports

/-!
# Offered load

A timed run accounts for every request that a worker begins, and a throttled run
begins no more of them than its target allows: exactly from the start of load, and
up to a burst in any stretch of it.
-/
namespace R2Bench
open Machines Tickers

/-- The observation that ends a request. -/
def Observation.ends : Observation → Bool
  | .success _ _ _ | .error _ _ => true
  | _ => false

def LoadEvent.recorded : LoadEvent → Bool
  | .agent (.observe o) => o.ends
  | _ => false

theorem countP_recorded (events : List LoadEvent) :
    events.countP LoadEvent.recorded =
      (observations (agentEvents events)).countP Observation.ends := by
  induction events with
  | nil => rfl
  | cons e events ih =>
    rcases e with _ | (o | ⟨now, stored⟩) | _
    · rw [List.countP_cons_of_neg (by simp [LoadEvent.recorded]), ih]
      rfl
    · have hone : observations (agentEvents (.agent (.observe o) :: events)) =
          o :: observations (agentEvents events) := rfl
      rw [hone, List.countP_cons, List.countP_cons, ih]
      rfl
    · rw [List.countP_cons_of_neg (by simp [LoadEvent.recorded]), ih]
      rfl
    · rw [List.countP_cons_of_neg (by simp [LoadEvent.recorded]), ih]
      rfl

/-- Successes and errors together count the requests that were ended. -/
theorem observeAll_requests (m : Metrics) (b : List Observation) :
    (m.observeAll b).count + (m.observeAll b).errors =
      m.count + m.errors + UInt64.ofNat (b.countP Observation.ends) := by
  induction b generalizing m with
  | nil => simp [Metrics.observeAll]
  | cons o b ih =>
    have hone : (m.observe o).count + (m.observe o).errors =
        m.count + m.errors + if o.ends then 1 else 0 := by
      cases o with
      | wire micros => simp [Metrics.observe, Metrics.observeWire, Observation.ends]
      | conn reused =>
        cases reused <;> simp [Metrics.observe, Metrics.observeConn, Observation.ends]
      | success latency n status =>
        simp only [Metrics.observe, Metrics.observeSuccess, Observation.ends]
        split_ifs <;> simp only <;> ac_rfl
      | error latency timeout =>
        simp only [Metrics.observe, Metrics.observeError, Observation.ends]
        split_ifs <;> simp only <;> ac_rfl
    have hstep : m.observeAll (o :: b) = (m.observe o).observeAll b := rfl
    rw [hstep, ih, hone, List.countP_cons, UInt64.ofNat_add]
    cases o.ends with
    | false => simp
    | true =>
      simp only [if_true]
      ac_rfl

namespace Pacer
variable {rps : ℕ} {p q : Pacer} {C : Pacer → PacerAct → Prop} {acts : List PacerAct}

/-- What a stretch of a run sends was in hand or is brought in by its ticks. -/
theorem sent_le (hp : p.Sound rps) (run : Run (step rps) C p acts q) :
    ((log (step rps) (event rps) acts p).count .sent : ℚ) ≤
      income rps (log (step rps) (event rps) acts p) + p.emitting + p.credit := by
  have hinv := run.invariant_log (event rps)
    (I := fun u noted => u.Sound rps ∧ u.given noted - income rps noted ≤ p.emitting + p.credit)
    ⟨hp, by simp [given, income]⟩ fun u noted a u' _ hstep h => by
      have hmoved := moved hstep h.1.credit_nonneg
      exact ⟨h.1.moved hmoved, (given_moved h.1 hmoved noted).1.trans h.2⟩
  obtain ⟨hq, hgiven⟩ := hinv
  have hcredit := hq.credit_nonneg
  have hemitting : (0 : ℚ) ≤ q.emitting := Nat.cast_nonneg _
  rw [given] at hgiven
  linarith

theorem inHand_moved {a : PacerAct} {e : Option PacerEvent} (hp : p.Sound rps)
    (h : Moved rps p a e q) (hlt : (p.emitting : ℚ) + p.credit < perTick rps + 1) :
    (q.emitting : ℚ) + q.credit < perTick rps + 1 := by
  have hrate := perTick_nonneg rps
  have hcredit := hp.credit_nonneg
  have hone := hp.credit_lt_one
  cases h with
  | tick _ =>
    have hsum := floor_add_fract (add_nonneg hcredit hrate)
    simp only
    linarith
  | sent _ _ =>
    have hcast : ((p.emitting - 1 : ℕ) : ℚ) ≤ p.emitting := Nat.cast_le.mpr (Nat.sub_le _ _)
    simp only
    linarith
  | dropped _ _ =>
    simp only [Nat.cast_zero]
    linarith
  | received _ => exact hlt
  | done => exact hlt

/-- What is in hand is less than a tick brings in, and one token. -/
theorem inHand_lt (run : Run (step rps) C start acts p) :
    (p.emitting : ℚ) + p.credit < perTick rps + 1 := by
  have hinit : ((start.emitting : ℚ) + start.credit) < perTick rps + 1 := by
    have hrate := perTick_nonneg rps
    simp only [start, Nat.cast_zero]
    linarith
  have hinv := run.invariant
    (I := fun p => p.Sound rps ∧ (p.emitting : ℚ) + p.credit < perTick rps + 1)
    ⟨start_sound rps, hinit⟩ fun u a u' _ hstep hu => by
      have hmoved := moved hstep hu.1.credit_nonneg
      exact ⟨hu.1.moved hmoved, inHand_moved hu.1 hmoved hu.2⟩
  exact hinv.2

/-- A pacer has never given out more than its ticks have brought in. -/
theorem received_le_income (run : Run (step rps) C start acts p) :
    ((log (step rps) (event rps) acts start).count .received : ℚ) ≤
      income rps (log (step rps) (event rps) acts start) := by
  have hsent := sent_le (start_sound rps) run
  have hqueued := run.invariant_log (event rps)
    (I := fun u noted => u.Sound rps ∧ u.queued + noted.count .received = noted.count .sent)
    ⟨start_sound rps, rfl⟩ fun u noted a u' _ hstep h => by
      have hmoved := moved hstep h.1.credit_nonneg
      have hstep' := queued_moved hmoved noted
      exact ⟨h.1.moved hmoved, by omega⟩
  have hle : ((log (step rps) (event rps) acts start).count .received : ℚ) ≤
      (log (step rps) (event rps) acts start).count .sent := Nat.cast_le.mpr (by omega)
  simp only [start, Nat.cast_zero, add_zero] at hsent hle ⊢
  exact hle.trans hsent

end Pacer

namespace LoadRun

/-- Workers with a request in hand. -/
def inFlight (v : LoadRun) : ℕ := (v.workers.map fun w => w.busy.toNat).sum

/-- Workers that have returned. -/
def gone (v : LoadRun) : ℕ := (v.workers.map fun w => (decide (w = .returned)).toNat).sum

section
variable {load : Load} {u v v' : LoadRun} {a : LoadAct} {e : Option LoadEvent}
  {acts window : List LoadAct}

/-! ## Every request is accounted for -/

theorem inFlight_moved (h : Moved load v a e v') :
    v'.inFlight + e.toList.countP LoadEvent.recorded + e.toList.count .abandoned =
      v.inFlight + e.toList.count .begun := by
  unfold inFlight
  cases h with
  | take ready _ =>
    have hset := sum_map_set (fun w : Worker => w.busy.toNat) .drawn ready
    simp [Worker.busy, LoadEvent.recorded] at hset ⊢
    omega
  | leave ready _ =>
    have hset := sum_map_set (fun w : Worker => w.busy.toNat) .returned ready
    simp [Worker.busy] at hset ⊢
    omega
  | @worker i b w w' e there moved =>
    have hset := sum_map_set (fun w : Worker => w.busy.toNat) w' there
    cases moved with
    | success got =>
      rcases got with rfl | rfl <;>
        simp [Worker.busy, LoadEvent.recorded, Observation.ends] at hset ⊢ <;> omega
    | _ =>
      simp [Worker.busy, LoadEvent.recorded, Observation.ends] at hset ⊢
      omega
  | _ => simp [LoadEvent.recorded]

theorem gone_moved (h : Moved load v a e v') :
    v.gone + e.toList.count .abandoned ≤ v'.gone ∧ v'.workers.length = v.workers.length := by
  unfold gone
  cases h with
  | take ready _ =>
    have hset := sum_map_set (fun w : Worker => (decide (w = .returned)).toNat) .drawn ready
    simp at hset ⊢
    omega
  | leave ready _ =>
    have hset := sum_map_set (fun w : Worker => (decide (w = .returned)).toNat) .returned ready
    simp at hset ⊢
    omega
  | @worker i b w w' e there moved =>
    have hset := sum_map_set (fun w : Worker => (decide (w = .returned)).toNat) w' there
    cases moved with
    | success got =>
      rcases got with rfl | rfl <;> simp at hset ⊢ <;> omega
    | _ =>
      simp at hset ⊢
      omega
  | _ => simp

theorem inFlight_add_gone_le (v : LoadRun) : v.inFlight + v.gone ≤ v.workers.length := by
  unfold inFlight gone
  induction v.workers with
  | nil => simp
  | cons w workers ih =>
    have hone : w.busy.toNat + (decide (w = .returned)).toNat ≤ 1 := by
      cases w <;> simp [Worker.busy]
    simp only [List.map_cons, List.sum_cons, List.length_cons]
    omega

theorem Reached.length_workers (h : Reached load acts v) :
    v.workers.length = load.plan.workers.toNat :=
  h.invariant (I := fun u => u.workers.length = load.plan.workers.toNat) (by simp [LoadRun.start])
    fun _ _ _ _ hstep hu => (gone_moved (LoadRun.moved hstep)).2.trans hu

/-- Every request begun has been counted once, was given up as its worker returned, or is
still in flight; with the workers returned none is. -/
theorem requests_conserved (h : Reached load acts v) :
    (noted load (start load) acts).count .begun =
      (noted load (start load) acts).countP LoadEvent.recorded +
        (noted load (start load) acts).count .abandoned + v.inFlight ∧
    (noted load (start load) acts).count .abandoned + v.inFlight ≤ load.plan.workers.toNat ∧
    v.metrics.count + v.metrics.errors =
      UInt64.ofNat ((noted load (start load) acts).countP LoadEvent.recorded) ∧
    (v.stage ≠ .loading → v.inFlight = 0) := by
  have htold := h.told
  have hcount := h.invariant_log event
    (I := fun u noted => noted.count .begun =
        noted.countP LoadEvent.recorded + noted.count .abandoned + u.inFlight ∧
      noted.count .abandoned ≤ u.gone)
    ⟨by simp [inFlight, LoadRun.start, Worker.busy], Nat.zero_le _⟩
    fun u noted b u' _ hstep hu => by
      have hmoved := LoadRun.moved hstep
      have hflight := inFlight_moved hmoved
      have hgone := gone_moved hmoved
      simp only [List.count_append, List.countP_append]
      omega
  obtain ⟨hbegun, habandoned⟩ := hcount
  have hle := v.inFlight_add_gone_le
  rw [h.length_workers] at hle
  refine ⟨hbegun, by unfold noted; omega, ?_, fun hstage => ?_⟩
  · have hzero : newMetrics.count + newMetrics.errors = 0 := rfl
    rw [htold.metrics, observeAll_requests, countP_recorded, hzero, UInt64.zero_add]
  · have hreturned := (htold.staged.stopped hstage).2
    unfold inFlight
    rw [List.sum_eq_zero_iff]
    intro n hn
    obtain ⟨w, hw, rfl⟩ := List.mem_map.mp hn
    rw [hreturned w hw]
    rfl

/-! ## The pacer and its ticker inside the run -/

/-- What a step is for the clock and the pacer's ticker. -/
def paceAct : LoadRun → LoadAct → Option Tickers.Act
  | _, .wait d => some (.wait d)
  | _, .paceTimer => some .fire
  | _, .pacerTick => some .receive
  | _, _ => none

/-- What a step is for the pacer. -/
def pacerAct : LoadRun → LoadAct → Option PacerAct
  | _, .pacerTick => some .tick
  | _, .pacerSend => some .send
  | _, .pacerDone => some .done
  | _, .take _ => some .receive
  | _, _ => none

def paceView (v : LoadRun) : Timed := ⟨v.clock, v.paceTicker⟩

theorem paceView_moves (h : Moved load v a e v') (b : Tickers.Act)
    (hb : v.paceAct a = some b) : Tickers.step tickInterval v.paceView b = some v'.paceView := by
  cases h with
  | wait d =>
    cases hb
    rfl
  | paceTimer fired =>
    cases hb
    exact Option.map_eq_some_iff.mpr ⟨_, fired, rfl⟩
  | pacerTick _ received _ =>
    cases hb
    exact Option.map_eq_some_iff.mpr ⟨_, received, rfl⟩
  | _ => cases hb

theorem paceView_rests (h : Moved load v a e v') (hb : v.paceAct a = none) :
    v'.paceView = v.paceView := by
  cases h with
  | wait d => cases hb
  | paceTimer fired => cases hb
  | pacerTick _ received _ => cases hb
  | _ => rfl

theorem pacer_moves {rps : ℕ} (hrps : load.rps = some rps) (h : Moved load v a e v')
    (b : PacerAct) (hb : v.pacerAct a = some b) : v.pacer.step rps b = some v'.pacer := by
  cases h with
  | pacerTick throttled _ ticked =>
    cases hb
    obtain rfl := Option.some.inj (throttled.symm.trans hrps)
    exact ticked
  | pacerSend throttled sent =>
    cases hb
    obtain rfl := Option.some.inj (throttled.symm.trans hrps)
    exact sent
  | pacerDone throttled _ closed =>
    cases hb
    obtain rfl := Option.some.inj (throttled.symm.trans hrps)
    exact closed
  | take _ through =>
    cases hb
    simpa only [throughSelect, hrps] using through
  | _ => cases hb

theorem pacer_rests (h : Moved load v a e v') (hb : v.pacerAct a = none) :
    v'.pacer = v.pacer := by
  cases h with
  | pacerTick _ _ _ => cases hb
  | pacerSend _ _ => cases hb
  | pacerDone _ _ _ => cases hb
  | take _ _ => cases hb
  | _ => rfl

/-- The pacer's own actions in a stretch of a run. -/
def pacerActs (load : Load) (w : LoadRun) (acts : List LoadAct) : List PacerAct :=
  log (step load) pacerAct acts w

theorem pacer_run {C : LoadRun → LoadAct → Prop} {rps : ℕ} (hrps : load.rps = some rps)
    (run : Run (step load) C u window v) :
    Run (Pacer.step rps) (fun _ _ => True) u.pacer (pacerActs load u window) v.pacer :=
  run.project LoadRun.pacer (fun _ _ _ _ h b hb => ⟨trivial, pacer_moves hrps (moved h) b hb⟩)
    fun _ _ _ h => pacer_rests (moved h)

/-- What is noted of the pacer. -/
def pacerEvents (load : Load) (rps : ℕ) (w : LoadRun) (acts : List LoadAct) : List PacerEvent :=
  log (Pacer.step rps) (Pacer.event rps) (pacerActs load w acts) w.pacer

theorem pacerEvents_eq {C : LoadRun → LoadAct → Prop} {rps : ℕ} (hrps : load.rps = some rps)
    (run : Run (step load) C u window v) : pacerEvents load rps u window =
      log (step load) (fun w b => (w.pacerAct b).bind (w.pacer.event rps)) window u :=
  run.log_project LoadRun.pacer (fun _ _ _ _ h => pacer_moves hrps (moved h))
    fun _ _ _ h => pacer_rests (moved h)

theorem begun_iff (h : Moved load v a e v') : e = some .begun ↔ ∃ i, a = .take i := by
  cases h with
  | worker _ moved => cases moved <;> simp
  | _ => simp

/-- The requests begun are the tokens received. -/
theorem count_begun {C : LoadRun → LoadAct → Prop} {rps : ℕ} (hrps : load.rps = some rps)
    (run : Run (step load) C u window v) : (noted load u window).count .begun =
      (pacerEvents load rps u window).count .received := by
  rw [pacerEvents_eq hrps run]
  refine run.count_log_eq fun w b w' hstep => ?_
  rw [begun_iff (moved hstep)]
  cases b with
  | pacerSend =>
    simp only [pacerAct, Option.bind_some, Pacer.event]
    split_ifs <;> simp
  | _ => simp [pacerAct, Pacer.event]

/-- The ticks of the pacer are the instants received from its ticker. -/
theorem count_ticked {C : LoadRun → LoadAct → Prop} {rps : ℕ} (hrps : load.rps = some rps)
    (run : Run (step load) C u window v) : (pacerEvents load rps u window).count .ticked =
      (log (step load) paceAct window u).count .receive := by
  rw [pacerEvents_eq hrps run]
  refine run.count_log_eq fun w b w' _ => ?_
  cases b with
  | pacerSend =>
    simp only [pacerAct, Option.bind_some, Pacer.event, paceAct]
    split_ifs <;> simp
  | _ => simp [pacerAct, Pacer.event, paceAct]

theorem pace_run {C : LoadRun → LoadAct → Prop} (run : Run (step load) C u window v) :
    Run (Tickers.step tickInterval) (fun _ _ => True) u.paceView (log (step load) paceAct window u)
      v.paceView :=
  run.project paceView (fun _ _ _ _ h b hb => ⟨trivial, paceView_moves (moved h) b hb⟩)
    fun _ _ _ h => paceView_rests (moved h)

/-! ## Rates -/

/-- So many ticks in so much time bring in the target of that time. -/
theorem income_le (rps : ℕ) {events : List PacerEvent} {d more : ℤ}
    (h : (events.count .ticked : ℤ) ≤ d / tickInterval + more) :
    Pacer.income rps events ≤ rps * (seconds d + more * (5 / 1000)) := by
  have hdiv : d / tickInterval * tickInterval ≤ d := Int.ediv_mul_le d (by decide)
  have hticks : (events.count .ticked : ℤ) * 5000000 ≤ d + more * 5000000 := by
    unfold tickInterval at h hdiv
    omega
  have hticks' : (events.count .ticked : ℚ) * 5000000 ≤ d + more * 5000000 := by
    exact_mod_cast hticks
  have hrate : (0 : ℚ) ≤ rps := Nat.cast_nonneg _
  have hscaled : (events.count .ticked : ℚ) / 200 ≤ seconds d + more * (5 / 1000) := by
    unfold seconds
    linarith
  rw [Pacer.income_eq, mul_comm, mul_div_assoc]
  exact mul_le_mul_of_nonneg_left hscaled hrate

/-- From the start of load on the requests begun never exceed the target. -/
theorem begun_le_target {rps : ℕ} (hrps : load.rps = some rps) (h : Reached load acts v) :
    ((noted load (start load) acts).count .begun : ℚ) ≤
      rps * seconds (v.clock - load.start) := by
  have hticks : ((pacerEvents load rps (start load) acts).count .ticked : ℤ) ≤
      (v.clock - load.start) / tickInterval + 0 := by
    rw [count_ticked hrps h, add_zero]
    exact received_of_new (by decide) (pace_run h)
  have hincome := income_le rps hticks
  rw [Int.cast_zero, zero_mul, add_zero] at hincome
  rw [count_begun hrps h]
  exact (Pacer.received_le_income (pacer_run hrps h)).trans hincome

/-- In any stretch of a run they exceed it by what the channel holds and 20 ms of tokens at
the most. -/
theorem begun_lt_window {rps : ℕ} (hrps : load.rps = some rps) (h : Reached load acts u)
    (run : Run (step load) (fun _ _ => True) u window v) :
    ((noted load u window).count .begun : ℚ) <
      rps * (seconds (v.clock - u.clock) + 20 / 1000) + Pacer.capacity rps + 1 := by
  have hdue := (due_of_run (by decide) (by simp [Ticker.new, LoadRun.start, paceView])
    (pace_run h)).2.1
  have hticks : ((pacerEvents load rps u window).count .ticked : ℤ) ≤
      (v.clock - u.clock) / tickInterval + 3 := by
    rw [count_ticked hrps run]
    exact window_received (by decide) hdue (pace_run run)
  have hincome := income_le rps hticks
  have hbefore := pacer_run hrps h
  have hsound := Pacer.sound_of_run hbefore
  have hsent := Pacer.sent_le hsound (pacer_run hrps run)
  have hreceived : ((pacerEvents load rps u window).count .received : ℚ) ≤
      (pacerEvents load rps u window).count .sent + Pacer.capacity rps := by
    exact_mod_cast Pacer.window_received hsound (pacer_run hrps run)
  have hinHand := Pacer.inHand_lt hbefore
  have hrate : Pacer.perTick rps = rps * (5 / 1000) := by
    rw [Pacer.perTick, Pacer.ticksPerSecond_eq]
    ring
  rw [hrate] at hinHand
  rw [count_begun hrps run]
  unfold pacerEvents at hincome hreceived ⊢
  push_cast at hincome
  linarith

/-- A throttled run never gets ahead of its target, nor makes up for a stall: it has begun no
more requests than are due since the start of load, and in any stretch no more than are due
and a burst. -/
theorem offered_load_bounded {rps : ℕ} (hrps : load.rps = some rps) (h : Reached load acts u) :
    ((noted load (start load) acts).count .begun : ℚ) ≤ rps * seconds (u.clock - load.start) ∧
    ∀ window v, Run (step load) (fun _ _ => True) u window v →
      ((noted load u window).count .begun : ℚ) <
        rps * (seconds (v.clock - u.clock) + 20 / 1000) + Pacer.capacity rps + 1 :=
  ⟨begun_le_target hrps h, fun _ _ run => begun_lt_window hrps h run⟩

end

theorem stoppedRun_begun : (noted sampleLoad (start sampleLoad) stoppedRun).count .begun = 1 := by
  decide +kernel

theorem requests_conserved_stoppedRun : ∃ v, Reached sampleLoad stoppedRun v ∧ v.inFlight = 0 ∧
    1 = (noted sampleLoad (start sampleLoad) stoppedRun).countP LoadEvent.recorded +
      (noted sampleLoad (start sampleLoad) stoppedRun).count .abandoned := by
  obtain ⟨v, run, hstage, -⟩ := stoppedRun_reached
  obtain ⟨hbegun, -, -, hflight⟩ := requests_conserved run
  have hnone := hflight (by simp [hstage])
  rw [hnone, Nat.add_zero, stoppedRun_begun] at hbegun
  exact ⟨v, run, hnone, hbegun⟩

theorem offered_load_bounded_stoppedRun :
    ((1 : ℕ) : ℚ) ≤ (200 : ℕ) * seconds (10007000000 - 0) := by
  obtain ⟨v, run, -, -, hclock⟩ := stoppedRun_reached
  have hrps : sampleLoad.rps = some 200 := rfl
  have hoffered := (offered_load_bounded hrps run).1
  rwa [stoppedRun_begun, hclock] at hoffered

end LoadRun

end R2Bench
