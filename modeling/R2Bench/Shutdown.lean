import R2Bench.OfferedLoad

/-!
# The end of a timed run

Load ends for a cause. From then on a worker begins one request more at the most and
observes no error for it, the workers stop after a bounded number of steps, and
`execute` can always come to its completion report.
-/
namespace R2Bench
open Machines Tickers

/-- Only the end of its context closes the channel. -/
theorem Pacer.closed_step {rps : ℕ} {p q : Pacer} {a : PacerAct} (h : p.step rps a = some q)
    (ha : a ≠ .done) : q.closed = p.closed := by
  cases a with
  | done => exact absurd rfl ha
  | _ =>
    simp only [step] at h
    split_ifs at h <;> cases h <;> rfl

namespace LoadRun

/-! ## Why load ends -/

/-- The agent was interrupted, the stop time has come, or the control plane has said so. -/
def Cause (load : Load) (v : LoadRun) (acts : List LoadAct) : Prop :=
  v.interrupted = true ∨ load.assignment.stopAt * 1000000 ≤ v.clock ∨
    ∃ status, endsLoad status = true ∧ .told (some status) ∈ acts

/-- Whatever has ended has a cause; `runReturned` cancels only afterwards. -/
structure Caused (load : Load) (v : LoadRun) (acts : List LoadAct) : Prop where
  staged : v.Staged
  due : v.expired = true → load.assignment.stopAt * 1000000 ≤ v.clock
  told : v.stage = .loading → v.cancelled = true →
    ∃ status, endsLoad status = true ∧ .told (some status) ∈ acts
  closed : v.stage = .loading → v.pacer.closed = true → Cause load v acts
  left : v.stage = .loading → (∃ w ∈ v.workers, w = .returned) → Cause load v acts
  ended : v.stage ≠ .loading → v.workers ≠ [] → Cause load v acts

section
variable {load : Load} {u v v' : LoadRun} {a : LoadAct} {e : Option LoadEvent}
  {acts window : List LoadAct}

theorem Cause.moved (hv : Cause load v acts) (h : Moved load v a e v') :
    Cause load v' (acts ++ [a]) := by
  rcases hv with hint | hdue | ⟨status, hends, htold⟩
  · left
    cases h with
    | _ => first | exact hint | rfl
  · right
    left
    cases h with
    | wait d =>
      have hlater : v.clock ≤ v.clock + d := by omega
      exact hdue.trans hlater
    | _ => exact hdue
  · exact .inr (.inr ⟨status, hends, List.mem_append_left _ htold⟩)

theorem Caused.cause (hv : Caused load v acts) (hstage : v.stage = .loading)
    (hdone : v.loadDone = true) : Cause load v acts := by
  simp only [loadDone, runDone, Bool.or_eq_true] at hdone
  rcases hdone with (hint | hcancelled) | hexpired
  · exact .inl hint
  · exact .inr (.inr (hv.told hstage hcancelled))
  · exact .inr (.inl (hv.due hexpired))

theorem start_caused (load : Load) : Caused load (start load) [] where
  staged := start_staged load
  due h := by simp [start] at h
  told _ h := by simp [start] at h
  closed _ h := by simp [start, Pacer.start] at h
  left _ h := by
    obtain ⟨w, hw, hreturned⟩ := h
    have hready := (List.mem_replicate.mp hw).2
    rw [hready] at hreturned
    cases hreturned
  ended h := absurd rfl h

/-- A step that ends nothing. -/
theorem Caused.same (h : Caused load v acts) (hm : Moved load v a e v')
    (expired : v'.expired = v.expired) (cancelled : v'.cancelled = v.cancelled)
    (closed : v'.pacer.closed = v.pacer.closed) (workers : v'.workers = v.workers)
    (stage : v'.stage = v.stage) (clock : v.clock ≤ v'.clock) : Caused load v' (acts ++ [a]) where
  staged := h.staged.moved hm
  due hexpired := (h.due (expired ▸ hexpired)).trans clock
  told hs hc := by
    obtain ⟨status, hends, htold⟩ := h.told (stage ▸ hs) (cancelled ▸ hc)
    exact ⟨status, hends, List.mem_append_left _ htold⟩
  closed hs hc := (h.closed (stage ▸ hs) (closed ▸ hc)).moved hm
  left hs hw := (h.left (stage ▸ hs) (workers ▸ hw)).moved hm
  ended hs hw := (h.ended (stage ▸ hs) (workers ▸ hw)).moved hm

/-- A worker in the loop moves; it returns for a cause only. -/
theorem Caused.set (h : Caused load v acts) (hm : Moved load v a e v') {i : ℕ} {w' : Worker}
    (loading : v.stage = .loading) (workers : v'.workers = v.workers.set i w')
    (left : w' = .returned → Cause load v acts) (expired : v'.expired = v.expired)
    (cancelled : v'.cancelled = v.cancelled) (closed : v'.pacer.closed = v.pacer.closed)
    (stage : v'.stage = v.stage) (clock : v'.clock = v.clock) : Caused load v' (acts ++ [a]) where
  staged := h.staged.moved hm
  due hexpired := clock ▸ h.due (expired ▸ hexpired)
  told _ hc := by
    obtain ⟨status, hends, htold⟩ := h.told loading (cancelled ▸ hc)
    exact ⟨status, hends, List.mem_append_left _ htold⟩
  closed _ hc := (h.closed loading (closed ▸ hc)).moved hm
  left _ hw := by
    obtain ⟨w, hw, hreturned⟩ := hw
    rw [workers] at hw
    rcases List.mem_or_eq_of_mem_set hw with hold | hnew
    · exact (h.left loading ⟨w, hold, hreturned⟩).moved hm
    · exact (left (hnew ▸ hreturned)).moved hm
  ended hs _ := absurd (stage.trans loading) hs

/-- Once `Run` has returned only the end of load is to be accounted for. -/
theorem Caused.over (h : Caused load v acts) (hm : Moved load v a e v')
    (expired : v'.expired = v.expired ∧ v'.clock = v.clock) (stage : v'.stage ≠ .loading)
    (ended : v'.workers ≠ [] → Cause load v' (acts ++ [a])) : Caused load v' (acts ++ [a]) where
  staged := h.staged.moved hm
  due hexpired := expired.2 ▸ h.due (expired.1 ▸ hexpired)
  told hs := absurd hs stage
  closed hs := absurd hs stage
  left hs := absurd hs stage
  ended _ := ended

theorem Caused.moved (h : Caused load v acts) (hm : Moved load v a e v') :
    Caused load v' (acts ++ [a]) := by
  have hstaged := h.staged.moved hm
  have hsame := hm
  cases hsame with
  | wait d => exact h.same hm rfl rfl rfl rfl rfl (by simp)
  | expire due =>
    refine ⟨hstaged, fun _ => due, fun hs hc => ?_, fun hs hc => (h.closed hs hc).moved hm,
      fun hs hw => (h.left hs hw).moved hm, fun hs hw => (h.ended hs hw).moved hm⟩
    obtain ⟨status, hends, htold⟩ := h.told hs hc
    exact ⟨status, hends, List.mem_append_left _ htold⟩
  | pacerTick _ _ ticked =>
    exact h.same hm rfl rfl (Pacer.closed_step ticked (by simp)) rfl rfl le_rfl
  | pacerSend _ sent => exact h.same hm rfl rfl (Pacer.closed_step sent (by simp)) rfl rfl le_rfl
  | pacerDone _ ended _ =>
    refine ⟨hstaged, h.due, fun hs hc => ?_, fun hs _ => (h.cause hs ended).moved hm,
      fun hs hw => (h.left hs hw).moved hm, fun hs hw => (h.ended hs hw).moved hm⟩
    obtain ⟨status, hends, htold⟩ := h.told hs hc
    exact ⟨status, hends, List.mem_append_left _ htold⟩
  | @take i pacer ready through =>
    have hclosed : pacer.closed = v.pacer.closed := by
      unfold throughSelect at through
      split at through
      · exact Pacer.closed_step through (by simp)
      · split_ifs at through
        rw [Option.some.inj through]
    exact h.set hm (h.staged.loading ready (by simp)) rfl (by simp) rfl rfl hclosed rfl rfl
  | leave ready may =>
    have hloading := h.staged.loading ready (by simp)
    refine h.set hm hloading rfl (fun _ => ?_) rfl rfl rfl rfl rfl
    simp only [mayLeave, Bool.or_eq_true, Bool.and_eq_true] at may
    rcases may with hdone | ⟨⟨-, hclosed⟩, -⟩
    · exact h.cause hloading hdone
    · exact h.closed hloading hclosed
  | worker there moved =>
    have hloading := h.staged.loading there moved.ne_returned
    refine h.set hm hloading rfl (fun hreturned => ?_) rfl rfl rfl rfl rfl
    cases moved with
    | abandon _ _ ended => exact h.cause hloading ended
    | _ => cases hreturned
  | @stopped status _ ends =>
    obtain ⟨text, rfl, hends⟩ := (Option.any_eq_true _ _).mp ends
    exact ⟨hstaged, h.due, fun _ _ => ⟨text, hends, by simp⟩,
      fun hs hc => (h.closed hs hc).moved hm, fun hs hw => (h.left hs hw).moved hm,
      fun hs hw => (h.ended hs hw).moved hm⟩
  | runReturned loading returned =>
    refine h.over hm ⟨rfl, rfl⟩ (by simp) fun hne => ?_
    obtain ⟨w, hw⟩ := List.exists_mem_of_ne_nil _ hne
    exact (h.left loading ⟨w, hw, returned w hw⟩).moved hm
  | join joining _ _ =>
    exact h.over hm ⟨rfl, rfl⟩ (by simp) fun hne => (h.ended (by simp [joining]) hne).moved hm
  | flushed flushing =>
    exact h.over hm ⟨rfl, rfl⟩ (by simp) fun hne => (h.ended (by simp [flushing]) hne).moved hm
  | completed completing =>
    exact h.over hm ⟨rfl, rfl⟩ (by simp) fun hne => (h.ended (by simp [completing]) hne).moved hm
  | _ => exact h.same hm rfl rfl rfl rfl rfl le_rfl

theorem Reached.caused (h : Reached load acts v) : Caused load v acts := by
  induction h with
  | start => exact start_caused load
  | next _ _ moved ih => exact ih.moved (LoadRun.moved moved)

/-- With a worker there at all, `Run` returns for a cause only. -/
theorem load_ends_for_cause (h : Reached load acts v) (hpos : 0 < load.maxWorkers)
    (hstage : v.stage ≠ .loading) : Cause load v acts := by
  have hworkers : 0 < load.plan.workers := by
    simp only [Load.plan, Runner.run]
    split_ifs <;> omega
  refine h.caused.ended hstage fun hnone => ?_
  have hlength := h.length_workers
  rw [hnone, List.length_nil] at hlength
  omega

/-! ## What workers do after that -/

theorem loadDone_moved (h : Moved load v a e v') (hdone : v.loadDone = true) :
    v'.loadDone = true := by
  cases h with
  | _ => first | exact hdone | simp [loadDone, runDone]

end

end LoadRun

namespace Worker

/-- Requests that a worker may still begin once load is done. -/
def mayBegin : Worker → ℕ
  | ready | answered _ _ | counting _ _ | erring _ _ => 1
  | fetching f => if f.late then 0 else 1
  | _ => 0

/-- Requests that it may still record. -/
def mayRecord : Worker → ℕ
  | answered _ _ | counting _ _ | erring _ _ => 1
  | fetching f => if f.late then 0 else 1
  | _ => 0

def isErring : Worker → Bool
  | erring _ _ => true
  | _ => false

/-- Steps of its own that a worker has left once load is done, trace hooks apart. -/
def rank : Worker → ℕ
  | fetching f => if f.late then 3 else 8
  | answered _ _ => 7
  | counting _ _ | erring _ _ => 6
  | ready => 5
  | drawn => 4
  | failed _ _ => 2
  | returned => 0

theorem rank_le (w : Worker) : w.rank ≤ 8 := by
  cases w with
  | fetching f =>
    simp only [rank]
    split_ifs <;> simp
  | _ => simp [rank]

theorem mayBegin_le (w : Worker) : w.mayBegin ≤ 1 := by
  cases w with
  | fetching f =>
    simp only [mayBegin]
    split_ifs <;> simp
  | _ => simp [mayBegin]

theorem mayRecord_le (w : Worker) : w.mayRecord ≤ w.busy.toNat := by
  cases w with
  | fetching f =>
    simp only [mayRecord]
    split_ifs <;> simp [busy]
  | _ => simp [mayRecord, busy]

end Worker

def LoadEvent.isError : LoadEvent → Bool
  | .agent (.observe (.error _ _)) => true
  | _ => false

namespace LoadAct

/-- The worker whose goroutine takes the step. -/
def worker? : LoadAct → Option ℕ
  | take i | leave i | worker i _ => some i
  | _ => none

/-- A step of a worker that is not a trace hook. -/
def advances : LoadAct → Bool
  | worker _ (.gotConn _) | worker _ .wroteRequest | worker _ .gotFirstResponseByte => false
  | a => a.worker?.isSome

end LoadAct

namespace Worker

/-- A step of one worker once load is done: at the select, or its own. -/
inductive Stepped (now : ℤ) : Worker → LoadAct → Option LoadEvent → Worker → Prop
  | take (i : ℕ) : Stepped now ready (.take i) (some .begun) drawn
  | leave (i : ℕ) : Stepped now ready (.leave i) none returned
  | own (i : ℕ) {b : WorkerAct} {e : Option LoadEvent} {w w' : Worker}
      (moved : w.Moved now true b e w') : Stepped now w (.worker i b) e w'

section
variable {now : ℤ} {w w' : Worker} {a : LoadAct} {e : Option LoadEvent}

theorem mayBegin_paid (h : w.Stepped now a e w') :
    w'.mayBegin + e.toList.countP (fun e => e == LoadEvent.begun) ≤ w.mayBegin := by
  cases h with
  | take i | leave i => simp [mayBegin]
  | own i moved =>
    cases moved with
    | success got => rcases got with rfl | rfl <;> simp [mayBegin]
    | hook _ _ late => simp [mayBegin, late]
    | _ => simp_all [mayBegin]

theorem mayRecord_paid (h : w.Stepped now a e w') :
    w'.mayRecord + e.toList.countP LoadEvent.recorded ≤ w.mayRecord := by
  cases h with
  | take i | leave i => simp [mayRecord, LoadEvent.recorded]
  | own i moved =>
    cases moved with
    | success got =>
      rcases got with rfl | rfl <;> simp [mayRecord, LoadEvent.recorded, Observation.ends]
    | hook _ _ late => simp [mayRecord, late]
    | _ => simp_all [mayRecord, LoadEvent.recorded, Observation.ends]

theorem isErring_paid (h : w.Stepped now a e w') :
    w'.isErring.toNat + e.toList.countP LoadEvent.isError ≤ w.isErring.toNat := by
  cases h with
  | take i | leave i => simp [isErring, LoadEvent.isError]
  | own i moved =>
    cases moved with
    | success got => rcases got with rfl | rfl <;> simp [isErring, LoadEvent.isError]
    | _ => simp_all [isErring, LoadEvent.isError]

theorem rank_paid (h : w.Stepped now a e w') : w'.rank + a.advances.toNat ≤ w.rank := by
  cases h with
  | take i | leave i => simp [rank, LoadAct.advances, LoadAct.worker?]
  | own i moved =>
    cases moved with
    | success got =>
      rcases got with rfl | rfl <;> simp [rank, LoadAct.advances, LoadAct.worker?]
    | hook hook _ late => rcases hook with rfl | rfl <;> simp [rank, late, LoadAct.advances]
    | fail f timeout =>
      simp only [rank, LoadAct.advances, LoadAct.worker?]
      split_ifs <;> simp
    | _ => simp_all [rank, LoadAct.advances, LoadAct.worker?]

end

end Worker

namespace LoadRun

section
variable {load : Load} {u v v' : LoadRun} {a : LoadAct} {e : Option LoadEvent}
  {acts window : List LoadAct} {i : ℕ}

/-- A step is one of a single worker, or leaves the workers alone. -/
theorem stepped (h : Moved load v a e v') (hdone : v.loadDone = true) :
    (∃ i w w', a.worker? = some i ∧ v.workers[i]? = some w ∧ v'.workers = v.workers.set i w' ∧
      w.Stepped v.clock a e w') ∨ a.worker? = none ∧ v'.workers = v.workers := by
  cases h with
  | @take i _ ready _ => exact .inl ⟨i, _, _, rfl, ready, rfl, .take i⟩
  | @leave i ready _ => exact .inl ⟨i, _, _, rfl, ready, rfl, .leave i⟩
  | @worker i _ _ _ _ there moved =>
    rw [hdone] at moved
    exact .inl ⟨i, _, _, rfl, there, rfl, .own i moved⟩
  | _ => exact .inr ⟨rfl, rfl⟩

/-- A measure of one worker. -/
def measured (f : Worker → ℕ) (i : ℕ) (v : LoadRun) : ℕ := v.workers[i]?.elim 0 f

/-- What every step of a worker pays for is paid by the worker that takes it. -/
theorem measured_paid {f : Worker → ℕ} (cost : LoadAct → Option LoadEvent → ℕ)
    (paid : ∀ now w a e w', Worker.Stepped now w a e w' → f w' + cost a e ≤ f w)
    (h : Moved load v a e v') (hdone : v.loadDone = true) (i : ℕ) :
    v'.measured f i + (if a.worker? = some i then cost a e else 0) ≤ v.measured f i := by
  obtain ⟨j, w, w', hj, there, hset, hstep⟩ | ⟨hnone, hsame⟩ := stepped h hdone
  · rw [hj, measured, measured, hset]
    by_cases hi : j = i
    · subst hi
      have hlt : j < v.workers.length := (List.getElem?_eq_some_iff.mp there).1
      rw [if_pos rfl, List.getElem?_set_self hlt, there]
      exact paid _ _ _ _ _ hstep
    · rw [if_neg (by simpa using hi), List.getElem?_set_ne hi]
      exact le_rfl
  · rw [hnone, if_neg (by simp), measured, measured, hsame]
    exact le_rfl

/-- What is noted of the steps of one worker. -/
def notedOf (load : Load) (i : ℕ) (w : LoadRun) (acts : List LoadAct) : List LoadEvent :=
  log (step load) (fun v a => if a.worker? = some i then v.event a else none) acts w

/-- A worker's events of a kind that a measure of it pays for. -/
theorem countP_notedOf_le {C : LoadRun → LoadAct → Prop} (run : Run (step load) C u window v)
    (hdone : u.loadDone = true) {f : Worker → ℕ} {p : LoadEvent → Bool}
    (paid : ∀ now w a e w', Worker.Stepped now w a e w' → f w' + e.toList.countP p ≤ f w)
    {w : Worker} (there : u.workers[i]? = some w) : (notedOf load i u window).countP p ≤ f w := by
  have hpaid := run.countP_log_le (measured f i)
    (fun v a => if a.worker? = some i then v.event a else none) p hdone
    fun v a v' _ hv hstep => ⟨loadDone_moved (moved hstep) hv, by
      have hone := measured_paid (fun _ e => e.toList.countP p) paid (moved hstep) hv i
      split_ifs at hone ⊢
      · exact hone
      · simpa using hone⟩
  have hstart : u.measured f i = f w := by rw [measured, there]; rfl
  have hnoted : (notedOf load i u window).countP p ≤ u.measured f i :=
    (Nat.le_add_left _ _).trans hpaid
  exact hnoted.trans hstart.le

/-- Once load is done every worker begins one more request at most, and none where no pacer
feeds it; it records only the request that it had in flight, observes an error only where
it had judged it before, and is through after eight steps. -/
theorem shutdown_bounded {C : LoadRun → LoadAct → Prop} (run : Run (step load) C u window v)
    (hdone : u.loadDone = true) {w : Worker} (there : u.workers[i]? = some w) :
    (notedOf load i u window).count .begun ≤ 1 ∧
    (load.rps = none → (notedOf load i u window).count .begun = 0) ∧
    (notedOf load i u window).countP LoadEvent.recorded ≤ w.busy.toNat ∧
    (notedOf load i u window).countP LoadEvent.isError ≤ w.isErring.toNat ∧
    (window.countP fun a => a.advances ∧ a.worker? = some i) ≤ 8 := by
  refine ⟨?_, fun hnone => ?_, ?_, ?_, ?_⟩
  · exact (countP_notedOf_le run hdone (fun _ _ _ _ _ h => Worker.mayBegin_paid h) there).trans
      w.mayBegin_le
  · -- without a pacer the select lets nobody through any more
    have hfree := run.countP_log_le (fun _ => 0)
      (fun v a => if a.worker? = some i then v.event a else none)
      (fun e => e == LoadEvent.begun) hdone fun v a v' _ hv hstep =>
      ⟨loadDone_moved (moved hstep) hv, by
        have hnot : v.event a ≠ some .begun := by
          intro he
          obtain ⟨j, rfl⟩ := (begun_iff (moved hstep)).mp he
          simp [step, throughSelect, hnone, hv] at hstep
        split_ifs
        · cases he : v.event a <;> simp_all
        · simp⟩
    rw [Nat.zero_add] at hfree
    exact Nat.le_zero.mp hfree
  · exact (countP_notedOf_le run hdone (fun _ _ _ _ _ h => Worker.mayRecord_paid h) there).trans
      w.mayRecord_le
  · exact countP_notedOf_le run hdone (f := fun w => w.isErring.toNat)
      (fun _ _ _ _ _ h => Worker.isErring_paid h) there
  · have hpaid := run.countP_log_le (measured Worker.rank i) (fun _ a => some a)
      (fun a => a.advances ∧ a.worker? = some i) hdone fun v a v' _ hv hstep =>
      ⟨loadDone_moved (moved hstep) hv, by
        have hone := measured_paid (fun a _ => a.advances.toNat)
          (fun _ _ _ _ _ h => Worker.rank_paid h) (moved hstep) hv i
        by_cases hi : a.worker? = some i <;> cases hadvances : a.advances <;> simp_all⟩
    rw [run.log_self] at hpaid
    have hstart : u.measured Worker.rank i = w.rank := by rw [measured, there]; rfl
    have hrank := w.rank_le
    omega

/-- The steps that all workers have left. -/
def total (f : Worker → ℕ) (v : LoadRun) : ℕ := (v.workers.map f).sum

theorem rank_moved (h : Moved load v a e v') (hdone : v.loadDone = true) :
    v'.total Worker.rank + a.advances.toNat ≤ v.total Worker.rank := by
  obtain ⟨i, w, w', -, there, hset, hstep⟩ | ⟨hnone, hsame⟩ := stepped h hdone
  · have hsum := sum_map_set Worker.rank w' there
    have hpaid := Worker.rank_paid hstep
    rw [total, total, hset]
    omega
  · have hrests : a.advances = false := by
      cases a <;> simp_all [LoadAct.advances, LoadAct.worker?]
    rw [hrests, total, total, hsame]
    exact le_rfl

theorem total_le (f : Worker → ℕ) (n : ℕ) (hf : ∀ w, f w ≤ n) (v : LoadRun) :
    v.total f ≤ n * v.workers.length := by
  have hsum := List.sum_le_card_nsmul (v.workers.map f) n fun m hm => by
    obtain ⟨w, -, rfl⟩ := List.mem_map.mp hm
    exact hf w
  rw [List.length_map, smul_eq_mul, mul_comm] at hsum
  exact hsum

end

end LoadRun

/-! ## The way to the completion report -/

def CallPhase.rank : CallPhase → ℕ
  | waiting => 1
  | calling => 2
  | returned => 0

def Stage.rank : Stage → ℕ
  | loading => 4
  | joining => 3
  | flushing => 2
  | completing => 1
  | finished => 0

namespace LoadRun

/-- What is left to do once load is done. -/
def remaining (v : LoadRun) : ℕ :=
  v.total Worker.rank + v.reporter.phase.rank + v.watcher.phase.rank + v.stage.rank

section
variable {load : Load} {u v v' : LoadRun} {acts : List LoadAct}

/-- A worker that has not returned can go on. -/
theorem exists_advance (load : Load) {i : ℕ} {w : Worker} (there : v.workers[i]? = some w)
    (hw : w ≠ .returned) (hdone : v.loadDone = true) : ∃ a v', v.step load a = some v' ∧
      a.advances = true ∧ v'.reporter = v.reporter ∧ v'.watcher = v.watcher ∧
      v'.stage = v.stage := by
  have hstep : ∀ b w', w.step v.clock v.loadDone b = some w' →
      (LoadAct.worker i b).advances = true → ∃ a v', v.step load a = some v' ∧
        a.advances = true ∧ v'.reporter = v.reporter ∧ v'.watcher = v.watcher ∧
        v'.stage = v.stage := by
    intro b w' hb hadvances
    have hmoves : v.step load (.worker i b) = some
        { v with
          workers := v.workers.set i w'
          metrics := (w.observation b).elim v.metrics v.metrics.observe } := by
      simp only [step, there, Option.bind_some, hb, Option.map_some]
    exact ⟨_, _, hmoves, hadvances, rfl, rfl, rfl⟩
  cases w with
  | ready =>
    have hmoves : v.step load (.leave i) =
        some { v with workers := v.workers.set i .returned } := by
      simp [step, there, mayLeave, hdone]
    exact ⟨_, _, hmoves, rfl, rfl, rfl, rfl⟩
  | drawn => exact hstep .request _ rfl rfl
  | fetching f => exact hstep (.fail false) _ rfl rfl
  | answered elapsed n => exact hstep .observe _ rfl rfl
  | counting elapsed n => exact hstep .observe _ rfl rfl
  | failed elapsed timeout => exact hstep .judge _ rfl rfl
  | erring elapsed timeout => exact hstep .observe _ rfl rfl
  | returned => exact absurd rfl hw

/-- Until `execute` has finished some step leaves less to do. -/
theorem exists_step_remaining (load : Load) (hv : v.Staged) (hdone : v.loadDone = true)
    (hstage : v.stage ≠ .finished) :
    ∃ a v', v.step load a = some v' ∧ v'.remaining < v.remaining := by
  by_cases hworkers : ∀ w ∈ v.workers, w = .returned
  · cases hs : v.stage with
    | loading =>
      refine ⟨.runReturned, _, by simp only [step, hs, true_and]; exact if_pos hworkers, ?_⟩
      simp [remaining, total, hs, Stage.rank]
    | joining =>
      have hrun := (hv.stopped (by simp [hs])).1
      cases hr : v.reporter.phase with
      | waiting =>
        refine ⟨.stopReporting, _, by simp only [step, hr, hrun]; rfl, ?_⟩
        simp [remaining, total, hr, CallPhase.rank]
      | calling =>
        refine ⟨.reported, _, by simp only [step, hr]; rfl, ?_⟩
        simp [remaining, total, hr, CallPhase.rank]
      | returned =>
        cases hw : v.watcher.phase with
        | waiting =>
          refine ⟨.stopWatching, _, by simp only [step, hw, hrun]; rfl, ?_⟩
          simp [remaining, total, hw, CallPhase.rank]
        | calling =>
          refine ⟨.told none, _, by simp only [step, hw]; rfl, ?_⟩
          simp [remaining, total, hw, CallPhase.rank]
        | returned =>
          refine ⟨.join, _, by simp only [step, hs, hr, hw]; rfl, ?_⟩
          simp [remaining, total, hs, Stage.rank]
    | flushing =>
      refine ⟨.flushed, _, by simp only [step, hs]; rfl, ?_⟩
      simp [remaining, total, hs, Stage.rank]
    | completing =>
      refine ⟨.completed, _, by simp only [step, hs]; rfl, ?_⟩
      simp [remaining, total, hs, Stage.rank]
    | finished => exact absurd hs hstage
  · obtain ⟨w, hw, hne⟩ := by simpa using hworkers
    obtain ⟨i, hi⟩ := List.mem_iff_getElem?.mp hw
    obtain ⟨a, v', hstep, hadvances, hreporter, hwatcher, hstage'⟩ :=
      exists_advance load hi hne hdone
    have hrank := rank_moved (moved hstep) hdone
    rw [hadvances, Bool.toNat_true] at hrank
    refine ⟨a, v', hstep, ?_⟩
    simp only [remaining, hreporter, hwatcher, hstage']
    omega

/-- Once load is done a bounded number of steps leads to the end. -/
theorem exists_run_finished (load : Load) (hu : u.Staged) (hdone : u.loadDone = true) :
    ∃ closing v, Run (step load) (fun _ _ => True) u closing v ∧ v.stage = .finished ∧
      closing.length ≤ 8 * u.workers.length + 8 := by
  obtain ⟨closing, v, run, hfinished, hlength⟩ : ∃ closing v,
      Run (step load) (fun _ _ => True) u closing v ∧ v.stage = .finished ∧
        closing.length ≤ u.remaining := exists_run_of_measure
    (I := fun u => u.Staged ∧ u.loadDone = true) remaining
    (fun w hw hgoal => by
      obtain ⟨a, w', hstep, hless⟩ := exists_step_remaining load hw.1 hw.2 hgoal
      have hmoved := moved hstep
      exact ⟨a, w', trivial, hstep, ⟨hw.1.moved hmoved, loadDone_moved hmoved hw.2⟩, hless⟩)
    ⟨hu, hdone⟩
  have height := total_le Worker.rank 8 Worker.rank_le u
  have hphase : ∀ phase : CallPhase, phase.rank ≤ 2 := by
    intro phase
    cases phase <;> simp [CallPhase.rank]
  have hreporter := hphase u.reporter.phase
  have hwatcher := hphase u.watcher.phase
  have hstage : u.stage.rank ≤ 4 := by cases u.stage <;> simp [Stage.rank]
  unfold remaining at hlength
  exact ⟨closing, v, run, hfinished, by omega⟩

/-- From every state of a run `execute` can come to its end, in a bounded number of steps
after the stop time, and its last call is then the completion report. -/
theorem execute_can_finish (h : Reached load acts u) :
    ∃ closing v, Run (step load) (fun _ _ => True) u closing v ∧ v.stage = .finished ∧
      closing.length ≤ 8 * load.plan.workers.toNat + 10 ∧ v.calls.getLast? =
        some (.reportComplete load.assignment.jobId load.assignment.spawnId "") := by
  obtain ⟨d, hd⟩ := Int.eq_ofNat_of_zero_le
    (sub_nonneg.mpr (le_max_left u.clock (load.assignment.stopAt * 1000000)))
  have hwait : u.step load (.wait d) = some { u with clock := u.clock + d } := rfl
  have hdue : load.assignment.stopAt * 1000000 ≤ u.clock + d := by omega
  have hexpire : step load { u with clock := u.clock + d } .expire =
      some { u with clock := u.clock + d, expired := true } := if_pos hdue
  have hend : Run (step load) (fun _ _ => True) u [.wait d, .expire]
      { u with clock := u.clock + d, expired := true } :=
    (Run.start.next trivial hwait).next trivial hexpire
  have hreached := h.append hend
  obtain ⟨closing, v, run, hfinished, hlength⟩ := exists_run_finished load
    (Reached.staged hreached) (by simp [loadDone])
  have hworkers := Reached.length_workers h
  have hwhole := hend.append run
  obtain ⟨finish, -, -, before, hcalls, -⟩ := (Reached.told (h.append hwhole)).calls
  refine ⟨_, v, hwhole, hfinished, ?_, ?_⟩
  · rw [List.length_append, List.length_cons, List.length_singleton]
    simp only [hworkers] at hlength
    omega
  · rw [hcalls, hfinished]
    simp [terminalCalls, agentRun]

end

theorem load_ends_for_cause_stoppedRun : ∃ v, Reached sampleLoad stoppedRun v ∧
    Cause sampleLoad v stoppedRun := by
  obtain ⟨v, run, hstage, -⟩ := stoppedRun_reached
  exact ⟨v, run, load_ends_for_cause run (by decide) (by simp [hstage])⟩

/-- Interrupted with a token in the channel: one worker is at the select, another is about
to observe an error. -/
def withToken : LoadRun :=
  { start sampleLoad with
    interrupted := true
    pacer := { Pacer.start with queued := 1 }
    workers := [.ready, .erring 7 false] }

/-- The first worker takes the token and gives its request up, the second returns. -/
def lastToken : List LoadAct :=
  [.take 0, .worker 1 .observe, .worker 0 .request, .leave 1, .worker 0 (.fail false),
    .worker 0 .judge]

theorem shutdown_bounded_lastToken :
    (notedOf sampleLoad 0 withToken lastToken).count .begun = 1 ∧
    (notedOf sampleLoad 0 withToken lastToken).countP LoadEvent.isError ≤ 0 ∧
    (notedOf sampleLoad 1 withToken lastToken).countP LoadEvent.recorded ≤ 1 ∧
    (lastToken.countP fun a => a.advances ∧ a.worker? = some 0) ≤ 8 := by
  have hreplay : (replay (step sampleLoad) lastToken withToken).any (fun _ => true) = true := by
    decide +kernel
  obtain ⟨v, run, -⟩ := exists_run_of_replay _ _ _ _ hreplay
  obtain ⟨-, -, -, herrors, hadvances⟩ := shutdown_bounded (i := 0) run rfl rfl
  obtain ⟨-, -, hrecorded, -⟩ := shutdown_bounded (i := 1) run rfl rfl
  exact ⟨by decide +kernel, herrors, hrecorded, hadvances⟩

/-- The first request is on its way. -/
def inFlightRun : List LoadAct := stoppedRun.take 8

/-- From there the run can still come to its end. -/
theorem execute_can_finish_inFlight : ∃ u closing v, Reached sampleLoad inFlightRun u ∧
    u.inFlight = 1 ∧ Run (step sampleLoad) (fun _ _ => True) u closing v ∧
      v.stage = .finished ∧ closing.length ≤ 18 := by
  have hreplay : (replay (step sampleLoad) inFlightRun (start sampleLoad)).any
      (fun u => u.inFlight = 1) = true := by
    decide +kernel
  obtain ⟨u, run, hu⟩ := exists_run_of_replay _ _ _ _ hreplay
  obtain ⟨closing, v, rest, hfinished, hlength, -⟩ := execute_can_finish run
  exact ⟨u, closing, v, run, of_decide_eq_true hu, rest, hfinished, hlength⟩

end LoadRun

end R2Bench
