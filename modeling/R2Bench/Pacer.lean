import R2Bench.Machines

/-!
# The pacer

`startPacer` gives out tokens at a fixed rate over a bounded channel. Each tick adds
to a credit and sends its whole part; the rest is carried over. Consumers may take
tokens at any time. Credit is exact here, where the program has a `float64`.
-/
namespace R2Bench
open Machines

/-- The pacer's goroutine and its channel; `emitting` is what the current tick has
still to send. -/
structure Pacer where
  credit : ℚ
  queued : ℕ
  emitting : ℕ
  closed : Bool
  deriving DecidableEq

inductive PacerAct
  | tick
  | send
  | receive
  | done
  deriving DecidableEq

inductive PacerEvent
  | ticked
  | sent
  | dropped
  | received
  deriving DecidableEq

namespace Pacer

/-- A second over the five milliseconds of a tick. -/
def ticksPerSecond : ℚ := 1000000000 / 5000000

def perTick (rps : ℕ) : ℚ := rps / ticksPerSecond

/-- About 20 ms of tokens, and one at least. -/
def capacity (rps : ℕ) : ℕ :=
  let capacity := ⌊perTick rps * 4⌋₊
  if capacity < 1 then 1 else capacity

def start : Pacer := ⟨0, 0, 0, false⟩

/-- Where the channel is full the rest of the tick is dropped, and the credit with it. -/
def step (rps : ℕ) (p : Pacer) : PacerAct → Option Pacer
  | .tick =>
    if p.closed ∨ p.emitting ≠ 0 then none
    else
      let credit := p.credit + perTick rps
      let emit := ⌊credit⌋₊
      some { p with credit := credit - emit, emitting := emit }
  | .send =>
    if p.emitting = 0 then none
    else if p.queued < capacity rps then
      some { p with queued := p.queued + 1, emitting := p.emitting - 1 }
    else some { p with credit := 0, emitting := 0 }
  | .receive => if p.queued = 0 then none else some { p with queued := p.queued - 1 }
  | .done => if p.closed ∨ p.emitting ≠ 0 then none else some { p with closed := true }

def event (rps : ℕ) (p : Pacer) : PacerAct → Option PacerEvent
  | .tick => some .ticked
  | .send => some (if p.queued < capacity rps then .sent else .dropped)
  | .receive => some .received
  | .done => none

/-- Everything one step of the pacer can do, with what is seen of it. -/
inductive Moved (rps : ℕ) (p : Pacer) : PacerAct → Option PacerEvent → Pacer → Prop
  | tick (idle : p.emitting = 0) : Moved rps p .tick (some .ticked)
      { p with
        credit := Int.fract (p.credit + perTick rps)
        emitting := ⌊p.credit + perTick rps⌋₊ }
  | sent (busy : p.emitting ≠ 0) (room : p.queued < capacity rps) : Moved rps p .send (some .sent)
      { p with queued := p.queued + 1, emitting := p.emitting - 1 }
  | dropped (busy : p.emitting ≠ 0) (full : capacity rps ≤ p.queued) :
      Moved rps p .send (some .dropped) { p with credit := 0, emitting := 0 }
  | received (some_queued : p.queued ≠ 0) : Moved rps p .receive (some .received)
      { p with queued := p.queued - 1 }
  | done : Moved rps p .done none { p with closed := true }

section
variable {rps : ℕ} {p q : Pacer} {a : PacerAct} {e : Option PacerEvent}

theorem ticksPerSecond_eq : ticksPerSecond = 200 := by norm_num [ticksPerSecond]

theorem perTick_nonneg (rps : ℕ) : 0 ≤ perTick rps := by
  rw [perTick, ticksPerSecond_eq]
  positivity

theorem moved (h : p.step rps a = some q) (hcredit : 0 ≤ p.credit) :
    Moved rps p a (p.event rps a) q := by
  cases a with
  | tick =>
    simp only [step] at h
    split_ifs at h with hidle
    cases h
    have hsum : 0 ≤ p.credit + perTick rps := add_nonneg hcredit (perTick_nonneg rps)
    have hfract : p.credit + perTick rps - (⌊p.credit + perTick rps⌋₊ : ℚ) =
        Int.fract (p.credit + perTick rps) := by
      rw [Int.fract, ← natCast_floor_eq_intCast_floor hsum]
    rw [hfract]
    exact .tick (by tauto)
  | send =>
    simp only [step] at h
    split_ifs at h with hidle hroom
    · cases h
      simp only [event, if_pos hroom]
      exact .sent hidle hroom
    · cases h
      simp only [event, if_neg hroom]
      exact .dropped hidle (not_lt.mp hroom)
  | receive =>
    simp only [step] at h
    split_ifs at h with hempty
    cases h
    exact .received hempty
  | done =>
    simp only [step] at h
    split_ifs at h
    cases h
    exact .done

/-! ## What every step keeps -/

/-- Less than a token is carried over, and the channel is never over-full. -/
structure Sound (rps : ℕ) (p : Pacer) : Prop where
  credit_nonneg : 0 ≤ p.credit
  credit_lt_one : p.credit < 1
  queued_le : p.queued ≤ capacity rps

theorem start_sound (rps : ℕ) : start.Sound rps where
  credit_nonneg := le_rfl
  credit_lt_one := zero_lt_one
  queued_le := Nat.zero_le _

theorem Sound.moved (hp : p.Sound rps) (h : Moved rps p a e q) : q.Sound rps := by
  cases h with
  | tick _ => exact ⟨Int.fract_nonneg _, Int.fract_lt_one _, hp.queued_le⟩
  | sent _ room => exact ⟨hp.credit_nonneg, hp.credit_lt_one, room⟩
  | dropped _ _ => exact ⟨le_rfl, zero_lt_one, hp.queued_le⟩
  | received _ => exact ⟨hp.credit_nonneg, hp.credit_lt_one, (Nat.sub_le _ _).trans hp.queued_le⟩
  | done => exact ⟨hp.credit_nonneg, hp.credit_lt_one, hp.queued_le⟩

theorem sound_of_run {C : Pacer → PacerAct → Prop} {acts : List PacerAct}
    (run : Run (step rps) C start acts p) : p.Sound rps :=
  run.invariant (start_sound rps) fun _ _ _ _ h hp => hp.moved (moved h hp.credit_nonneg)

/-- Whole part and rest of a credit make up the credit. -/
theorem floor_add_fract {x : ℚ} (h : 0 ≤ x) : (⌊x⌋₊ : ℚ) + Int.fract x = x := by
  rw [natCast_floor_eq_intCast_floor h]
  exact Int.floor_add_fract x

/-- What has been sent and what may still be sent without another tick. -/
def given (p : Pacer) (events : List PacerEvent) : ℚ :=
  events.count .sent + p.emitting + p.credit

/-- What the ticks have brought in. -/
def income (rps : ℕ) (events : List PacerEvent) : ℚ := events.count .ticked * perTick rps

/-- Only ticks bring something in; a drop gives something up, and nothing else counts. -/
theorem given_moved (hp : p.Sound rps) (h : Moved rps p a e q) (events : List PacerEvent) :
    q.given (events ++ e.toList) - income rps (events ++ e.toList) ≤
        p.given events - income rps events ∧
      (e ≠ some .dropped → q.given (events ++ e.toList) - income rps (events ++ e.toList) =
        p.given events - income rps events) := by
  have hcredit := hp.credit_nonneg
  cases h with
  | tick idle =>
    have hsum := floor_add_fract (add_nonneg hcredit (perTick_nonneg rps))
    have hsame : given ⟨Int.fract (p.credit + perTick rps), p.queued, ⌊p.credit + perTick rps⌋₊,
        p.closed⟩ (events ++ [.ticked]) - income rps (events ++ [.ticked]) =
          p.given events - income rps events := by
      simp [given, income, idle]
      linarith
    exact ⟨hsame.le, fun _ => hsame⟩
  | sent busy _ =>
    have hcast : ((p.emitting - 1 : ℕ) : ℚ) = p.emitting - 1 := by
      rw [Nat.cast_sub (by omega), Nat.cast_one]
    have hsame : given ⟨p.credit, p.queued + 1, p.emitting - 1, p.closed⟩ (events ++ [.sent]) -
        income rps (events ++ [.sent]) = p.given events - income rps events := by
      simp [given, income, hcast]
    exact ⟨hsame.le, fun _ => hsame⟩
  | dropped _ _ =>
    refine ⟨?_, fun hne => absurd rfl hne⟩
    have hemitting : (0 : ℚ) ≤ p.emitting := Nat.cast_nonneg _
    simp [given, income]
    linarith
  | received _ => simp [given, income]
  | done => simp [given, income]

/-- The channel holds what was sent and not received. -/
theorem queued_moved (h : Moved rps p a e q) (events : List PacerEvent) :
    q.queued + (events ++ e.toList).count .received + events.count .sent =
      p.queued + events.count .received + (events ++ e.toList).count .sent := by
  cases h with
  | received hqueued =>
    simp
    omega
  | sent _ _ =>
    simp
    omega
  | _ => simp

theorem income_eq (rps : ℕ) (events : List PacerEvent) :
    income rps events = events.count .ticked * rps / 200 := by
  rw [income, perTick, ticksPerSecond_eq]
  ring

/-! ## Windows -/

/-- From a tick on, the ticks of any stretch of a run bound what is sent in it. -/
theorem window_sent {C : Pacer → PacerAct → Prop} {window : List PacerAct} (hp : p.Sound rps)
    (between : p.emitting = 0) (run : Run (step rps) C p window q) :
    ((log (step rps) (event rps) window p).count .sent : ℤ) ≤
      ⌈((log (step rps) (event rps) window p).count .ticked * rps / 200 : ℚ)⌉ := by
  have hinv := run.invariant_log (event rps)
    (I := fun u noted => u.Sound rps ∧ u.given noted - income rps noted ≤ p.credit)
    ⟨hp, by simp [given, income, between]⟩ fun u noted a u' _ hstep h => by
      have hmoved := moved hstep h.1.credit_nonneg
      exact ⟨h.1.moved hmoved, (given_moved h.1 hmoved noted).1.trans h.2⟩
  obtain ⟨hq, hgiven⟩ := hinv
  rw [income_eq, given] at hgiven
  generalize log (step rps) (event rps) window p = events at hgiven ⊢
  have hlt := hp.credit_lt_one
  have hcredit := hq.credit_nonneg
  have hemitting : (0 : ℚ) ≤ q.emitting := Nat.cast_nonneg _
  have hceil := Int.le_ceil (events.count .ticked * rps / 200 : ℚ)
  have hsent : ((events.count .sent : ℤ) : ℚ) - 1 < ⌈(events.count .ticked * rps / 200 : ℚ)⌉ := by
    push_cast
    linarith
  have hsent' : (events.count .sent : ℤ) - 1 < ⌈(events.count .ticked * rps / 200 : ℚ)⌉ := by
    exact_mod_cast hsent
  omega

/-- What is received was in the channel or is sent in the meantime. -/
theorem window_received {C : Pacer → PacerAct → Prop} {window : List PacerAct} (hp : p.Sound rps)
    (run : Run (step rps) C p window q) :
    (log (step rps) (event rps) window p).count .received ≤
      (log (step rps) (event rps) window p).count .sent + capacity rps := by
  have hinv := run.invariant_log (event rps)
    (I := fun u noted => u.Sound rps ∧
      u.queued + noted.count .received = p.queued + noted.count .sent)
    ⟨hp, by simp⟩ fun u noted a u' _ hstep h => by
      have hmoved := moved hstep h.1.credit_nonneg
      have hqueued := queued_moved hmoved noted
      exact ⟨h.1.moved hmoved, by omega⟩
  have hle := hp.queued_le
  omega

/-! ## Consumers that keep up -/

/-- The channel is empty when the next tick comes. -/
def KeepsUp (p : Pacer) (a : PacerAct) : Prop := a = .tick → p.queued = 0

instance (p : Pacer) (a : PacerAct) : Decidable (p.KeepsUp a) := by
  unfold KeepsUp
  infer_instance

/-- The channel has room for whatever one tick sends. -/
theorem emit_le_capacity {c : ℚ} (hc : 0 ≤ c) (hlt : c < 1) :
    ⌊c + perTick rps⌋₊ ≤ capacity rps := by
  have hrate := perTick_nonneg rps
  have hsum : (⌊c + perTick rps⌋₊ : ℚ) ≤ c + perTick rps :=
    Nat.floor_le (add_nonneg hc hrate)
  simp only [capacity]
  by_cases hslow : perTick rps < 1
  · -- a slow rate sends one token at most, and there is always room for one
    have hone : ⌊c + perTick rps⌋₊ < 2 := by
      have htwo : (⌊c + perTick rps⌋₊ : ℚ) < 2 := by linarith
      exact_mod_cast htwo
    split_ifs with hcap <;> omega
  · have hle : ⌊c + perTick rps⌋₊ ≤ ⌊perTick rps * 4⌋₊ := Nat.floor_mono (by linarith)
    split_ifs with hcap <;> omega

/-- A run whose consumers keep up so far: nothing is lost, and there is room for the rest of
the tick. -/
structure Lossless (rps : ℕ) (p : Pacer) (events : List PacerEvent) : Prop where
  sound : p.Sound rps
  room : p.queued + p.emitting ≤ capacity rps
  none_dropped : events.count .dropped = 0
  all_given : p.given events = income rps events

theorem Lossless.moved {events : List PacerEvent} (hp : Lossless rps p events)
    (keepsUp : p.KeepsUp a) (h : Moved rps p a e q) : Lossless rps q (events ++ e.toList) := by
  have hroom := hp.room
  have hnone : e ≠ some .dropped := by
    cases h with
    | dropped busy full => omega
    | _ => simp
  have hgiven := (given_moved hp.sound h events).2 hnone
  refine ⟨hp.sound.moved h, ?_, ?_, by linarith [hp.all_given]⟩
  · cases h with
    | tick _ =>
      have hempty : p.queued = 0 := keepsUp rfl
      have hemit : ⌊p.credit + perTick rps⌋₊ ≤ capacity rps :=
        emit_le_capacity hp.sound.credit_nonneg hp.sound.credit_lt_one
      show p.queued + ⌊p.credit + perTick rps⌋₊ ≤ capacity rps
      omega
    | sent _ _ =>
      show p.queued + 1 + (p.emitting - 1) ≤ capacity rps
      omega
    | dropped _ _ => exact absurd rfl hnone
    | received _ =>
      show p.queued - 1 + p.emitting ≤ capacity rps
      omega
    | done => exact hroom
  · rw [List.count_append, hp.none_dropped, Nat.zero_add, List.count_eq_zero]
    intro hmem
    exact hnone (Option.mem_toList.mp hmem)

/-- No token is lost, and after whole ticks the whole part of what is due has been sent. -/
theorem lossless_of_run {acts : List PacerAct} (run : Run (step rps) KeepsUp start acts p) :
    Lossless rps p (log (step rps) (event rps) acts start) :=
  run.invariant_log _ ⟨start_sound rps, Nat.zero_le _, rfl, by simp [given, income, start]⟩
    fun _ _ _ _ keepsUp h hp => hp.moved keepsUp (moved h hp.sound.credit_nonneg)

theorem Lossless.sent_eq {events : List PacerEvent} (hp : Lossless rps p events)
    (between : p.emitting = 0) :
    (events.count .sent : ℤ) = ⌊(events.count .ticked * rps / 200 : ℚ)⌋ := by
  have hgiven := hp.all_given
  rw [income_eq, given, between] at hgiven
  have hcredit := hp.sound.credit_nonneg
  have hlt := hp.sound.credit_lt_one
  symm
  rw [Int.floor_eq_iff]
  push_cast at hgiven ⊢
  constructor <;> linarith

end

/-- The pacer neither drifts nor bursts, whatever its consumers do. -/
theorem paced {rps : ℕ} {p : Pacer} {before : List PacerAct}
    (run : Run (step rps) (fun _ _ => True) start before p) :
    p.queued ≤ capacity rps ∧ (0 ≤ p.credit ∧ p.credit < 1) ∧
    (p.emitting = 0 → ∀ (window : List PacerAct) (q : Pacer) (events : List PacerEvent),
      Run (step rps) (fun _ _ => True) p window q →
      events = log (step rps) (event rps) window p →
      (events.count .sent : ℤ) ≤ ⌈(events.count .ticked * rps / 200 : ℚ)⌉ ∧
      (events.count .received : ℤ) ≤ ⌈(events.count .ticked * rps / 200 : ℚ)⌉ + capacity rps) ∧
    ∀ (acts : List PacerAct) (q : Pacer) (events : List PacerEvent),
      Run (step rps) KeepsUp start acts q → events = log (step rps) (event rps) acts start →
      events.count .dropped = 0 ∧
      (q.emitting = 0 → (events.count .sent : ℤ) = ⌊(events.count .ticked * rps / 200 : ℚ)⌋) := by
  have hp := sound_of_run run
  refine ⟨hp.queued_le, ⟨hp.credit_nonneg, hp.credit_lt_one⟩, ?_, ?_⟩
  · intro between window q events hwindow hevents
    subst hevents
    have hsent := window_sent hp between hwindow
    have hreceived := window_received hp hwindow
    exact ⟨hsent, by omega⟩
  · intro acts q events hrun hevents
    subst hevents
    have hlossless := lossless_of_run hrun
    exact ⟨hlossless.none_dropped, hlossless.sent_eq⟩

/-- Two ticks at 300 tokens a second, each emptied before the next. -/
def twoTicks : List PacerAct :=
  [.tick, .send, .receive, .tick, .send, .send, .receive, .receive]

/-- They send three tokens: one and a half each. -/
theorem paced_two_ticks : ∃ q : Pacer, Run (step 300) KeepsUp start twoTicks q ∧
    (log (step 300) (event 300) twoTicks start).count .dropped = 0 ∧
    ((log (step 300) (event 300) twoTicks start).count .sent : ℤ) = ⌊(2 * 300 / 200 : ℚ)⌋ ∧
    ((log (step 300) (event 300) twoTicks start).count .sent : ℤ) ≤ ⌈(2 * 300 / 200 : ℚ)⌉ := by
  have hreplay : (replayIf (step 300) (fun p a => decide (p.KeepsUp a)) twoTicks start).any
      (fun p => p.emitting = 0) = true := by decide +kernel
  obtain ⟨q, run, hbetween⟩ := exists_run_of_replayIf (C := KeepsUp) _
    (fun _ _ h => of_decide_eq_true h) twoTicks _ hreplay
  have hstart : Run (step 300) (fun _ _ => True) start [] start := .start
  obtain ⟨-, -, hwindow, hlossless⟩ := paced hstart
  obtain ⟨hdropped, hsent⟩ := hlossless twoTicks q _ run rfl
  have hticks : (log (step 300) (event 300) twoTicks start).count .ticked = 2 := by decide +kernel
  have hexact := hsent (by simpa using hbetween)
  have hbound := (hwindow rfl twoTicks q _ (run.mono fun _ _ _ => trivial) rfl).1
  rw [hticks] at hexact hbound
  exact ⟨q, run, hdropped, by exact_mod_cast hexact, by exact_mod_cast hbound⟩

/-- Consumers that stall lose what does not fit into 20 ms. -/
example : (log (step 200) (event 200) [.tick, .send, .tick, .send, .tick, .send, .tick, .send,
    .tick, .send] start).count .dropped = 1 := by decide +kernel

end Pacer

end R2Bench
